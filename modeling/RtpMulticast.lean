import RtpMulticast.Support.ByteBuffer
import RtpMulticast.Support.ByteMemory
import RtpMulticast.Support.Machine
import RtpMulticast.Support.LinkedList
import RtpMulticast.Support.CyclicSearch
import RtpMulticast.Support.AnnexB
import RtpMulticast.Support.FuA
import RtpMulticast.Support.Rfc3550
import RtpMulticast.Rtp.Definitions
import RtpMulticast.Rtp.Sending
import RtpMulticast.Rtp.PacketAccounting
import RtpMulticast.Rtp.RtpPackets
import RtpMulticast.Rtp.SampleTimestamps
import RtpMulticast.Rtp.SenderCreate
import RtpMulticast.Rtp.SessionList
import RtpMulticast.Rtp.H264
import RtpMulticast.Rtp.H264Split
import RtpMulticast.Rtp.H264Bounds
import RtpMulticast.Rtp.Receiving
import RtpMulticast.Rtp.RtcpBounds
import RtpMulticast.Rtp.RtcpConformance
import RtpMulticast.Rtp.RtcpRoundTrip
import RtpMulticast.Rtp.ReceiverReport
import RtpMulticast.Rtp.SourceDescription
import RtpMulticast.Rtp.CompoundPacket
import RtpMulticast.Rtp.ReceiveTask
import RtpMulticast.Rtp.Lifecycle
import RtpMulticast.Rtp.LifecycleInvariant
import RtpMulticast.Rtp.TaskLifetime
import RtpMulticast.Rtp.LifecycleSafety
import RtpMulticast.Streaming.Definitions
import RtpMulticast.Streaming.CameraTask
import RtpMulticast.Streaming.StreamTask
import RtpMulticast.Streaming.PauseToggle
import RtpMulticast.Streaming.MediaClock
import RtpMulticast.Support.RtcpReader
import RtpMulticast.Support.BumpQueue
import RtpMulticast.Streaming.Regions
import RtpMulticast.Streaming.EncoderOffset
import RtpMulticast.Streaming.ReferenceChain
import RtpMulticast.Support.Ownership
import RtpMulticast.Lwip.SecureConnection
import RtpMulticast.Mqtt.Definitions
import RtpMulticast.Mqtt.MainTask
import RtpMulticast.Mqtt.Sessions
import RtpMulticast.Mqtt.SessionResources
import RtpMulticast.Mqtt.SessionOrder
import RtpMulticast.Mqtt.SessionFlag
import RtpMulticast.Mqtt.ClientMutex
import RtpMulticast.Mqtt.MessageOwnership
import RtpMulticast.App.ControlWrites
import RtpMulticast.App.MainLoop
import RtpMulticast.Lwip.NetifOutput
import RtpMulticast.Lwip.NetifReceive
import RtpMulticast.Lwip.NetifTask
import RtpMulticast.Mqtt.PublishPostponement
import RtpMulticast.Support.UsageLog
import RtpMulticast.Support.CString
import RtpMulticast.Support.TimeoutList
import RtpMulticast.Lwip.Sntp
import RtpMulticast.Support.Calendar
import RtpMulticast.Support.Text
import RtpMulticast.Lwip.SntpCalendar
import RtpMulticast.Hal.Rtc
import RtpMulticast.Lwip.SntpRtc
import RtpMulticast.Support.Tlv
import RtpMulticast.Lwip.DhcpServer
import RtpMulticast.Lwip.DhcpOptions
import RtpMulticast.Lwip.DhcpAllocation
import RtpMulticast.Lwip.DhcpLeases
import RtpMulticast.Lwip.DhcpReplies
import RtpMulticast.Lwip.DhcpStop
import RtpMulticast.Support.SlotTable
import RtpMulticast.Lwip.DhcpDns
import RtpMulticast.Lwip.StationTable
import RtpMulticast.Rtp.H264Fragments
import RtpMulticast.Rtp.H264Markers
import RtpMulticast.Rtp.ReportPacing
import RtpMulticast.Lwip.HttpHeader
import RtpMulticast.Lwip.HttpBody
import RtpMulticast.Lwip.HttpDelivery
import RtpMulticast.Lwip.HttpRequest
import RtpMulticast.Lwip.HttpRequestText
import RtpMulticast.Lwip.HttpSessions
import RtpMulticast.Lwip.HttpUpload
import RtpMulticast.Hal.ChipSelect
import RtpMulticast.App.ApScanPayload
import RtpMulticast.Littlefs.KeyPath
import RtpMulticast.Littlefs.KeyValues
import RtpMulticast.Littlefs.KeyDurability
import RtpMulticast.Littlefs.KeyPathCounters
import RtpMulticast.Littlefs.FileList
import RtpMulticast.Spi.Buffers
import RtpMulticast.Spi.Exchange
import RtpMulticast.Spi.Outcomes
import RtpMulticast.Support.StopAndWait
import RtpMulticast.Spi.Bus
import RtpMulticast.Spi.BusSteps
import RtpMulticast.Spi.Delivery
import RtpMulticast.Spi.BufferMode
import RtpMulticast.Spi.Blocks
import RtpMulticast.Spi.Progress
import RtpMulticast.Spi.Statistics
import RtpMulticast.Support.QuotedFields
import RtpMulticast.Support.StreamScanner
import RtpMulticast.Modem.AtCommands
import RtpMulticast.Modem.AtPairing
import RtpMulticast.Modem.AtSessions
import RtpMulticast.Modem.CmdHandler
import RtpMulticast.Modem.ParseParams
import RtpMulticast.Modem.RxRounds
import RtpMulticast.Modem.RxStream
import RtpMulticast.Modem.RxDelivery
import RtpMulticast.Modem.DataEvents
import RtpMulticast.Modem.DataCuts
import RtpMulticast.Modem.DataPieces
