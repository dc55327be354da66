import RtpMulticast.Support.ByteBuffer

/-!
# Data of the RTP sender

Constants of `w6x_rtp_sender.h` and `w6x_rtp_platform.h`, and the parts of the
sender and session objects that the sending and receiving paths read or write.
-/

namespace RtpMulticast

open ByteBuffer

/-! ## Constants -/

def rtpVersion : UInt8 := 2
def rtpCnameMaxSize : ℕ := 32

/-- `RTP_PAYLOAD_MAX_TYPE` -/
def rtpPayloadMaxType : UInt16 := 127

def rtpSenderId : UInt32 := 0x52545053
def rtpSessionId : UInt32 := 0x52545054

def mtuSize : ℕ := 1200
def ipHeaderSize : ℕ := 20
def udpHeaderSize : ℕ := 8
def udpPayloadMaxSize : ℕ := mtuSize - ipHeaderSize - udpHeaderSize

/-- `sizeof(w6x_rtp_pkt_header_t)` -/
def rtpPktHeaderSize : ℕ := 12

/-- `RTP_PAYLOAD_MAX_SIZE` -/
def rtpPayloadMaxSize : ℕ := udpPayloadMaxSize - rtpPktHeaderSize

def rtpHeaderMarker : UInt8 := 0x80
def rtpHeaderVersion : UInt8 := rtpVersion <<< 6

def rtcpPadValue : UInt8 := 0x00
def rtcpInterval : UInt32 := 5000

def rtcpHeaderInfoCountMask : UInt8 := 0x1F
def rtcpHeaderInfoPadMask : UInt8 := 0x20
def rtcpHeaderInfoPad : UInt8 := 0x00
def rtcpHeaderInfoVersionMask : UInt8 := 0xC0
def rtcpHeaderInfoVersion : UInt8 := rtpHeaderVersion
def rtcpHeaderTypeMask : UInt8 := 0xFE
def rtcpHeaderTypeSr : UInt8 := 200
def rtcpHeaderTypeRr : UInt8 := 201
def rtcpHeaderTypeSdes : UInt8 := 202

def rtcpSdesTypeCname : UInt8 := 1

def rtpH264NriMask : UInt8 := 0x60
def rtpH264TypeMask : UInt8 := 0x1F
def rtpH264TypeSei : UInt8 := 6
def rtpH264TypeSps : UInt8 := 7
def rtpH264TypePps : UInt8 := 8
def rtpH264TypeFuA : UInt8 := 28
def rtpH264FuStartMask : UInt8 := 0x80
def rtpH264FuEndMask : UInt8 := 0x40
def rtpH264FuSize : ℕ := 2

/-- `U32_ALIGN`: the next multiple of 4. -/
def u32Align (x : ℕ) : ℕ := (x + 3) / 4 * 4

/-- Sizes of the RTCP structures as the compiler lays them out; the SDES chunk
holds an SSRC and one item of three bytes, padded to a multiple of four. -/
def rtcpPktHeaderSize : ℕ := 4
def rtcpPktRrSize : ℕ := 28
def rtcpPktSdesItemSize : ℕ := 3
def rtcpPktSdesChunkSize : ℕ := 8
def rtcpPktSrSize : ℕ := 24

def rtcpPacketSdesSize : ℕ :=
  u32Align (rtcpPktHeaderSize + rtcpPktSdesChunkSize + rtpCnameMaxSize - 1)
def rtcpPacketSrSize : ℕ := u32Align (rtcpPktHeaderSize + rtcpPktSrSize)
def rtcpPacketSize : ℕ := rtcpPacketSdesSize + rtcpPacketSrSize

/-- Return codes of the RTP sender. -/
inductive RtpStatus where
  | ok
  | errorPtr
  | errorRtos
  | errorParameters
  | errorPacket
  | errorSocket
  | errorNotFound
  deriving DecidableEq, Repr

/-! ## Objects -/

/-- Peer address, as `sendto` receives it. -/
structure SockAddr where
  port : UInt16
  addr : UInt32
  deriving DecidableEq, Repr

/-- An RTP session. -/
structure Session where
  id : UInt32
  ssrc : UInt32
  payloadType : UInt8
  sequenceNumber : UInt16
  sampleFactor : UInt32
  ntpMsw : UInt32
  ntpLsw : UInt32
  rtpTimestamp : UInt32
  rtcpTimestamp : UInt32
  packetCount : UInt32
  octetCount : UInt32
  clientRtp : SockAddr
  clientRtcp : SockAddr
  deriving DecidableEq, Repr

/-- An RTP sender.  `session` lists the linked sessions in the order of their
`next` pointers and `cname` holds the first `cname_size` bytes of the name
array.  The payload limit is nonzero and leaves room for the RTP header in
`rtp_packet`: creation sets it to `rtpPayloadMaxSize`. -/
structure Sender where
  id : UInt32
  cname : Bytes
  session : List Session
  rtpSocket : Int
  rtcpSocket : Int
  rtpPayloadMaxSize : ℕ
  rtcpRrCb : Bool
  rtcpSdesCb : Bool
  cname_le : cname.length ≤ rtpCnameMaxSize
  payload_pos : 0 < rtpPayloadMaxSize
  payload_le : rtpPayloadMaxSize ≤ RtpMulticast.rtpPayloadMaxSize

/-- The `cname_size` field. -/
def Sender.cnameSize (sender : Sender) : UInt8 :=
  UInt8.ofNat sender.cname.length

theorem Sender.toNat_cnameSize (sender : Sender) :
    sender.cnameSize.toNat = sender.cname.length := by
  have hle := sender.cname_le
  simp only [rtpCnameMaxSize] at hle
  simp only [Sender.cnameSize, UInt8.toNat_ofNat']
  omega

/-- The session and the sender as `w6x_h264_rtp_stream` creates them, with
socket numbers 0 and 1. -/
def streamSession : Session where
  id := rtpSessionId
  ssrc := 0x12345678
  payloadType := 96
  sequenceNumber := 0
  sampleFactor := 0
  ntpMsw := 0
  ntpLsw := 0
  rtpTimestamp := 0
  rtcpTimestamp := 0
  packetCount := 0
  octetCount := 0
  clientRtp := ⟨5004, 0xEF000000⟩
  clientRtcp := ⟨5005, 0xEF000000⟩

def streamSender : Sender where
  id := rtpSenderId
  cname := [0x52, 0x54, 0x50, 0x40, 0x53, 0x54, 0x36, 0x37]
  session := [streamSession]
  rtpSocket := 0
  rtcpSocket := 1
  rtpPayloadMaxSize := RtpMulticast.rtpPayloadMaxSize
  rtcpRrCb := true
  rtcpSdesCb := true
  cname_le := by decide
  payload_pos := by decide
  payload_le := le_rfl

end RtpMulticast
