import RtpMulticast.Support.RtcpReader
import RtpMulticast.Rtp.Sending

/-!
# The compound packet at a standard reader

The length fields of `_w6x_rtcp_append_packet_sr` and
`_w6x_rtcp_append_packet_sdes` count the words of the packet, header included,
where the standard counts one less.  So a standard reader takes the first word
of the source description for a part of the sender report and looks for the
second packet behind it.
-/

namespace RtpMulticast

open ByteBuffer Rfc3550

/-- The report that the session's state asks for. -/
def senderReport (session : Session) (extension : Bytes) : SenderReport where
  source := session.ssrc
  ntpMsw := session.ntpMsw
  ntpLsw := session.ntpLsw
  rtpTimestamp := session.rtpTimestamp
  packetCount := session.packetCount
  octetCount := session.octetCount
  blocks := []
  extension := extension

theorem rtcpSdesTypeCname_ne : rtcpSdesTypeCname ≠ 0 := by decide

theorem Sender.cname_le_octet (sender : Sender) : sender.cname.length ≤ 255 :=
  sender.cname_le.trans (by decide)

/-- The chunk with the sender's name. -/
def cnameChunk (sender : Sender) (session : Session) : SdesChunk where
  source := session.ssrc
  items := [⟨rtcpSdesTypeCname, sender.cname, rtcpSdesTypeCname_ne,
    sender.cname_le_octet⟩]

/-- A standard reader finds a sender report without report blocks and a source
description with the sender's name, and nothing else. -/
def RtcpConforms (sender : Sender) (session : Session) (packet : Bytes) :
    Prop :=
  ∃ extension, readCompound packet =
    some [.senderReport (senderReport session extension),
      .sourceDescription [cnameChunk sender session]]

/-- The sender report on the wire and, in the last four octets, the header of
the source description. -/
def rtcpSrBody (sender : Sender) (session : Session) : Bytes :=
  (senderReport session []).body ++
    ([rtcpHeaderInfoVersion ||| 1, rtcpHeaderTypeSdes] ++
      beU16 (UInt16.ofNat (u32Align (11 + sender.cname.length) / 4)))

/-- What is left of the source description behind its header. -/
def rtcpSdesBody (sender : Sender) (session : Session) : Bytes :=
  beU32 session.ssrc ++ (rtcpSdesTypeCname :: sender.cnameSize ::
    (sender.cname ++ List.replicate
      (u32Align (11 + sender.cname.length) - (10 + sender.cname.length)) 0))

theorem rtcpCompound_eq (sender : Sender) (session : Session) :
    rtcpCompound sender session =
      rtcpHeaderInfoVersion :: rtcpHeaderTypeSr ::
        (beU16 7 ++ (rtcpSrBody sender session ++
          rtcpSdesBody sender session)) := by
  simp [rtcpCompound, rtcpSrBytes, rtcpSdesBytes, rtcpSdesNamed, rtcpSrBody,
    rtcpSdesBody, senderReport, SenderReport.body]

/-- No state of a session and no name makes the compound conform. -/
theorem rtcpCompound_not_conforms (sender : Sender) (session : Session) :
    ¬ RtcpConforms sender session (rtcpCompound sender session) := by
  rintro ⟨extension, hread⟩
  obtain ⟨fuel, left, hfirst, hrest⟩ := readPackets_eq_some hread
  obtain ⟨-, last, hsecond, -⟩ := readPackets_eq_some hrest
  rw [rtcpCompound_eq] at hfirst
  have hleft : left = rtcpSdesBody sender session :=
    readPacket_rest rfl hfirst
  rw [hleft] at hsecond
  obtain ⟨first, type, size, tail, hbytes, hversion⟩ :=
    readPacket_source hsecond
  -- The reader meets the source twice: as a header and as the item header.
  simp only [rtcpSdesBody, beU32, beU16, cnameChunk, List.cons_append,
    List.nil_append, List.cons.injEq] at hbytes
  obtain ⟨hsource, -, -, -, htype, -⟩ := hbytes
  rw [← hsource, ← htype] at hversion
  exact absurd hversion (by decide)

/-- A report that is due is sent in a form that does not conform, whatever the
state of the session and the name of the sender. -/
theorem w6xRtcpSendPacket_not_conforms {platform : Platform}
    {sender : Sender} {w : World}
    (hdue : RtcpDue w.session (platform.xTaskGetTickCount w.tickCalls)) :
    ∃ status w' packet,
      w6xRtcpSendPacket platform sender w = .ok (status, w') ∧
        w'.sends =
          w.sends ++ [⟨sender.rtcpSocket, packet, w.session.clientRtcp⟩] ∧
        ¬ RtcpConforms sender w.session packet := by
  have hstep := @w6xRtcpSendPacket_of_due platform sender w hdue
  have hnot := rtcpCompound_not_conforms sender w.session
  by_cases hstatus : platform.socketSendto w.sends.length < 0
  · rw [if_pos hstatus] at hstep
    exact ⟨_, _, _, hstep, rfl, hnot⟩
  · rw [if_neg hstatus] at hstep
    exact ⟨_, _, _, hstep, rfl, hnot⟩

theorem w6xRtcpSendPacket_not_conforms_first_report :
    RtcpDue streamSession 0 ∧ ∃ status w' packet,
      w6xRtcpSendPacket platformOk streamSender (streamWorld streamSession) =
          .ok (status, w') ∧
        w'.sends = [⟨1, packet, ⟨5005, 0xEF000000⟩⟩] ∧
        ¬ RtcpConforms streamSender streamSession packet :=
  ⟨by decide, w6xRtcpSendPacket_not_conforms (by decide)⟩

/-- The first report of the stream's session. -/
theorem streamReport_not_conforms :
    ∃ w', w6xRtcpSendPacket platformOk streamSender
          (streamWorld streamSession) = .ok (.ok, w') ∧
      w'.sends = [⟨1, rtcpCompound streamSender streamSession,
        ⟨5005, 0xEF000000⟩⟩] ∧
      ¬ RtcpConforms streamSender streamSession
        (rtcpCompound streamSender streamSession) := by
  have hdue : RtcpDue (streamWorld streamSession).session
      (platformOk.xTaskGetTickCount 0) := by decide
  have hstep := @w6xRtcpSendPacket_of_due platformOk streamSender
    (streamWorld streamSession) hdue
  rw [if_neg (by decide)] at hstep
  exact ⟨_, hstep, rfl, rtcpCompound_not_conforms streamSender streamSession⟩

/-! ## The length fields are all that is wrong -/

section Lowered

variable (sender : Sender) (session : Session)

theorem senderReport_valid : (senderReport session []).Valid :=
  ⟨⟨0, Nat.zero_le 31, rfl⟩, dvd_zero 4, by
    simp [SenderReport.words, senderReport]⟩

theorem length_items :
    ((cnameChunk sender session).items.flatMap SdesItem.encode).length =
      2 + sender.cname.length := by
  rw [cnameChunk, List.flatMap_cons, List.flatMap_nil, List.append_nil,
    SdesItem.length_encode]

theorem length_cnameChunk :
    (cnameChunk sender session).encode.length =
      u32Align (11 + sender.cname.length) - 4 := by
  rw [SdesChunk.length_encode, SdesChunk.padding, length_items, u32Align]
  omega

/-- The source description as the standard has it. -/
def nameDescription : SourceDescription where
  chunks := [cnameChunk sender session]
  chunks_le := Nat.le_add_left 1 30
  size_le := by
    have hle := sender.cname_le_octet
    rw [List.flatMap_cons, List.flatMap_nil, List.append_nil,
      length_cnameChunk, u32Align]
    omega

theorem encode_nameDescription :
    (nameDescription sender session).encode =
      [rtcpHeaderInfoVersion ||| 1, rtcpHeaderTypeSdes] ++
        beU16 (UInt16.ofNat (u32Align (11 + sender.cname.length) / 4 - 1)) ++
        rtcpSdesBody sender session := by
  have hwords : (nameDescription sender session).words - 1 =
      u32Align (11 + sender.cname.length) / 4 - 1 := by
    rw [SourceDescription.words, nameDescription, List.flatMap_cons,
      List.flatMap_nil, List.append_nil, length_cnameChunk]
    unfold u32Align
    omega
  have hpadding : (cnameChunk sender session).padding =
      u32Align (11 + sender.cname.length) - (10 + sender.cname.length) := by
    rw [SdesChunk.padding, length_items, u32Align]
    omega
  rw [SourceDescription.encode, hwords]
  simp only [nameDescription, List.flatMap_cons, List.flatMap_nil,
    List.append_nil, SdesChunk.encode, hpadding]
  simp [cnameChunk, SdesItem.encode, rtcpSdesBody, Sender.cnameSize]
  exact ⟨rfl, rfl⟩

theorem beU16_of_lt {k : ℕ} (hk : k < 256) :
    beU16 (UInt16.ofNat k) = [0, UInt8.ofNat k] := by
  have hnat : (UInt16.ofNat k).toNat = k := by
    rw [UInt16.toNat_ofNat']
    omega
  have hhigh : k / 256 ^ 1 = 0 := by omega
  rw [beU16, hnat, byteOf, hhigh, byteOf, pow_zero, Nat.div_one]
  rfl

/-- With both length fields lowered by one the compound conforms. -/
theorem rtcpCompound_lowered_conforms :
    RtcpConforms sender session (((rtcpCompound sender session).set 3 6).set 31
      (UInt8.ofNat (u32Align (11 + sender.cname.length) / 4 - 1))) := by
  refine ⟨[], ?_⟩
  have hread := readCompound_encode (senderReport_valid session)
    (nameDescription sender session)
  rw [encode_nameDescription] at hread
  have hle := sender.cname_le
  simp only [rtpCnameMaxSize] at hle
  have hwords : u32Align (11 + sender.cname.length) / 4 < 256 := by
    unfold u32Align
    omega
  have hlowered : u32Align (11 + sender.cname.length) / 4 - 1 < 256 := by
    omega
  have hfirst : (senderReport session []).encode =
      rtcpHeaderInfoVersion :: rtcpHeaderTypeSr ::
        (beU16 6 ++ (senderReport session []).body) := by
    simp [SenderReport.encode, SenderReport.words, senderReport]
    exact ⟨rfl, rfl⟩
  have hbytes : ((rtcpCompound sender session).set 3 6).set 31
      (UInt8.ofNat (u32Align (11 + sender.cname.length) / 4 - 1)) =
        (senderReport session []).encode ++
          ([rtcpHeaderInfoVersion ||| 1, rtcpHeaderTypeSdes] ++
            [0, UInt8.ofNat (u32Align (11 + sender.cname.length) / 4 - 1)] ++
            rtcpSdesBody sender session) := by
    rw [rtcpCompound_eq, rtcpSrBody, beU16_of_lt hwords, hfirst]
    rfl
  rw [beU16_of_lt hlowered, ← hbytes] at hread
  exact hread

end Lowered

end RtpMulticast
