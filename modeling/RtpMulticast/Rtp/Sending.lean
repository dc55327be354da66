import RtpMulticast.Rtp.Definitions

/-!
# Sending RTP and RTCP packets

`_w6x_rtcp_append_packet_sr`, `_w6x_rtcp_append_packet_sdes`,
`_w6x_rtcp_send_packet` and `w6x_rtp_sender_session_send_packet`.  The state
threaded through them is the session, the packets given to the sockets so far
and the sender mutex; the surroundings answer each socket call with a status
and each clock read with a tick count.
-/

namespace RtpMulticast

open ByteBuffer

/-- Answers of the network stack and of the clock, in the order of the
calls. -/
structure Platform where
  socketSendto : ℕ → Int
  xTaskGetTickCount : ℕ → UInt32

/-- One call of `socket_sendto`. -/
structure SendCall where
  socket : Int
  packet : Bytes
  dest : SockAddr
  deriving DecidableEq, Repr

/-- State of a sending task.  `nalUnits` records the NAL units handed to the
transmit branches of `w6x_rtp_sender_session_send_h264`; no function reads
it. -/
structure World where
  session : Session
  sends : List SendCall
  tickCalls : ℕ
  mutexTaken : Bool
  nalUnits : List Bytes
  deriving DecidableEq, Repr

def socketSendto (platform : Platform) (socket : Int) (packet : Bytes)
    (dest : SockAddr) (w : World) : Int × World :=
  (platform.socketSendto w.sends.length,
    { w with sends := w.sends ++ [⟨socket, packet, dest⟩] })

def xTaskGetTickCount (platform : Platform) (w : World) : UInt32 × World :=
  (platform.xTaskGetTickCount w.tickCalls,
    { w with tickCalls := w.tickCalls + 1 })

/-- A sending task before its first call. -/
def streamWorld (session : Session) : World where
  session := session
  sends := []
  tickCalls := 0
  mutexTaken := false
  nalUnits := []

/-- Surroundings in which every send succeeds and the clock stands still. -/
def platformOk : Platform := ⟨fun _ => 0, fun _ => 0⟩

/-! ## RTCP -/

/-- Append a sender report at `head`; the result is the status, the buffer and
the new head. -/
def w6xRtcpAppendPacketSr (session : Session) (packet : Bytes) (head : ℕ) :
    Except Fault (RtpStatus × Bytes × ℕ) := do
  let size := rtcpPktHeaderSize + rtcpPktSrSize
  let required := u32Align size
  let available ← subSize packet.length head
  if available < required then
    return (.errorPacket, packet, head)
  let header := [rtcpHeaderInfoVersion, rtcpHeaderTypeSr] ++
    leU16 (bswap16 (UInt16.ofNat (required / 4)))
  let sr := leU32 (bswap32 session.ssrc) ++ leU32 (bswap32 session.ntpMsw) ++
    leU32 (bswap32 session.ntpLsw) ++ leU32 (bswap32 session.rtpTimestamp) ++
    leU32 (bswap32 session.packetCount) ++ leU32 (bswap32 session.octetCount)
  let packet ← copyIn packet head (header ++ sr)
  let packet ← copyIn packet (head + size)
    (List.replicate (required - size) rtcpPadValue)
  return (.ok, packet, head + size + (required - size))

/-- Append a source description with the sender's name at `head`.  The chunk
structure has a placeholder byte for the name and one byte of padding, so
`size` counts one byte behind the name that is not written here. -/
def w6xRtcpAppendPacketSdes (sender : Sender) (session : Session)
    (packet : Bytes) (head : ℕ) : Except Fault (RtpStatus × Bytes × ℕ) := do
  let size := rtcpPktHeaderSize + rtcpPktSdesChunkSize +
    sender.cnameSize.toNat - 1
  let required := u32Align size
  let available ← subSize packet.length head
  if available < required then
    return (.errorPacket, packet, head)
  let header := [rtcpHeaderInfoVersion ||| 1, rtcpHeaderTypeSdes] ++
    leU16 (bswap16 (UInt16.ofNat (required / 4)))
  let chunk := leU32 (bswap32 session.ssrc) ++
    [rtcpSdesTypeCname, sender.cnameSize]
  let name ← copyOut sender.cname 0 sender.cnameSize.toNat
  let packet ← copyIn packet head (header ++ chunk ++ name)
  let packet ← copyIn packet (head + size)
    (List.replicate (required - size) rtcpPadValue)
  return (.ok, packet, head + size + (required - size))

/-- Send a compound of SR and SDES unless the last one is less than
`rtcpInterval` ticks old. -/
def w6xRtcpSendPacket (platform : Platform) (sender : Sender) (w : World) :
    Except Fault (RtpStatus × World) := do
  let (timestamp, w) := xTaskGetTickCount platform w
  if w.session.rtcpTimestamp ≠ 0 ∧
      timestamp - w.session.rtcpTimestamp < rtcpInterval then
    return (.ok, w)
  let packet := List.replicate rtcpPacketSize 0
  let (status, packet, head) ← w6xRtcpAppendPacketSr w.session packet 0
  if status ≠ .ok then
    return (status, w)
  let (status, packet, head) ←
    w6xRtcpAppendPacketSdes sender w.session packet head
  if status ≠ .ok then
    return (status, w)
  let data ← copyOut packet 0 head
  let (status, w) :=
    socketSendto platform sender.rtcpSocket data w.session.clientRtcp w
  if status < 0 then
    return (.errorSocket, w)
  return (.ok, { w with session.rtcpTimestamp := timestamp })

/-! ## RTP -/

/-- The RTP header in front of a payload; `last` says that no data is left
behind the payload. -/
def rtpPktHeader (session : Session) (timestamp : UInt32) (marker : UInt8)
    (last : Bool) : Bytes :=
  let byte1 :=
    if session.sampleFactor ≠ 0 ∨ last = true then
      session.payloadType ||| (if marker ≠ 0 then rtpHeaderMarker else 0)
    else session.payloadType
  [rtpHeaderVersion, byte1] ++ leU16 (bswap16 session.sequenceNumber) ++
    leU32 (bswap32 timestamp) ++ leU32 (bswap32 session.ssrc)

/-- One iteration of the send loop on the bytes of its payload; `last` says
that they end the data. -/
def sendChunk (platform : Platform) (sender : Sender)
    (ntpMsw ntpLsw : UInt32) (marker : UInt8)
    (timestamp : UInt32) (payload : Bytes) (last : Bool) (w : World) :
    Except Fault (RtpStatus × World) := do
  let header := rtpPktHeader w.session timestamp marker last
  let w := { w with session := { w.session with
    rtpTimestamp := timestamp, ntpMsw := ntpMsw, ntpLsw := ntpLsw } }
  -- The status of the RTCP report is ignored.
  let (_, w) ← w6xRtcpSendPacket platform sender w
  let (status, w) := socketSendto platform sender.rtpSocket
    (header ++ payload) w.session.clientRtp w
  if status < 0 then
    return (.errorSocket, w)
  return (.ok, { w with session := { w.session with
    octetCount := w.session.octetCount + UInt32.ofNat payload.length
    sequenceNumber := w.session.sequenceNumber + 1
    packetCount := w.session.packetCount + 1 } })

/-- A position in the send loop. -/
structure SendPos where
  timestamp : UInt32
  head : ℕ
  deriving DecidableEq, Repr

/-- One iteration of the send loop. -/
def sendIteration (platform : Platform) (sender : Sender) (data : Bytes)
    (ntpMsw ntpLsw : UInt32) (marker : UInt8) (pos : SendPos) (w : World) :
    Except Fault (RtpStatus × SendPos × World) := do
  let payloadSize := min (data.length - pos.head) sender.rtpPayloadMaxSize
  let payload ← copyOut data pos.head payloadSize
  let head := pos.head + payloadSize
  let (status, w) ← sendChunk platform sender ntpMsw ntpLsw marker
    pos.timestamp payload (head == data.length) w
  let timestamp :=
    if w.session.sampleFactor ≠ 0 ∧ head < data.length then
      pos.timestamp + UInt32.ofNat (payloadSize / w.session.sampleFactor.toNat)
    else pos.timestamp
  return (status, ⟨timestamp, head⟩, w)

theorem sendIteration_head {platform : Platform} {sender : Sender}
    {data : Bytes} {ntpMsw ntpLsw : UInt32} {marker : UInt8}
    {pos pos' : SendPos} {w w' : World} {status : RtpStatus}
    (h : sendIteration platform sender data ntpMsw ntpLsw marker pos w =
      .ok (status, pos', w')) :
    pos'.head =
      pos.head + min (data.length - pos.head) sender.rtpPayloadMaxSize := by
  simp only [sendIteration, bind_eq_ok, pure_eq_ok] at h
  obtain ⟨_, -, ⟨_, _⟩, -, h⟩ := h
  cases h
  rfl

/-- The send loop, entered with the mutex taken and left with it released. -/
def sendPacketLoop (platform : Platform) (sender : Sender) (data : Bytes)
    (ntpMsw ntpLsw : UInt32) (marker : UInt8) (pos : SendPos) (w : World) :
    Except Fault (RtpStatus × World) :=
  if _hmore : pos.head < data.length then
    match _hstep : sendIteration platform sender data ntpMsw ntpLsw marker pos
        w with
    | .error fault => .error fault
    | .ok (status, pos', w) =>
        if status ≠ .ok then .ok (status, { w with mutexTaken := false })
        else sendPacketLoop platform sender data ntpMsw ntpLsw marker pos' w
  else .ok (.ok, { w with mutexTaken := false })
termination_by data.length - pos.head
decreasing_by
  have hpos := sender.payload_pos
  have hhead := sendIteration_head _hstep
  omega

/-- Send `data` in RTP packets of at most `rtpPayloadMaxSize` payload bytes.
`sender` is `session->sender`, absent also for a null session. -/
def w6xRtpSenderSessionSendPacket (platform : Platform)
    (sender : Option Sender) (data : Option Bytes)
    (timestamp ntpMsw ntpLsw : UInt32) (marker : UInt8) (w : World) :
    Except Fault (RtpStatus × World) :=
  match sender, data with
  | some sender, some data =>
      if w.session.id ≠ rtpSessionId then .ok (.errorParameters, w)
      else if data.length = 0 then .ok (.ok, w)
      else
        sendPacketLoop platform sender data ntpMsw ntpLsw marker ⟨timestamp, 0⟩
          { w with mutexTaken := true }
  | _, _ => .ok (.errorPtr, w)

/-! ## What the RTCP functions write -/

/-- Bytes of the sender report. -/
def rtcpSrBytes (session : Session) : Bytes :=
  [rtcpHeaderInfoVersion, rtcpHeaderTypeSr] ++ beU16 7 ++
    (beU32 session.ssrc ++ beU32 session.ntpMsw ++ beU32 session.ntpLsw ++
      beU32 session.rtpTimestamp ++ beU32 session.packetCount ++
      beU32 session.octetCount)

/-- Bytes of the source description up to the end of the name. -/
def rtcpSdesNamed (sender : Sender) (session : Session) : Bytes :=
  [rtcpHeaderInfoVersion ||| 1, rtcpHeaderTypeSdes] ++
    beU16 (UInt16.ofNat (u32Align (11 + sender.cname.length) / 4)) ++
    (beU32 session.ssrc ++ [rtcpSdesTypeCname, sender.cnameSize]) ++
    sender.cname

/-- Bytes of the source description: the byte behind the name keeps its
initial zero and zeros follow up to the next word. -/
def rtcpSdesBytes (sender : Sender) (session : Session) : Bytes :=
  rtcpSdesNamed sender session ++
    List.replicate
      (u32Align (11 + sender.cname.length) - (10 + sender.cname.length)) 0

theorem length_rtcpSrBytes (session : Session) :
    (rtcpSrBytes session).length = 28 := rfl

theorem length_rtcpSdesNamed (sender : Sender) (session : Session) :
    (rtcpSdesNamed sender session).length = 10 + sender.cname.length := by
  simp [rtcpSdesNamed]
  omega

theorem le_u32Align (x : ℕ) : x ≤ u32Align x := by
  unfold u32Align
  omega

/-- The longest name fills the packet behind the sender report. -/
theorem u32Align_cname_le (sender : Sender) :
    u32Align (11 + sender.cname.length) ≤ 44 := by
  have hle := sender.cname_le
  simp only [rtpCnameMaxSize] at hle
  unfold u32Align
  omega

theorem length_rtcpSdesBytes (sender : Sender) (session : Session) :
    (rtcpSdesBytes sender session).length =
      u32Align (11 + sender.cname.length) := by
  have hle := le_u32Align (11 + sender.cname.length)
  simp only [rtcpSdesBytes, List.length_append, length_rtcpSdesNamed,
    List.length_replicate]
  omega

theorem w6xRtcpAppendPacketSr_eq (session : Session) (pre : Bytes) {m : ℕ}
    (hm : 28 ≤ m) :
    w6xRtcpAppendPacketSr session (pre ++ List.replicate m 0) pre.length =
      .ok (.ok, pre ++ rtcpSrBytes session ++ List.replicate (m - 28) 0,
        (pre ++ rtcpSrBytes session).length) := by
  have hroom : subSize (pre ++ List.replicate m (0 : UInt8)).length
      pre.length = .ok m := by
    simp [subSize]
  have hsize : u32Align (rtcpPktHeaderSize + rtcpPktSrSize) = 28 := rfl
  have hwrite := copyIn_replicate pre (rtcpSrBytes session) (m := m) hm
  have hpad := copyIn_replicate (pre ++ rtcpSrBytes session) [] (m := m - 28)
    (Nat.zero_le _)
  have hlen : (pre ++ rtcpSrBytes session).length = pre.length + 28 := by
    simp [length_rtcpSrBytes]
  rw [hlen] at hpad
  simp only [w6xRtcpAppendPacketSr, hroom, hsize, ok_bind,
    if_neg (Nat.not_lt.mpr hm), leU16_bswap16, leU32_bswap32]
  change (copyIn _ pre.length (rtcpSrBytes session) >>= _) = _
  rw [hwrite]
  change (copyIn _ (pre.length + 28) [] >>= _) = _
  rw [show (rtcpSrBytes session).length = 28 from rfl, hpad, hlen]
  simp [rtcpPktHeaderSize, rtcpPktSrSize]

theorem w6xRtcpAppendPacketSdes_eq (sender : Sender) (session : Session)
    (pre : Bytes) {m : ℕ} (hm : u32Align (11 + sender.cname.length) ≤ m) :
    w6xRtcpAppendPacketSdes sender session (pre ++ List.replicate m 0)
        pre.length =
      .ok (.ok, pre ++ rtcpSdesBytes sender session ++
          List.replicate (m - u32Align (11 + sender.cname.length)) 0,
        (pre ++ rtcpSdesBytes sender session).length) := by
  set n := sender.cname.length with hn
  have hroom : subSize (pre ++ List.replicate m (0 : UInt8)).length
      pre.length = .ok m := by
    simp [subSize]
  have hsize : rtcpPktHeaderSize + rtcpPktSdesChunkSize + n - 1 = 11 + n := by
    simp only [rtcpPktHeaderSize, rtcpPktSdesChunkSize]
    omega
  have halign := le_u32Align (11 + n)
  have hnamed : (rtcpSdesNamed sender session).length = 10 + n :=
    length_rtcpSdesNamed sender session
  have hwrite := copyIn_replicate pre (rtcpSdesNamed sender session) (m := m)
    (by omega)
  -- The terminator behind the name is a zero that was in the buffer before.
  have hzero : List.replicate (m - (10 + n)) (0 : UInt8) =
      [0] ++ List.replicate (m - (11 + n)) 0 := by
    rw [show m - (10 + n) = (m - (11 + n)) + 1 by omega]
    rfl
  have hpad := copyIn_replicate (pre ++ rtcpSdesNamed sender session ++ [0])
    (List.replicate (u32Align (11 + n) - (11 + n)) 0) (m := m - (11 + n))
    (by simp only [List.length_replicate]; omega)
  have hlen : (pre ++ rtcpSdesNamed sender session ++ [0]).length =
      pre.length + (11 + n) := by
    simp only [List.length_append, hnamed, List.length_singleton]
    omega
  have hbytes : rtcpSdesBytes sender session =
      rtcpSdesNamed sender session ++ [0] ++
        List.replicate (u32Align (11 + n) - (11 + n)) 0 := by
    rw [rtcpSdesBytes, List.append_assoc, ← hn]
    rw [show u32Align (11 + n) - (10 + n) =
      (u32Align (11 + n) - (11 + n)) + 1 by omega]
    rfl
  rw [hlen] at hpad
  rw [w6xRtcpAppendPacketSdes, sender.toNat_cnameSize, ← hn, hsize, hroom]
  simp only [ok_bind, if_neg (Nat.not_lt.mpr hm), leU16_bswap16,
    leU32_bswap32]
  rw [hn, copyOut_all, ← hn]
  change (copyIn _ pre.length (rtcpSdesNamed sender session) >>= _) = _
  rw [hwrite, hnamed, hzero, ← List.append_assoc]
  change (copyIn _ (pre.length + (11 + n)) _ >>= _) = _
  rw [show rtcpPadValue = (0 : UInt8) from rfl, hpad, hbytes]
  simp only [ok_bind, pure_eq_ok, List.length_append, List.length_replicate,
    hnamed, List.append_assoc, List.length_singleton]
  rw [show m - (11 + n) - (u32Align (11 + n) - (11 + n)) =
    m - u32Align (11 + n) by omega]
  congr 3
  omega

/-- The compound packet of a report. -/
def rtcpCompound (sender : Sender) (session : Session) : Bytes :=
  rtcpSrBytes session ++ rtcpSdesBytes sender session

/-- A report is due when none was sent yet or the last one is at least
`rtcpInterval` ticks old. -/
def RtcpDue (session : Session) (timestamp : UInt32) : Prop :=
  session.rtcpTimestamp ≠ 0 →
    ¬ timestamp - session.rtcpTimestamp < rtcpInterval

instance (session : Session) (timestamp : UInt32) :
    Decidable (RtcpDue session timestamp) :=
  inferInstanceAs (Decidable (_ → _))

theorem w6xRtcpSendPacket_of_not_due {platform : Platform} {sender : Sender}
    {w : World}
    (hdue : ¬ RtcpDue w.session (platform.xTaskGetTickCount w.tickCalls)) :
    w6xRtcpSendPacket platform sender w =
      .ok (.ok, { w with tickCalls := w.tickCalls + 1 }) := by
  simp only [RtcpDue, Classical.not_imp, not_not] at hdue
  simp [w6xRtcpSendPacket, xTaskGetTickCount, hdue]

/-- A report that is due gives the compound of SR and SDES to the RTCP socket;
no buffer limit is hit on the way. -/
theorem w6xRtcpSendPacket_of_due {platform : Platform} {sender : Sender}
    {w : World}
    (hdue : RtcpDue w.session (platform.xTaskGetTickCount w.tickCalls)) :
    w6xRtcpSendPacket platform sender w =
      .ok (if platform.socketSendto w.sends.length < 0 then
          (.errorSocket, { w with
            tickCalls := w.tickCalls + 1
            sends := w.sends ++ [⟨sender.rtcpSocket,
              rtcpCompound sender w.session, w.session.clientRtcp⟩] })
        else
          (.ok, { w with
            tickCalls := w.tickCalls + 1
            sends := w.sends ++ [⟨sender.rtcpSocket,
              rtcpCompound sender w.session, w.session.clientRtcp⟩]
            session.rtcpTimestamp :=
              platform.xTaskGetTickCount w.tickCalls })) := by
  have hm := u32Align_cname_le sender
  have hsr : w6xRtcpAppendPacketSr w.session (List.replicate 72 0) 0 =
      .ok (.ok, rtcpSrBytes w.session ++ List.replicate 44 0,
        (rtcpSrBytes w.session).length) :=
    w6xRtcpAppendPacketSr_eq w.session [] (m := 72) (by omega)
  have hsdes := w6xRtcpAppendPacketSdes_eq sender w.session
    (rtcpSrBytes w.session) hm
  have hdata := copyOut_append [] (rtcpCompound sender w.session)
    (List.replicate (44 - u32Align (11 + sender.cname.length)) 0)
  have hwait : ¬ (w.session.rtcpTimestamp ≠ 0 ∧
      platform.xTaskGetTickCount w.tickCalls - w.session.rtcpTimestamp <
        rtcpInterval) := fun h => hdue h.1 h.2
  simp only [w6xRtcpSendPacket, xTaskGetTickCount, hwait, if_false,
    show rtcpPacketSize = 72 from rfl, hsr, ok_bind, hsdes, ne_eq,
    not_true_eq_false]
  simp only [List.nil_append, List.length_nil, rtcpCompound] at hdata
  simp only [hdata, ok_bind, socketSendto]
  by_cases hstatus : platform.socketSendto w.sends.length < 0
  · simp [hstatus, rtcpCompound]
  · simp [hstatus, rtcpCompound]

/-! ## Totality and frame of the send functions -/

/-- Every socket send succeeds. -/
def AllSent (platform : Platform) : Prop :=
  ∀ n, 0 ≤ platform.socketSendto n

theorem allSent_platformOk : AllSent platformOk := fun _ => le_rfl

/-- What sending leaves alone: the liveness of the session and the record of
NAL units. -/
structure World.Keeps (w w' : World) : Prop where
  id : w'.session.id = w.session.id
  nalUnits : w'.nalUnits = w.nalUnits

theorem World.Keeps.refl (w : World) : w.Keeps w := ⟨rfl, rfl⟩

theorem World.Keeps.trans {w₁ w₂ w₃ : World}
    (h₁₂ : w₁.Keeps w₂) (h₂₃ : w₂.Keeps w₃) : w₁.Keeps w₃ :=
  ⟨h₂₃.id.trans h₁₂.id, h₂₃.nalUnits.trans h₁₂.nalUnits⟩

theorem w6xRtcpSendPacket_total (platform : Platform) (sender : Sender)
    (w : World) :
    ∃ status w', w6xRtcpSendPacket platform sender w = .ok (status, w') ∧
      w.Keeps w' := by
  by_cases hdue : RtcpDue w.session (platform.xTaskGetTickCount w.tickCalls)
  · rw [w6xRtcpSendPacket_of_due hdue]
    by_cases hstatus : platform.socketSendto w.sends.length < 0
    · rw [if_pos hstatus]
      exact ⟨_, _, rfl, rfl, rfl⟩
    · rw [if_neg hstatus]
      exact ⟨_, _, rfl, rfl, rfl⟩
  · exact ⟨_, _, w6xRtcpSendPacket_of_not_due hdue, rfl, rfl⟩

theorem sendChunk_total (platform : Platform) (sender : Sender)
    (ntpMsw ntpLsw : UInt32) (marker : UInt8) (timestamp : UInt32)
    (payload : Bytes) (last : Bool) (w : World) :
    ∃ status w', sendChunk platform sender ntpMsw ntpLsw marker timestamp
        payload last w = .ok (status, w') ∧
      w.Keeps w' ∧ (AllSent platform → status = .ok) := by
  let stamped : World := { w with session := { w.session with
    rtpTimestamp := timestamp, ntpMsw := ntpMsw, ntpLsw := ntpLsw } }
  obtain ⟨_, w₁, hrtcp, hkeeps⟩ :=
    w6xRtcpSendPacket_total platform sender stamped
  simp only [sendChunk, socketSendto]
  change ∃ status w', (w6xRtcpSendPacket platform sender stamped >>= _) =
    _ ∧ _
  rw [hrtcp, ok_bind]
  by_cases hstatus : platform.socketSendto w₁.sends.length < 0
  · simp only [hstatus, if_true, pure_eq_ok]
    refine ⟨.errorSocket, _, rfl, ⟨hkeeps.id, hkeeps.nalUnits⟩, ?_⟩
    intro hsent
    exact absurd (hsent w₁.sends.length) (not_le.mpr hstatus)
  · simp only [hstatus, if_false, pure_eq_ok]
    exact ⟨.ok, _, rfl, ⟨hkeeps.id, hkeeps.nalUnits⟩, fun _ => rfl⟩

theorem sendIteration_total (platform : Platform) (sender : Sender)
    (data : Bytes) (ntpMsw ntpLsw : UInt32) (marker : UInt8) (pos : SendPos)
    (w : World) (hmore : pos.head < data.length) :
    ∃ status pos' w', sendIteration platform sender data ntpMsw ntpLsw marker
        pos w = .ok (status, pos', w') ∧
      w.Keeps w' ∧ (AllSent platform → status = .ok) := by
  have hsize : pos.head +
      min (data.length - pos.head) sender.rtpPayloadMaxSize ≤ data.length := by
    omega
  obtain ⟨status, w', hchunk, hkeeps, hok⟩ := sendChunk_total platform
    sender ntpMsw ntpLsw marker pos.timestamp
    ((data.drop pos.head).take
      (min (data.length - pos.head) sender.rtpPayloadMaxSize))
    (pos.head + min (data.length - pos.head) sender.rtpPayloadMaxSize ==
      data.length) w
  simp only [sendIteration, copyOut_of_le _ _ _ hsize, ok_bind, hchunk,
    pure_eq_ok]
  exact ⟨status, _, w', rfl, hkeeps, hok⟩

/-- The send loop returns for every data, leaves the mutex released, and
returns `ok` when every socket send succeeds. -/
theorem sendPacketLoop_total (platform : Platform) (sender : Sender)
    (data : Bytes) (ntpMsw ntpLsw : UInt32) (marker : UInt8)
    (pos : SendPos) (w : World) :
    ∃ status w', sendPacketLoop platform sender data ntpMsw ntpLsw marker
        pos w = .ok (status, w') ∧
      w.Keeps w' ∧ w'.mutexTaken = false ∧
      (AllSent platform → status = .ok) := by
  induction hrest : data.length - pos.head using Nat.strong_induction_on
    generalizing pos w with
  | _ rest ih =>
      rw [sendPacketLoop]
      by_cases hmore : pos.head < data.length
      · have hpos := sender.payload_pos
        obtain ⟨status, pos', w₁, hstep, hkeeps, hok⟩ := sendIteration_total
          platform sender data ntpMsw ntpLsw marker pos w hmore
        have hhead := sendIteration_head hstep
        rw [dif_pos hmore]
        split
        · next heq =>
            rw [hstep] at heq
            cases heq
        · next heq =>
            rw [hstep] at heq
            cases heq
            by_cases hstatus : status = .ok
            · rw [if_neg (not_not_intro hstatus)]
              obtain ⟨status', w', hloop, hkeeps', hmutex, hok'⟩ :=
                ih (data.length - pos'.head) (by omega) pos' w₁ rfl
              exact ⟨status', w', hloop, hkeeps.trans hkeeps', hmutex, hok'⟩
            · rw [if_pos hstatus]
              exact ⟨status, _, rfl, ⟨hkeeps.id, hkeeps.nalUnits⟩, rfl, hok⟩
      · rw [dif_neg hmore]
        exact ⟨.ok, _, rfl, ⟨rfl, rfl⟩, rfl, fun _ => rfl⟩

/-- A call on a live session returns, with `ok` when every socket send
succeeds. -/
theorem w6xRtpSenderSessionSendPacket_total (platform : Platform)
    (sender : Sender) (data : Bytes) (timestamp ntpMsw ntpLsw : UInt32)
    (marker : UInt8) {w : World} (hid : w.session.id = rtpSessionId) :
    ∃ status w', w6xRtpSenderSessionSendPacket platform (some sender)
        (some data) timestamp ntpMsw ntpLsw marker w = .ok (status, w') ∧
      w.Keeps w' ∧ (AllSent platform → status = .ok) := by
  simp only [w6xRtpSenderSessionSendPacket, hid, ne_eq, not_true_eq_false,
    if_false]
  by_cases hempty : data.length = 0
  · rw [if_pos hempty]
    exact ⟨.ok, w, rfl, .refl w, fun _ => rfl⟩
  · rw [if_neg hempty]
    obtain ⟨status, w', hloop, hkeeps, -, hok⟩ := sendPacketLoop_total platform
      sender data ntpMsw ntpLsw marker ⟨timestamp, 0⟩
      { w with mutexTaken := true }
    exact ⟨status, w', hloop, ⟨hkeeps.id, hkeeps.nalUnits⟩, hok⟩

end RtpMulticast
