import RtpMulticast.Rtp.Sending

/-!
# The RTP packets of a call

What a receiver reads from the datagrams that
`w6x_rtp_sender_session_send_packet` gives to the RTP socket: marker, timestamp
and payload.  The loop cuts the data into chunks; the packets of a call are the
packets of these chunks, up to the first one that the socket refuses.
-/

namespace RtpMulticast

open ByteBuffer

/-! ## Reading datagrams -/

structure RtpPacket where
  marker : Bool
  timestamp : UInt32
  payload : Bytes
  deriving DecidableEq, Repr

/-- The fields of an RTP datagram without CSRC list and extension. -/
def readRtpPacket (datagram : Bytes) : RtpPacket where
  marker := datagram.getD 1 0 &&& rtpHeaderMarker != 0
  timestamp := beWord datagram 4
  payload := datagram.drop rtpPktHeaderSize

/-- The packets among the socket calls, those to the RTP socket. -/
def rtpPackets (sender : Sender) (sends : List SendCall) : List RtpPacket :=
  (sends.filter fun call => call.socket = sender.rtpSocket).map fun call =>
    readRtpPacket call.packet

/-- The packets given to the RTP socket between two states. -/
def rtpPacketsBetween (sender : Sender) (w w' : World) : List RtpPacket :=
  rtpPackets sender (w'.sends.drop w.sends.length)

@[simp] theorem rtpPackets_append (sender : Sender) (sends sends' : List SendCall) :
    rtpPackets sender (sends ++ sends') =
      rtpPackets sender sends ++ rtpPackets sender sends' := by
  simp [rtpPackets]

theorem or_marker_and_marker (b : UInt8) :
    (b ||| rtpHeaderMarker) &&& rtpHeaderMarker = rtpHeaderMarker := by
  revert b
  refine forall_byte ?_
  decide

theorem payloadType_and_marker (b : UInt8) (h : b.toUInt16 ≤ rtpPayloadMaxType) :
    b &&& rtpHeaderMarker = 0 := by
  revert b
  refine forall_byte ?_
  decide

/-- The marker of a packet is set on the last one of the data, or on every one
of a session in sample mode. -/
def packetMarker (session : Session) (marker : UInt8) (last : Bool) : Bool :=
  (session.sampleFactor != 0 || last) && marker != 0

theorem readRtpPacket_rtpPktHeader (session : Session) (timestamp : UInt32)
    (marker : UInt8) (last : Bool) (payload : Bytes)
    (htype : session.payloadType.toUInt16 ≤ rtpPayloadMaxType) :
    readRtpPacket (rtpPktHeader session timestamp marker last ++ payload) =
      ⟨packetMarker session marker last, timestamp, payload⟩ := by
  have hclear := payloadType_and_marker session.payloadType htype
  have hset := or_marker_and_marker session.payloadType
  have hword : beWord (rtpPktHeader session timestamp marker last ++ payload) 4 =
      timestamp := by
    simp only [rtpPktHeader, leU16_bswap16, leU32_bswap32]
    exact u32OfBytes_byteOf timestamp
  have hbyte : (rtpPktHeader session timestamp marker last ++ payload).getD 1 0 =
      if session.sampleFactor ≠ 0 ∨ last = true then
        session.payloadType ||| (if marker ≠ 0 then rtpHeaderMarker else 0)
      else session.payloadType := rfl
  have hmarker : ((rtpPktHeader session timestamp marker last ++
      payload).getD 1 0 &&& rtpHeaderMarker != 0) =
        packetMarker session marker last := by
    rw [hbyte, packetMarker]
    by_cases hlast : session.sampleFactor ≠ 0 ∨ last = true
    · by_cases hzero : marker = 0
      · simp [hlast, hzero, hclear]
      · have hone : (marker != 0) = true := bne_iff_ne.mpr hzero
        have hmask : (rtpHeaderMarker != 0) = true := rfl
        rw [if_pos hlast, if_pos hzero, hset, hmask, hone, Bool.and_true]
        rcases hlast with hfactor | hend
        · rw [bne_iff_ne.mpr hfactor, Bool.true_or]
        · rw [hend, Bool.or_true]
    · simp only [not_or, not_not, Bool.not_eq_true] at hlast
      simp [hlast, hclear]
  rw [readRtpPacket, hmarker, hword]
  rfl

/-! ## Segments -/

/-- Between `w` and `w'` exactly `packets` were given to the RTP socket, and
the fields of the session that steer the sending are as they were. -/
structure Emits (sender : Sender) (packets : List RtpPacket) (w w' : World) :
    Prop where
  sends : ∃ new, w'.sends = w.sends ++ new ∧ rtpPackets sender new = packets
  keeps : w.Keeps w'
  payloadType : w'.session.payloadType = w.session.payloadType
  sampleFactor : w'.session.sampleFactor = w.session.sampleFactor

theorem Emits.nil (sender : Sender) {w w' : World} (hsends : w'.sends = w.sends)
    (hkeeps : w.Keeps w')
    (htype : w'.session.payloadType = w.session.payloadType)
    (hfactor : w'.session.sampleFactor = w.session.sampleFactor) :
    Emits sender [] w w' :=
  ⟨⟨[], by simpa using hsends, rfl⟩, hkeeps, htype, hfactor⟩

theorem Emits.refl (sender : Sender) (w : World) : Emits sender [] w w :=
  .nil sender rfl (.refl w) rfl rfl

theorem Emits.append {sender : Sender} {packets packets' : List RtpPacket}
    {w w' w'' : World} (h : Emits sender packets w w')
    (h' : Emits sender packets' w' w'') :
    Emits sender (packets ++ packets') w w'' := by
  obtain ⟨new, hsends, hpackets⟩ := h.sends
  obtain ⟨new', hsends', hpackets'⟩ := h'.sends
  refine ⟨⟨new ++ new', ?_, ?_⟩, h.keeps.trans h'.keeps,
    h'.payloadType.trans h.payloadType, h'.sampleFactor.trans h.sampleFactor⟩
  · rw [hsends', hsends, List.append_assoc]
  · rw [rtpPackets_append, hpackets, hpackets']

theorem Emits.between {sender : Sender} {packets : List RtpPacket}
    {w w' : World} (h : Emits sender packets w w') :
    rtpPacketsBetween sender w w' = packets := by
  obtain ⟨new, hsends, hpackets⟩ := h.sends
  rw [rtpPacketsBetween, hsends, List.drop_left, hpackets]

/-- What a session offers to a call that emits packets. -/
structure Sendable (w : World) : Prop where
  id : w.session.id = rtpSessionId
  payloadType : w.session.payloadType.toUInt16 ≤ rtpPayloadMaxType

theorem Emits.sendable {sender : Sender} {packets : List RtpPacket}
    {w w' : World} (h : Emits sender packets w w') (hw : Sendable w) :
    Sendable w' :=
  ⟨h.keeps.id.trans hw.id, h.payloadType ▸ hw.payloadType⟩

/-! ## The chunks of the data -/

/-- The packets of `data` in chunks of `limit` bytes.  In sample mode the
timestamp moves on by the samples that a whole number of factors fits into a
chunk. -/
def chunkPackets (sampleFactor : UInt32) (limit : ℕ) (marker : UInt8)
    (timestamp : UInt32) (data : Bytes) : List RtpPacket :=
  if _h : data = [] ∨ limit = 0 then []
  else
    ⟨(sampleFactor != 0 || (data.drop limit).isEmpty) && marker != 0,
      timestamp, data.take limit⟩ ::
      chunkPackets sampleFactor limit marker
        (if sampleFactor ≠ 0 then
          timestamp + UInt32.ofNat (limit / sampleFactor.toNat)
        else timestamp) (data.drop limit)
termination_by data.length
decreasing_by
  rw [not_or] at _h
  have hpos : 0 < data.length := List.length_pos_iff.mpr _h.1
  rw [List.length_drop]
  omega

theorem chunkPackets_nil (sampleFactor : UInt32) (limit : ℕ) (marker : UInt8)
    (timestamp : UInt32) :
    chunkPackets sampleFactor limit marker timestamp [] = [] := by
  rw [chunkPackets, dif_pos (Or.inl rfl)]

theorem chunkPackets_cons {sampleFactor : UInt32} {limit : ℕ} {marker : UInt8}
    {timestamp : UInt32} {data : Bytes} (hdata : data ≠ []) (hlimit : 0 < limit) :
    chunkPackets sampleFactor limit marker timestamp data =
      ⟨(sampleFactor != 0 || (data.drop limit).isEmpty) && marker != 0,
        timestamp, data.take limit⟩ ::
        chunkPackets sampleFactor limit marker
          (if sampleFactor ≠ 0 then
            timestamp + UInt32.ofNat (limit / sampleFactor.toNat)
          else timestamp) (data.drop limit) := by
  rw [chunkPackets, dif_neg]
  rw [not_or]
  exact ⟨hdata, by omega⟩

/-- The packets behind a chunk; the timestamp does not matter behind the last
one. -/
theorem chunkPackets_behind {sampleFactor : UInt32} {limit : ℕ} {marker : UInt8}
    {timestamp timestamp' : UInt32} {data : Bytes} {head head' : ℕ}
    (hhead : head' = head + min (data.length - head) limit)
    (htime : head' < data.length → timestamp' = timestamp) :
    chunkPackets sampleFactor limit marker timestamp' (data.drop head') =
      chunkPackets sampleFactor limit marker timestamp
        ((data.drop head).drop limit) := by
  rw [List.drop_drop]
  by_cases hend : head' < data.length
  · have hfull : head' = head + limit := by omega
    rw [htime hend, hfull]
  · have hnil : data.drop head' = [] := by
      rw [List.drop_eq_nil_iff]
      omega
    have hnil' : data.drop (head + limit) = [] := by
      rw [List.drop_eq_nil_iff]
      omega
    rw [hnil, hnil', chunkPackets_nil, chunkPackets_nil]

/-- Data that fits into one packet. -/
theorem chunkPackets_single {sampleFactor : UInt32} {limit : ℕ} {marker : UInt8}
    {timestamp : UInt32} {data : Bytes} (hdata : data ≠ [])
    (hfits : data.length ≤ limit) :
    chunkPackets sampleFactor limit marker timestamp data =
      [⟨marker != 0, timestamp, data⟩] := by
  have hpos : 0 < data.length := List.length_pos_iff.mpr hdata
  have hdrop : data.drop limit = [] := List.drop_eq_nil_iff.mpr hfits
  rw [chunkPackets_cons hdata (by omega), hdrop, chunkPackets_nil,
    List.take_of_length_le hfits]
  simp

/-! ## The packets of one call -/

section Call

variable (platform : Platform) (sender : Sender)

/-- Reports go to the RTCP socket. -/
theorem w6xRtcpSendPacket_emits
    (hsockets : sender.rtcpSocket ≠ sender.rtpSocket) (w : World) :
    ∃ status w', w6xRtcpSendPacket platform sender w = .ok (status, w') ∧
      Emits sender [] w w' ∧ w'.session.clientRtp = w.session.clientRtp := by
  by_cases hdue : RtcpDue w.session (platform.xTaskGetTickCount w.tickCalls)
  · have hnone : rtpPackets sender [⟨sender.rtcpSocket,
        rtcpCompound sender w.session, w.session.clientRtcp⟩] = [] := by
      simp [rtpPackets, hsockets]
    rw [w6xRtcpSendPacket_of_due hdue]
    by_cases hstatus : platform.socketSendto w.sends.length < 0
    · rw [if_pos hstatus]
      exact ⟨_, _, rfl, ⟨⟨_, rfl, hnone⟩, ⟨rfl, rfl⟩, rfl, rfl⟩, rfl⟩
    · rw [if_neg hstatus]
      exact ⟨_, _, rfl, ⟨⟨_, rfl, hnone⟩, ⟨rfl, rfl⟩, rfl, rfl⟩, rfl⟩
  · exact ⟨_, _, w6xRtcpSendPacket_of_not_due hdue,
      .nil sender rfl ⟨rfl, rfl⟩ rfl rfl, rfl⟩

/-- A chunk is one packet, whether the socket accepts it or not. -/
theorem sendChunk_emits (hsockets : sender.rtcpSocket ≠ sender.rtpSocket)
    (ntpMsw ntpLsw : UInt32) (marker : UInt8) (timestamp : UInt32)
    (payload : Bytes) (last : Bool) {w : World} (hw : Sendable w) :
    ∃ status w', sendChunk platform sender ntpMsw ntpLsw marker timestamp
        payload last w = .ok (status, w') ∧
      Emits sender
        [⟨packetMarker w.session marker last, timestamp, payload⟩] w w' ∧
      (AllSent platform → status = .ok) := by
  let stamped : World := { w with session := { w.session with
    rtpTimestamp := timestamp, ntpMsw := ntpMsw, ntpLsw := ntpLsw } }
  obtain ⟨status, w₁, hrtcp, hemits, hclient⟩ :=
    w6xRtcpSendPacket_emits platform sender hsockets stamped
  have hfirst : Emits sender [] w w₁ :=
    ⟨hemits.sends, ⟨hemits.keeps.id, hemits.keeps.nalUnits⟩,
      hemits.payloadType, hemits.sampleFactor⟩
  have hpacket : ∀ dest, rtpPackets sender [⟨sender.rtpSocket,
      rtpPktHeader w.session timestamp marker last ++ payload, dest⟩] =
        [⟨packetMarker w.session marker last, timestamp, payload⟩] := by
    intro dest
    simp [rtpPackets, readRtpPacket_rtpPktHeader _ _ _ _ _ hw.payloadType]
  simp only [sendChunk, socketSendto]
  change ∃ status w', (w6xRtcpSendPacket platform sender stamped >>= _) = _ ∧ _
  rw [hrtcp, ok_bind]
  by_cases hstatus : platform.socketSendto w₁.sends.length < 0
  · simp only [hstatus, if_true, pure_eq_ok]
    refine ⟨.errorSocket, _, rfl, ?_, ?_⟩
    · exact hfirst.append ⟨⟨_, rfl, hpacket _⟩, ⟨rfl, rfl⟩, rfl, rfl⟩
    · intro hsent
      exact absurd (hsent w₁.sends.length) (not_le.mpr hstatus)
  · simp only [hstatus, if_false, pure_eq_ok]
    refine ⟨.ok, _, rfl, ?_, fun _ => rfl⟩
    exact hfirst.append ⟨⟨_, rfl, hpacket _⟩, ⟨rfl, rfl⟩, rfl, rfl⟩

variable (data : Bytes) (ntpMsw ntpLsw : UInt32) (marker : UInt8)

theorem sendIteration_emits (hsockets : sender.rtcpSocket ≠ sender.rtpSocket)
    (pos : SendPos) {w : World} (hw : Sendable w)
    (hmore : pos.head < data.length) :
    ∃ status pos' w', sendIteration platform sender data ntpMsw ntpLsw marker
        pos w = .ok (status, pos', w') ∧
      Emits sender
        [⟨packetMarker w.session marker
            ((data.drop pos.head).drop sender.rtpPayloadMaxSize).isEmpty,
          pos.timestamp,
          (data.drop pos.head).take sender.rtpPayloadMaxSize⟩] w w' ∧
      (AllSent platform → status = .ok) ∧
      (pos'.head < data.length → pos'.timestamp =
        if w.session.sampleFactor ≠ 0 then pos.timestamp +
          UInt32.ofNat (sender.rtpPayloadMaxSize / w.session.sampleFactor.toNat)
        else pos.timestamp) := by
  have hsize : pos.head +
      min (data.length - pos.head) sender.rtpPayloadMaxSize ≤ data.length := by
    omega
  have htake : (data.drop pos.head).take
      (min (data.length - pos.head) sender.rtpPayloadMaxSize) =
        (data.drop pos.head).take sender.rtpPayloadMaxSize := by
    rw [List.take_eq_take_min (i := sender.rtpPayloadMaxSize),
      List.length_drop, min_comm]
  have hlast : (pos.head +
      min (data.length - pos.head) sender.rtpPayloadMaxSize == data.length) =
        ((data.drop pos.head).drop sender.rtpPayloadMaxSize).isEmpty := by
    rw [Bool.eq_iff_iff, beq_iff_eq, List.isEmpty_iff, List.drop_drop,
      List.drop_eq_nil_iff]
    omega
  obtain ⟨status, w', hchunk, hemits, hok⟩ := sendChunk_emits platform sender
    hsockets ntpMsw ntpLsw marker pos.timestamp
    ((data.drop pos.head).take
      (min (data.length - pos.head) sender.rtpPayloadMaxSize))
    (pos.head + min (data.length - pos.head) sender.rtpPayloadMaxSize ==
      data.length) hw
  simp only [sendIteration, copyOut_of_le _ _ _ hsize, ok_bind, hchunk,
    pure_eq_ok]
  rw [hlast, htake] at hemits
  refine ⟨status, _, w', rfl, hemits, hok, ?_⟩
  intro hnext
  simp only at hnext ⊢
  have hfull : min (data.length - pos.head) sender.rtpPayloadMaxSize =
      sender.rtpPayloadMaxSize := by omega
  rw [hfull] at hnext ⊢
  simp only [hemits.sampleFactor, hnext, and_true]

/-- The loop emits the packets of the chunks in order, up to the first one
that is refused. -/
theorem sendPacketLoop_emits (hsockets : sender.rtcpSocket ≠ sender.rtpSocket)
    (pos : SendPos) {w : World} (hw : Sendable w) :
    ∃ status w' packets, sendPacketLoop platform sender data ntpMsw ntpLsw
        marker pos w = .ok (status, w') ∧
      Emits sender packets w w' ∧
      packets <+: chunkPackets w.session.sampleFactor sender.rtpPayloadMaxSize
        marker pos.timestamp (data.drop pos.head) ∧
      (status = .ok → packets = chunkPackets w.session.sampleFactor
        sender.rtpPayloadMaxSize marker pos.timestamp (data.drop pos.head)) ∧
      (AllSent platform → status = .ok) := by
  induction hrest : data.length - pos.head using Nat.strong_induction_on
    generalizing pos w with
  | _ rest ih =>
      rw [sendPacketLoop]
      by_cases hmore : pos.head < data.length
      · have hpos := sender.payload_pos
        have hdata : data.drop pos.head ≠ [] := by
          rw [ne_eq, List.drop_eq_nil_iff]
          omega
        obtain ⟨status, pos', w₁, hstep, hemits, hok, htime⟩ :=
          sendIteration_emits platform sender data ntpMsw ntpLsw marker
            hsockets pos hw hmore
        have hhead := sendIteration_head hstep
        rw [dif_pos hmore]
        split
        · next heq =>
            rw [hstep] at heq
            cases heq
        · next heq =>
            rw [hstep] at heq
            cases heq
            rw [chunkPackets_cons hdata hpos]
            by_cases hstatus : status = .ok
            · obtain ⟨status', w', packets, hloop, hemits', hprefix, hwhole,
                hok'⟩ := ih (data.length - pos'.head) (by omega) pos'
                  (hemits.sendable hw) rfl
              rw [hemits.sampleFactor, chunkPackets_behind hhead htime]
                at hprefix hwhole
              rw [if_neg (not_not_intro hstatus)]
              refine ⟨status', w', _, hloop, hemits.append hemits', ?_, ?_,
                hok'⟩
              · exact List.cons_prefix_cons.mpr ⟨rfl, hprefix⟩
              · intro hfinal
                rw [hwhole hfinal]
                rfl
            · rw [if_pos hstatus]
              refine ⟨status, _, _, rfl, ⟨hemits.sends, ?_, hemits.payloadType,
                hemits.sampleFactor⟩, ?_, ?_, hok⟩
              · exact ⟨hemits.keeps.id, hemits.keeps.nalUnits⟩
              · exact List.cons_prefix_cons.mpr ⟨rfl, List.nil_prefix⟩
              · intro hfinal
                exact absurd hfinal hstatus
      · have hnil : data.drop pos.head = [] := by
          rw [List.drop_eq_nil_iff]
          omega
        rw [dif_neg hmore, hnil, chunkPackets_nil]
        exact ⟨.ok, _, [], rfl, .nil sender rfl ⟨rfl, rfl⟩ rfl rfl,
          List.nil_prefix, fun _ => rfl, fun _ => rfl⟩

/-- A call on a live session emits the packets of its data, all of them when it
returns `ok`. -/
theorem w6xRtpSenderSessionSendPacket_emits
    (hsockets : sender.rtcpSocket ≠ sender.rtpSocket) (timestamp : UInt32)
    {w : World} (hw : Sendable w) :
    ∃ status w' packets, w6xRtpSenderSessionSendPacket platform (some sender)
        (some data) timestamp ntpMsw ntpLsw marker w = .ok (status, w') ∧
      Emits sender packets w w' ∧
      packets <+: chunkPackets w.session.sampleFactor sender.rtpPayloadMaxSize
        marker timestamp data ∧
      (status = .ok → packets = chunkPackets w.session.sampleFactor
        sender.rtpPayloadMaxSize marker timestamp data) ∧
      (AllSent platform → status = .ok) := by
  simp only [w6xRtpSenderSessionSendPacket, hw.id, ne_eq, not_true_eq_false,
    if_false]
  by_cases hempty : data.length = 0
  · obtain rfl := List.length_eq_zero_iff.mp hempty
    rw [if_pos hempty, chunkPackets_nil]
    exact ⟨.ok, w, [], rfl, .refl sender w, List.nil_prefix, fun _ => rfl,
      fun _ => rfl⟩
  · rw [if_neg hempty]
    obtain ⟨status, w', packets, hloop, hemits, hprefix, hwhole, hok⟩ :=
      sendPacketLoop_emits platform sender data ntpMsw ntpLsw marker hsockets
        ⟨timestamp, 0⟩ (w := { w with mutexTaken := true })
        ⟨hw.id, hw.payloadType⟩
    exact ⟨status, w', packets, hloop,
      ⟨hemits.sends, ⟨hemits.keeps.id, hemits.keeps.nalUnits⟩,
        hemits.payloadType, hemits.sampleFactor⟩, hprefix, hwhole, hok⟩

end Call

end RtpMulticast
