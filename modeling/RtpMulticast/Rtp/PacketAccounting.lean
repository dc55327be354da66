import RtpMulticast.Rtp.Sending

/-!
# Packet accounting

Calls of `w6x_rtp_sender_session_send_packet` on one session, one after the
other.  Every socket call of such a run carries an RTP packet or a compound of
sender report and source description; the trace says which, and whether the
socket accepted it.  Sequence number and counters of the session follow the RTP
packets that were accepted, across calls and failures.
-/

namespace RtpMulticast

open ByteBuffer

/-! ## Runs -/

/-- Arguments of one call and the sample factor set before it. -/
structure PacketCall where
  sampleFactor : UInt32
  data : Option Bytes
  timestamp : UInt32
  ntpMsw : UInt32
  ntpLsw : UInt32
  marker : UInt8
  deriving DecidableEq, Repr

def w6xRtpSenderSessionSetSampleFactor (factor : UInt32) (w : World) :
    RtpStatus × World :=
  if w.session.id ≠ rtpSessionId then (.errorParameters, w)
  else (.ok, { w with session.sampleFactor := factor })

/-- One call between the states before and after it. -/
structure CallRecord where
  call : PacketCall
  before : World
  status : RtpStatus
  after : World

/-- The calls one after the other, on a session of `sender`. -/
def sendCalls (platform : Platform) (sender : Sender) :
    List PacketCall → World → Except Fault (List CallRecord × World)
  | [], w => .ok ([], w)
  | call :: calls, w => do
      let (_, before) := w6xRtpSenderSessionSetSampleFactor call.sampleFactor w
      let (status, after) ← w6xRtpSenderSessionSendPacket platform
        (some sender) call.data call.timestamp call.ntpMsw call.ntpLsw
        call.marker before
      let (records, last) ← sendCalls platform sender calls after
      return (⟨call, before, status, after⟩ :: records, last)

/-! ## Traces -/

/-- What one socket call carries: a report on the session or an RTP packet. -/
inductive Emission where
  | rtcp (session : Session)
  | rtp (session : Session) (timestamp : UInt32) (marker : UInt8) (last : Bool)
      (payload : Bytes)
  deriving DecidableEq, Repr

def Emission.sendCall (sender : Sender) : Emission → SendCall
  | .rtcp session =>
      ⟨sender.rtcpSocket, rtcpCompound sender session, session.clientRtcp⟩
  | .rtp session timestamp marker last payload =>
      ⟨sender.rtpSocket,
        rtpPktHeader session timestamp marker last ++ payload,
        session.clientRtp⟩

/-- A socket call and whether it succeeded. -/
structure Attempt where
  emission : Emission
  sent : Bool
  deriving DecidableEq, Repr

/-- Sequence number and payload of an RTP packet that was sent. -/
def Attempt.packet : Attempt → Option (UInt16 × Bytes)
  | ⟨.rtp session _ _ _ payload, true⟩ =>
      some (session.sequenceNumber, payload)
  | _ => none

def sentPackets (trace : List Attempt) : List (UInt16 × Bytes) :=
  trace.filterMap Attempt.packet

/-- The payload bytes that were sent. -/
def sentBytes (trace : List Attempt) : Bytes :=
  ((sentPackets trace).map Prod.snd).flatten

/-- `trace` describes the socket calls made between `w` and `w'`. -/
structure Describes (platform : Platform) (sender : Sender)
    (trace : List Attempt) (w w' : World) : Prop where
  sends : w'.sends =
    w.sends ++ trace.map fun attempt => attempt.emission.sendCall sender
  outcomes : trace.map Attempt.sent =
    (List.range' w.sends.length trace.length).map fun n =>
      decide (0 ≤ platform.socketSendto n)

/-- The RTP packets sent are numbered consecutively from the session's sequence
number on, and every report counts the packets and octets sent before it, on
top of the session's counts. -/
structure Accounted (session : Session) (trace : List Attempt) : Prop where
  numbers : (sentPackets trace).map Prod.fst =
    (List.range (sentPackets trace).length).map fun i =>
      session.sequenceNumber + UInt16.ofNat i
  reports : ∀ before report sent after,
    trace = before ++ ⟨.rtcp report, sent⟩ :: after →
      report.packetCount =
          session.packetCount + UInt32.ofNat (sentPackets before).length ∧
        report.octetCount =
          session.octetCount + UInt32.ofNat (sentBytes before).length

/-- What one call with payloads of at most `limit` bytes has sent when it
returns `status`. -/
structure Delivered (limit : ℕ) (data : Option Bytes) (status : RtpStatus)
    (trace : List Attempt) : Prop where
  sizes : ∀ packet ∈ sentPackets trace,
    1 ≤ packet.2.length ∧ packet.2.length ≤ limit
  whole : status = .ok → data = some (sentBytes trace)
  upTo : status = .errorSocket → ∃ bytes head session timestamp marker last,
    data = some bytes ∧ head < bytes.length ∧
      sentBytes trace = bytes.take head ∧
      trace.getLast? = some ⟨.rtp session timestamp marker last
        ((bytes.drop head).take limit), false⟩
  nothing : status ≠ .ok → status ≠ .errorSocket → trace = []

/-! ## Segments of a run -/

@[simp] theorem sentPackets_append (trace trace' : List Attempt) :
    sentPackets (trace ++ trace') = sentPackets trace ++ sentPackets trace' := by
  simp [sentPackets]

@[simp] theorem sentBytes_append (trace trace' : List Attempt) :
    sentBytes (trace ++ trace') = sentBytes trace ++ sentBytes trace' := by
  simp [sentBytes]

theorem Describes.nil (platform : Platform) (sender : Sender) {w w' : World}
    (hsends : w'.sends = w.sends) : Describes platform sender [] w w' :=
  ⟨by simpa using hsends, rfl⟩

theorem Describes.append {platform : Platform} {sender : Sender}
    {trace trace' : List Attempt} {w w' w'' : World}
    (h : Describes platform sender trace w w')
    (h' : Describes platform sender trace' w' w'') :
    Describes platform sender (trace ++ trace') w w'' := by
  have hlen : w'.sends.length = w.sends.length + trace.length := by
    simp [h.sends]
  constructor
  · rw [h'.sends, h.sends, List.map_append, List.append_assoc]
  · rw [List.map_append, h.outcomes, h'.outcomes, hlen, ← List.map_append,
      List.range'_append_1, List.length_append]

/-- How the session stands after `trace`. -/
structure Advances (trace : List Attempt) (session session' : Session) :
    Prop where
  id : session'.id = session.id
  number : session'.sequenceNumber =
    session.sequenceNumber + UInt16.ofNat (sentPackets trace).length
  packets : session'.packetCount =
    session.packetCount + UInt32.ofNat (sentPackets trace).length
  octets : session'.octetCount =
    session.octetCount + UInt32.ofNat (sentBytes trace).length

theorem Advances.append {trace trace' : List Attempt}
    {session session' session'' : Session}
    (h : Advances trace session session')
    (h' : Advances trace' session' session'') :
    Advances (trace ++ trace') session session'' := by
  constructor
  · exact h'.id.trans h.id
  · rw [h'.number, h.number, sentPackets_append, List.length_append,
      UInt16.ofNat_add, UInt16.add_assoc]
  · rw [h'.packets, h.packets, sentPackets_append, List.length_append,
      UInt32.ofNat_add, UInt32.add_assoc]
  · rw [h'.octets, h.octets, sentBytes_append, List.length_append,
      UInt32.ofNat_add, UInt32.add_assoc]

theorem Accounted.append {trace trace' : List Attempt}
    {session session' : Session} (h : Accounted session trace)
    (hadvances : Advances trace session session')
    (h' : Accounted session' trace') : Accounted session (trace ++ trace') := by
  constructor
  · rw [sentPackets_append, List.map_append, h.numbers, h'.numbers,
      List.length_append, List.range_add, List.map_append, List.map_map]
    congr 1
    apply List.map_congr_left
    intro i _
    rw [hadvances.number, Function.comp_apply, UInt16.ofNat_add,
      UInt16.add_assoc]
  · intro before report sent after heq
    rcases List.append_eq_append_iff.mp heq with
      ⟨mid, hbefore, hrest⟩ | ⟨mid, htrace, hrest⟩
    · -- The report lies in the second segment.
      have hreport := h'.reports mid report sent after hrest
      rw [hbefore, sentPackets_append, sentBytes_append, List.length_append,
        List.length_append, UInt32.ofNat_add, UInt32.ofNat_add,
        ← UInt32.add_assoc, ← UInt32.add_assoc, ← hadvances.packets,
        ← hadvances.octets]
      exact hreport
    · cases mid with
      | nil =>
          have hreport := h'.reports [] report sent after (by simpa using hrest.symm)
          rw [List.append_nil] at htrace
          rw [← htrace, ← hadvances.packets, ← hadvances.octets]
          simpa [sentPackets, sentBytes] using hreport
      | cons attempt mid =>
          rw [List.cons_append, List.cons.injEq] at hrest
          exact h.reports before report sent mid (hrest.1 ▸ htrace)

/-- A segment of a run: its trace, and session counters that follow it. -/
structure Segment (platform : Platform) (sender : Sender)
    (trace : List Attempt) (w w' : World) : Prop where
  describes : Describes platform sender trace w w'
  advances : Advances trace w.session w'.session
  accounted : Accounted w.session trace

theorem Segment.append {platform : Platform} {sender : Sender}
    {trace trace' : List Attempt} {w w' w'' : World}
    (h : Segment platform sender trace w w')
    (h' : Segment platform sender trace' w' w'') :
    Segment platform sender (trace ++ trace') w w'' :=
  ⟨h.describes.append h'.describes, h.advances.append h'.advances,
    h.accounted.append h.advances h'.accounted⟩

/-! ## One payload -/

section Chunk

variable (platform : Platform) (sender : Sender)

/-- The outcome of the next socket call. -/
def nextSent (w : World) : Bool :=
  decide (0 ≤ platform.socketSendto w.sends.length)

theorem Describes.single (emission : Emission) {w w' : World}
    (hsends : w'.sends = w.sends ++ [emission.sendCall sender]) :
    Describes platform sender [⟨emission, nextSent platform w⟩] w w' := by
  constructor
  · simpa using hsends
  · simp [nextSent]

/-- Nothing is accounted for a segment without RTP packets. -/
theorem Advances.of_none {trace : List Attempt} {session session' : Session}
    (hnone : sentPackets trace = []) (hid : session'.id = session.id)
    (hnumber : session'.sequenceNumber = session.sequenceNumber)
    (hpackets : session'.packetCount = session.packetCount)
    (hoctets : session'.octetCount = session.octetCount) :
    Advances trace session session' := by
  constructor
  · exact hid
  · simpa [hnone] using hnumber
  · simpa [hnone] using hpackets
  · simpa [hnone, sentBytes] using hoctets

theorem Accounted.nil (session : Session) : Accounted session [] := by
  constructor
  · rfl
  · intro before report sent after heq
    simp at heq

/-- A report is accounted when it shows the session's own counts. -/
theorem Accounted.rtcp {session report : Session} (sent : Bool)
    (hpackets : report.packetCount = session.packetCount)
    (hoctets : report.octetCount = session.octetCount) :
    Accounted session [⟨.rtcp report, sent⟩] := by
  constructor
  · rfl
  · intro before report' sent' after heq
    obtain ⟨rfl, hcons⟩ := List.append_eq_singleton_iff.mp heq.symm |>.resolve_right
      (by rintro ⟨-, h⟩; cases h)
    cases hcons
    simpa [sentPackets, sentBytes] using ⟨hpackets, hoctets⟩

/-- An RTP packet is accounted when it has the session's own number. -/
theorem Accounted.rtp {session stamped : Session} (timestamp : UInt32)
    (marker : UInt8) (last : Bool) (payload : Bytes) (sent : Bool)
    (hnumber : stamped.sequenceNumber = session.sequenceNumber) :
    Accounted session [⟨.rtp stamped timestamp marker last payload, sent⟩] := by
  constructor
  · cases sent with
    | false => rfl
    | true => simp [sentPackets, Attempt.packet, hnumber]
  · intro before report' sent' after heq
    obtain ⟨rfl, hcons⟩ := List.append_eq_singleton_iff.mp heq.symm |>.resolve_right
      (by rintro ⟨-, h⟩; cases h)
    cases hcons

/-- A report adds one RTCP emission, or none when it is not due. -/
theorem w6xRtcpSendPacket_segment (w : World) :
    ∃ status w' trace,
      w6xRtcpSendPacket platform sender w = .ok (status, w') ∧
        Segment platform sender trace w w' ∧ sentPackets trace = [] ∧
        w'.session.clientRtp = w.session.clientRtp := by
  have hrtcp : Accounted w.session [⟨.rtcp w.session, nextSent platform w⟩] :=
    .rtcp _ rfl rfl
  by_cases hdue : RtcpDue w.session (platform.xTaskGetTickCount w.tickCalls)
  · have hstep := @w6xRtcpSendPacket_of_due platform sender w hdue
    by_cases hstatus : platform.socketSendto w.sends.length < 0
    · rw [if_pos hstatus] at hstep
      refine ⟨_, _, _, hstep, ⟨?_, ?_, hrtcp⟩, rfl, rfl⟩
      · exact .single platform sender (.rtcp w.session) rfl
      · exact .of_none rfl rfl rfl rfl rfl
    · rw [if_neg hstatus] at hstep
      refine ⟨_, _, _, hstep, ⟨?_, ?_, hrtcp⟩, rfl, rfl⟩
      · exact .single platform sender (.rtcp w.session) rfl
      · exact .of_none rfl rfl rfl rfl rfl
  · have hstep := @w6xRtcpSendPacket_of_not_due platform sender w hdue
    refine ⟨_, _, [], hstep, ?_, rfl, rfl⟩
    exact ⟨.nil platform sender rfl, .of_none rfl rfl rfl rfl rfl, .nil _⟩

/-- One payload is sent, or it is the last emission and was refused. -/
theorem sendChunk_segment (ntpMsw ntpLsw : UInt32) (marker : UInt8)
    (timestamp : UInt32) (payload : Bytes) (last : Bool) (w : World) :
    ∃ status w' trace,
      sendChunk platform sender ntpMsw ntpLsw marker timestamp payload last w =
        .ok (status, w') ∧
      Segment platform sender trace w w' ∧
      (status = .ok ∧ sentPackets trace = [(w.session.sequenceNumber, payload)] ∨
        status = .errorSocket ∧ sentPackets trace = [] ∧
          ∃ session, trace.getLast? =
            some ⟨.rtp session timestamp marker last payload, false⟩) := by
  let stamped : World := { w with session := { w.session with
    rtpTimestamp := timestamp, ntpMsw := ntpMsw, ntpLsw := ntpLsw } }
  obtain ⟨status, w₁, trace, hrtcp, hsegment, hnone, hclient⟩ :=
    w6xRtcpSendPacket_segment platform sender stamped
  -- The stamps are no counters, so the segment starts at `w` as well.
  have hfirst : Segment platform sender trace w w₁ :=
    ⟨⟨hsegment.describes.sends, hsegment.describes.outcomes⟩,
      ⟨hsegment.advances.id, hsegment.advances.number,
        hsegment.advances.packets, hsegment.advances.octets⟩,
      ⟨hsegment.accounted.numbers, hsegment.accounted.reports⟩⟩
  have hnumber : w.session.sequenceNumber = w₁.session.sequenceNumber := by
    simpa [hnone] using hfirst.advances.number.symm
  have haccounted : ∀ sent, Accounted w₁.session
      [⟨.rtp w.session timestamp marker last payload, sent⟩] :=
    fun sent => .rtp timestamp marker last payload sent hnumber
  have hclient₁ : w₁.session.clientRtp = w.session.clientRtp := hclient
  simp only [sendChunk, socketSendto]
  change ∃ status w' trace, (w6xRtcpSendPacket platform sender stamped >>= _) =
    _ ∧ _
  rw [hrtcp, ok_bind, hclient₁]
  by_cases hstatus : platform.socketSendto w₁.sends.length < 0
  · have hsent : nextSent platform w₁ = false := by
      simpa [nextSent] using hstatus
    simp only [hstatus, if_true, pure_eq_ok]
    refine ⟨_, _, _, rfl, hfirst.append ⟨?_, ?_, haccounted false⟩, ?_⟩
    · rw [← hsent]
      exact .single platform sender
        (.rtp w.session timestamp marker last payload) rfl
    · exact .of_none rfl rfl rfl rfl rfl
    · refine Or.inr ⟨rfl, ?_, w.session, ?_⟩
      · rw [sentPackets_append, hnone]
        rfl
      · exact List.getLast?_concat
  · have hsent : nextSent platform w₁ = true := by
      simpa [nextSent] using hstatus
    simp only [hstatus, if_false, pure_eq_ok]
    refine ⟨_, _, _, rfl, hfirst.append ⟨?_, ?_, haccounted true⟩, ?_⟩
    · rw [← hsent]
      exact .single platform sender
        (.rtp w.session timestamp marker last payload) rfl
    · constructor
      · rfl
      · rfl
      · rfl
      · simp [sentBytes, sentPackets, Attempt.packet]
    · refine Or.inl ⟨rfl, ?_⟩
      rw [sentPackets_append, hnone]
      rfl

end Chunk

/-! ## The send loop -/

section Loop

variable (platform : Platform) (sender : Sender) (data : Bytes)

/-- The payload at `head`. -/
def payloadAt (head : ℕ) : Bytes :=
  (data.drop head).take sender.rtpPayloadMaxSize

theorem payloadAt_eq (head : ℕ) :
    payloadAt sender data head =
      (data.drop head).take
        (min (data.length - head) sender.rtpPayloadMaxSize) := by
  rw [payloadAt, List.take_eq_take_min, List.length_drop, min_comm]

theorem length_payloadAt (head : ℕ) :
    (payloadAt sender data head).length =
      min sender.rtpPayloadMaxSize (data.length - head) := by
  rw [payloadAt, List.length_take, List.length_drop]

theorem payloadAt_append (head : ℕ) :
    payloadAt sender data head ++
        data.drop (head + min (data.length - head) sender.rtpPayloadMaxSize) =
      data.drop head := by
  rw [payloadAt_eq, ← List.drop_drop, List.take_append_drop]

theorem sendIteration_segment (ntpMsw ntpLsw : UInt32) (marker : UInt8)
    (pos : SendPos) (w : World) (hmore : pos.head < data.length) :
    ∃ status pos' w' trace,
      sendIteration platform sender data ntpMsw ntpLsw marker pos w =
        .ok (status, pos', w') ∧
      Segment platform sender trace w w' ∧
      (status = .ok ∧ sentPackets trace =
          [(w.session.sequenceNumber, payloadAt sender data pos.head)] ∨
        status = .errorSocket ∧ sentPackets trace = [] ∧
          ∃ session last, trace.getLast? =
            some ⟨.rtp session pos.timestamp marker last
              (payloadAt sender data pos.head), false⟩) := by
  have hsize : pos.head +
      min (data.length - pos.head) sender.rtpPayloadMaxSize ≤ data.length := by
    omega
  obtain ⟨status, w', trace, hchunk, hsegment, houtcome⟩ := sendChunk_segment
    platform sender ntpMsw ntpLsw marker pos.timestamp
    (payloadAt sender data pos.head)
    (pos.head + min (data.length - pos.head) sender.rtpPayloadMaxSize ==
      data.length) w
  rw [payloadAt_eq] at hchunk
  simp only [sendIteration, copyOut_of_le _ _ _ hsize, ok_bind, hchunk,
    pure_eq_ok]
  refine ⟨status, _, w', trace, rfl, hsegment, ?_⟩
  rcases houtcome with hok | ⟨hstatus, hnone, session, hlast⟩
  · exact Or.inl hok
  · exact Or.inr ⟨hstatus, hnone, session, _, hlast⟩

/-- What the loop sends from `head` on. -/
structure DeliveredFrom (head : ℕ) (status : RtpStatus)
    (trace : List Attempt) : Prop where
  returns : status = .ok ∨ status = .errorSocket
  sizes : ∀ packet ∈ sentPackets trace,
    1 ≤ packet.2.length ∧ packet.2.length ≤ sender.rtpPayloadMaxSize
  whole : status = .ok → sentBytes trace = data.drop head
  upTo : status = .errorSocket →
    ∃ stop session timestamp marker last, head ≤ stop ∧ stop < data.length ∧
      sentBytes trace = (data.drop head).take (stop - head) ∧
      trace.getLast? = some ⟨.rtp session timestamp marker last
        (payloadAt sender data stop), false⟩

/-- A payload that was sent is put in front of what the loop sends behind
it. -/
theorem DeliveredFrom.cons {sender : Sender} {data : Bytes} {head : ℕ}
    {status : RtpStatus} {first trace : List Attempt} {number : UInt16}
    (hmore : head < data.length)
    (hfirst : sentPackets first = [(number, payloadAt sender data head)])
    (h : DeliveredFrom sender data
      (head + min (data.length - head) sender.rtpPayloadMaxSize) status trace) :
    DeliveredFrom sender data head status (first ++ trace) := by
  have hpos := sender.payload_pos
  have hlen := length_payloadAt sender data head
  have hbytes : sentBytes first = payloadAt sender data head := by
    simp [sentBytes, hfirst]
  refine ⟨h.returns, ?_, ?_, ?_⟩
  · intro packet hmem
    rw [sentPackets_append, hfirst, List.singleton_append,
      List.mem_cons] at hmem
    rcases hmem with rfl | hmem
    · simp only [hlen]
      omega
    · exact h.sizes packet hmem
  · intro hok
    rw [sentBytes_append, hbytes, h.whole hok, payloadAt_append]
  · intro hsocket
    obtain ⟨stop, session, timestamp, marker, last, hle, hlt, hsent, hlast⟩ :=
      h.upTo hsocket
    refine ⟨stop, session, timestamp, marker, last, by omega, hlt, ?_, ?_⟩
    · have hcovered : (payloadAt sender data head).length ≤ stop - head := by
        omega
      rw [sentBytes_append, hbytes, hsent]
      conv_rhs => rw [← payloadAt_append sender data head]
      rw [List.take_append, List.take_of_length_le hcovered, hlen]
      congr 2
      omega
    · rw [List.getLast?_append, hlast]
      rfl

theorem Segment.release {trace : List Attempt} {w w' : World}
    (h : Segment platform sender trace w w') :
    Segment platform sender trace w { w' with mutexTaken := false } :=
  ⟨⟨h.describes.sends, h.describes.outcomes⟩, h.advances, h.accounted⟩

/-- The loop releases the mutex and accounts for what it sends. -/
theorem sendPacketLoop_segment (ntpMsw ntpLsw : UInt32) (marker : UInt8)
    (pos : SendPos) (w : World) (hpos : pos.head ≤ data.length) :
    ∃ status w' trace,
      sendPacketLoop platform sender data ntpMsw ntpLsw marker pos w =
        .ok (status, w') ∧
      w'.mutexTaken = false ∧ Segment platform sender trace w w' ∧
      DeliveredFrom sender data pos.head status trace := by
  induction hrest : data.length - pos.head using Nat.strong_induction_on
    generalizing pos w with
  | _ rest ih =>
      rw [sendPacketLoop]
      by_cases hmore : pos.head < data.length
      · have hlimit := sender.payload_pos
        obtain ⟨status, pos', w₁, first, hstep, hsegment, houtcome⟩ :=
          sendIteration_segment platform sender data ntpMsw ntpLsw marker pos w
            hmore
        have hhead := sendIteration_head hstep
        rw [dif_pos hmore]
        split
        · next heq =>
            rw [hstep] at heq
            cases heq
        · next heq =>
            rw [hstep] at heq
            cases heq
            rcases houtcome with
              ⟨rfl, hfirst⟩ | ⟨rfl, hnone, session, last, hlast⟩
            · rw [if_neg (not_not_intro rfl)]
              obtain ⟨status', w', trace, hloop, hmutex, hsegment', hfrom⟩ :=
                ih (data.length - pos'.head) (by omega) pos' w₁ (by omega) rfl
              rw [hhead] at hfrom
              exact ⟨status', w', first ++ trace, hloop, hmutex,
                hsegment.append hsegment', hfrom.cons hmore hfirst⟩
            · rw [if_pos (by decide)]
              refine ⟨_, _, first, rfl, rfl, hsegment.release, ?_⟩
              refine ⟨Or.inr rfl, ?_, ?_, ?_⟩
              · simp [hnone]
              · intro hok
                cases hok
              · intro _
                refine ⟨pos.head, session, _, marker, last, le_rfl, hmore, ?_,
                  hlast⟩
                simp [sentBytes, hnone]
      · have hend : data.drop pos.head = [] := by
          rw [List.drop_eq_nil_iff]
          omega
        rw [dif_neg hmore]
        refine ⟨_, _, [], rfl, rfl, ?_, ?_⟩
        · exact ⟨.nil platform sender rfl, .of_none rfl rfl rfl rfl rfl,
            .nil _⟩
        · refine ⟨Or.inl rfl, ?_, ?_, ?_⟩
          · intro packet hmem
            cases hmem
          · intro _
            rw [hend]
            rfl
          · intro hsocket
            cases hsocket

end Loop

/-! ## Calls -/

/-- What holds of one call of a run: its trace, its payloads and the mutex. -/
structure CallRecord.Sound (platform : Platform) (sender : Sender)
    (record : CallRecord) (trace : List Attempt) : Prop where
  describes : Describes platform sender trace record.before record.after
  delivered : Delivered sender.rtpPayloadMaxSize record.call.data record.status
    trace
  released : record.after.mutexTaken = false

/-- A call that returns without a socket call. -/
theorem Delivered.silent {limit : ℕ} {data : Option Bytes}
    {status : RtpStatus} (hok : status = .ok → data = some [])
    (hsocket : status ≠ .errorSocket) : Delivered limit data status [] := by
  constructor
  · intro packet hmem
    cases hmem
  · exact hok
  · intro h
    exact absurd h hsocket
  · intro _ _
    rfl

section Calls

variable (platform : Platform) (sender : Sender)

theorem w6xRtpSenderSessionSendPacket_segment (data : Option Bytes)
    (timestamp ntpMsw ntpLsw : UInt32) (marker : UInt8) (w : World)
    (hmutex : w.mutexTaken = false) :
    ∃ status w' trace,
      w6xRtpSenderSessionSendPacket platform (some sender) data timestamp
        ntpMsw ntpLsw marker w = .ok (status, w') ∧
      w'.mutexTaken = false ∧ Segment platform sender trace w w' ∧
      Delivered sender.rtpPayloadMaxSize data status trace := by
  have hstay : Segment platform sender [] w w :=
    ⟨.nil platform sender rfl, .of_none rfl rfl rfl rfl rfl, .nil _⟩
  cases data with
  | none =>
      exact ⟨_, w, [], rfl, hmutex, hstay, .silent (by simp) (by simp)⟩
  | some data =>
      by_cases hid : w.session.id = rtpSessionId
      · by_cases hempty : data.length = 0
        · have hnil : some data = some [] := by
            rw [List.length_eq_zero_iff.mp hempty]
          refine ⟨.ok, w, [], ?_, hmutex, hstay, ?_⟩
          · simp [w6xRtpSenderSessionSendPacket, hid, hempty]
          · exact .silent (fun _ => hnil) (by simp)
        · obtain ⟨status, w', trace, hloop, hreleased, hsegment, hfrom⟩ :=
            sendPacketLoop_segment platform sender data ntpMsw ntpLsw marker
              ⟨timestamp, 0⟩ { w with mutexTaken := true } (Nat.zero_le _)
          refine ⟨status, w', trace, ?_, hreleased, ?_, ?_⟩
          · simpa [w6xRtpSenderSessionSendPacket, hid, hempty] using hloop
          · exact ⟨⟨hsegment.describes.sends, hsegment.describes.outcomes⟩,
              hsegment.advances, hsegment.accounted⟩
          · constructor
            · exact hfrom.sizes
            · intro hok
              rw [hfrom.whole hok, List.drop_zero]
            · intro hsocket
              obtain ⟨stop, session, _, _, last, -, hlt, hsent, hlast⟩ :=
                hfrom.upTo hsocket
              exact ⟨data, stop, session, _, _, last, rfl, hlt, hsent, hlast⟩
            · intro hok hsocket
              rcases hfrom.returns with h | h
              · exact absurd h hok
              · exact absurd h hsocket
      · refine ⟨.errorParameters, w, [], ?_, hmutex, hstay, ?_⟩
        · simp [w6xRtpSenderSessionSendPacket, hid]
        · exact .silent (by simp) (by simp)

theorem w6xRtpSenderSessionSetSampleFactor_segment (factor : UInt32)
    (w : World) :
    (w6xRtpSenderSessionSetSampleFactor factor w).2.mutexTaken =
        w.mutexTaken ∧
      Segment platform sender [] w
        (w6xRtpSenderSessionSetSampleFactor factor w).2 := by
  rw [w6xRtpSenderSessionSetSampleFactor]
  split
  · exact ⟨rfl, .nil platform sender rfl, .of_none rfl rfl rfl rfl rfl, .nil _⟩
  · exact ⟨rfl, .nil platform sender rfl, .of_none rfl rfl rfl rfl rfl, .nil _⟩

/-- A run is one segment, made of the traces of its calls. -/
theorem sendCalls_segment (calls : List PacketCall) (w : World)
    (hmutex : w.mutexTaken = false) :
    ∃ records last traces,
      sendCalls platform sender calls w = .ok (records, last) ∧
      records.map CallRecord.call = calls ∧
      List.Forall₂ (CallRecord.Sound platform sender) records traces ∧
      Segment platform sender traces.flatten w last := by
  induction calls generalizing w with
  | nil =>
      exact ⟨[], w, [], rfl, rfl, .nil, .nil platform sender rfl,
        .of_none rfl rfl rfl rfl rfl, .nil _⟩
  | cons call calls ih =>
      have hset := w6xRtpSenderSessionSetSampleFactor_segment platform sender
        call.sampleFactor w
      rw [sendCalls]
      generalize w6xRtpSenderSessionSetSampleFactor call.sampleFactor w = set
        at hset
      obtain ⟨setStatus, before⟩ := set
      obtain ⟨hbefore, hfactor⟩ := hset
      obtain ⟨status, after, trace, hcall, hreleased, hsegment, hdelivered⟩ :=
        w6xRtpSenderSessionSendPacket_segment platform sender call.data
          call.timestamp call.ntpMsw call.ntpLsw call.marker before
          (hbefore.trans hmutex)
      obtain ⟨records, last, traces, hrun, hcalls, hsound, hrest⟩ :=
        ih after hreleased
      simp only [hcall, hrun, ok_bind, pure_eq_ok]
      refine ⟨_, last, trace :: traces, rfl, ?_, ?_, ?_⟩
      · rw [List.map_cons, hcalls]
      · exact .cons ⟨hsegment.describes, hdelivered, hreleased⟩ hsound
      · exact (hfactor.append hsegment).append hrest

end Calls

/-- Over every run of calls on a session whose sender has a payload limit of at most
`rtpPayloadMaxSize`: each call sends what it should and releases the mutex, the packets
sent are numbered consecutively and every report counts the packets and octets sent
before it. -/
theorem sendCalls_accounted (platform : Platform) (sender : Sender)
    (session : Session) (calls : List PacketCall) :
    ∃ records last traces,
      sendCalls platform sender calls (streamWorld session) =
        .ok (records, last) ∧
      records.map CallRecord.call = calls ∧
      List.Forall₂ (CallRecord.Sound platform sender) records traces ∧
      Describes platform sender traces.flatten (streamWorld session) last ∧
      Accounted session traces.flatten := by
  obtain ⟨records, last, traces, hrun, hcalls, hsound, hsegment⟩ :=
    sendCalls_segment platform sender calls (streamWorld session) rfl
  exact ⟨records, last, traces, hrun, hcalls, hsound, hsegment.describes,
    hsegment.accounted⟩

end RtpMulticast
