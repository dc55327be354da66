import RtpMulticast.Rtp.H264
import RtpMulticast.Rtp.RtpPackets

/-!
# The fragments of a NAL unit

The FU-A branch of `w6x_rtp_sender_session_send_h264`.  The bodies that the
loop copies are consecutive slices of the unit without its first byte, and each
is sent as one packet behind the indicator and the header of its place.  So the
packets are the fragments of the unit, and a receiver gets the unit back.
-/

namespace RtpMulticast

open ByteBuffer

/-! ## The bodies -/

/-- The body of fragment `idx` of the unit of `nalSize` bytes at `base`. -/
def fuBody (frame : Bytes) (plan : FuPlan) (nalSize base idx : ℕ) : Bytes :=
  (frame.drop (fuStart plan base idx)).take
    (fuStop plan nalSize base idx - fuStart plan base idx)

/-- The bodies of `n` fragments from `idx` on. -/
def fuBodies (frame : Bytes) (plan : FuPlan) (nalSize base idx n : ℕ) :
    List Bytes :=
  (List.range' idx n).map (fuBody frame plan nalSize base)

theorem fuBodies_succ (frame : Bytes) (plan : FuPlan) (nalSize base idx n : ℕ) :
    fuBodies frame plan nalSize base idx (n + 1) =
      fuBody frame plan nalSize base idx ::
        fuBodies frame plan nalSize base (idx + 1) n := by
  rw [fuBodies, List.range'_succ, List.map_cons]
  rfl

theorem isEmpty_fuBodies (frame : Bytes) (plan : FuPlan)
    (nalSize base idx n : ℕ) :
    (fuBodies frame plan nalSize base idx n).isEmpty = (n == 0) := by
  cases n with
  | zero => rfl
  | succ n => rw [fuBodies_succ, List.isEmpty_cons, beq_false_of_ne (by omega)]

theorem fuStart_le_fuStop {plan : FuPlan} {nalSize : ℕ}
    (hplan : plan.Covers nalSize) (base idx : ℕ) :
    fuStart plan base idx ≤ fuStop plan nalSize base idx := by
  have hpos := hplan.max_pos
  have htwo := hplan.two_le
  have hsucc := fuOffset_succ plan base idx
  have hlast := fuOffset_last hplan base
  rw [fuStart, fuStop]
  by_cases hfirst : idx = 0
  · have hzero : fuOffset plan base idx = base := by
      rw [hfirst, fuOffset, Nat.zero_mul, Nat.add_zero]
    rw [if_pos hfirst, if_neg (by omega)]
    omega
  · rw [if_neg hfirst]
    split
    · next hend =>
        rw [show plan.fuPackets - 1 = idx by omega] at hlast
        omega
    · omega

theorem length_fuBody_le (frame : Bytes) {plan : FuPlan} {nalSize : ℕ}
    (hplan : plan.Covers nalSize) (base idx : ℕ) :
    (fuBody frame plan nalSize base idx).length ≤ plan.fuSizeMax := by
  have hle := hplan.last_le
  have hsucc := fuOffset_succ plan base idx
  have hlast := fuOffset_last hplan base
  have hbound : fuStop plan nalSize base idx ≤
      fuStart plan base idx + plan.fuSizeMax := by
    have hstart : fuOffset plan base idx ≤ fuStart plan base idx := by
      rw [fuStart]
      split
      · next hfirst =>
          rw [hfirst, fuOffset, Nat.zero_mul]
          omega
      · exact le_rfl
    rw [fuStop]
    split
    · next hend =>
        rw [show plan.fuPackets - 1 = idx by omega] at hlast
        omega
    · omega
  have htake := List.length_take_le
    (fuStop plan nalSize base idx - fuStart plan base idx)
    (frame.drop (fuStart plan base idx))
  rw [fuBody]
  omega

/-- The bodies are the bytes from the first of them to the end of the unit. -/
theorem flatten_fuBodies (frame : Bytes) {plan : FuPlan} {nalSize : ℕ}
    (hplan : plan.Covers nalSize) (base : ℕ) {idx n : ℕ} (hpos : 0 < n)
    (hn : idx + n = plan.fuPackets) :
    (fuBodies frame plan nalSize base idx n).flatten =
      (frame.drop (fuStart plan base idx)).take
        (base + nalSize - fuStart plan base idx) := by
  induction n generalizing idx with
  | zero => exact absurd hpos (Nat.lt_irrefl 0)
  | succ n ih =>
      have hle := fuStart_le_fuStop hplan base idx
      have hstop := fuStop_le hplan base (show idx < plan.fuPackets by omega)
      rw [fuBodies_succ, List.flatten_cons, fuBody]
      by_cases hlast : n = 0
      · have hend : fuStop plan nalSize base idx = base + nalSize := by
          rw [fuStop, if_pos (by omega)]
        rw [hlast, fuBodies, List.range'_zero, List.map_nil, List.flatten_nil,
          List.append_nil, hend]
      · have hnext : fuStart plan base (idx + 1) =
            fuStop plan nalSize base idx := by
          rw [fuStop, if_neg (by omega), fuStart, if_neg (Nat.succ_ne_zero idx)]
        rw [ih (Nat.pos_of_ne_zero hlast) (by omega), hnext]
        have hsplit : base + nalSize - fuStart plan base idx =
            (fuStop plan nalSize base idx - fuStart plan base idx) +
              (base + nalSize - fuStop plan nalSize base idx) := by
          omega
        rw [hsplit, List.take_add, List.drop_drop, Nat.add_sub_cancel' hle]

/-! ## The packets -/

/-- The packets of the fragments with the given bodies; only the last fragment
can have the marker. -/
def fragmentPackets (b : UInt8) (timestamp : UInt32) (marker first : Bool) :
    List Bytes → List RtpPacket
  | [] => []
  | body :: bodies =>
      ⟨bodies.isEmpty && marker, timestamp,
        FuA.indicator b :: FuA.header b first bodies.isEmpty :: body⟩ ::
        fragmentPackets b timestamp marker false bodies

theorem map_payload_fragmentPackets (b : UInt8) (timestamp : UInt32)
    (marker first : Bool) (bodies : List Bytes) :
    (fragmentPackets b timestamp marker first bodies).map (·.payload) =
      FuA.fragments b first bodies := by
  induction bodies generalizing first with
  | nil => rfl
  | cons body bodies ih =>
      rw [fragmentPackets, FuA.fragments, List.map_cons, ih]

theorem length_fragmentPackets (b : UInt8) (timestamp : UInt32)
    (marker first : Bool) (bodies : List Bytes) :
    (fragmentPackets b timestamp marker first bodies).length =
      bodies.length := by
  rw [← List.length_map (·.payload), map_payload_fragmentPackets,
    FuA.length_fragments]

theorem mem_fragmentPackets {b : UInt8} {timestamp : UInt32}
    {marker first : Bool} {bodies : List Bytes} {packet : RtpPacket}
    (h : packet ∈ fragmentPackets b timestamp marker first bodies) :
    ∃ fuHeader, ∃ body ∈ bodies,
      packet.payload = FuA.indicator b :: fuHeader :: body := by
  induction bodies generalizing first with
  | nil => simp [fragmentPackets] at h
  | cons body bodies ih =>
      rw [fragmentPackets, List.mem_cons] at h
      rcases h with rfl | h
      · exact ⟨_, body, List.mem_cons_self, rfl⟩
      · obtain ⟨fuHeader, body', hmem, hpayload⟩ := ih h
        exact ⟨fuHeader, body', List.mem_cons_of_mem _ hmem, hpayload⟩

/-- The header of a packet is the one of its place. -/
theorem header_fragmentPackets {b : UInt8} {timestamp : UInt32}
    {marker first : Bool} {bodies : List Bytes} {before after : List RtpPacket}
    {packet : RtpPacket}
    (h : fragmentPackets b timestamp marker first bodies =
      before ++ packet :: after) :
    packet.payload.getD 1 0 =
      FuA.header b (first && before.isEmpty) after.isEmpty := by
  have hsplit := congrArg (List.map (·.payload)) h
  rw [map_payload_fragmentPackets, List.map_append, List.map_cons] at hsplit
  obtain ⟨body, hbody⟩ := FuA.fragments_split hsplit
  rw [hbody, List.isEmpty_map, List.isEmpty_map]
  rfl

/-- Packets before the last one are not marked. -/
theorem marker_fragmentPackets {b : UInt8} {timestamp : UInt32}
    {marker first : Bool} {bodies : List Bytes} {before after : List RtpPacket}
    {packet : RtpPacket}
    (h : fragmentPackets b timestamp marker first bodies =
      before ++ packet :: after) :
    packet.marker = (after.isEmpty && marker) := by
  induction bodies generalizing first before with
  | nil => simp [fragmentPackets] at h
  | cons body bodies ih =>
      rw [fragmentPackets] at h
      cases before with
      | nil =>
          obtain ⟨hhead, htail⟩ := List.cons.inj h
          have hempty : bodies.isEmpty = after.isEmpty := by
            rw [← htail]
            cases bodies <;> rfl
          rw [← hhead, hempty]
      | cons head before =>
          obtain ⟨-, htail⟩ := List.cons.inj h
          exact ih htail

/-! ## The fragment loop -/

section Loop

variable (call : H264Call)
  (hsockets : call.sender.rtcpSocket ≠ call.sender.rtpSocket)
include hsockets

/-- Data that fits into one packet is sent as one. -/
theorem H264Call.sendPacket_single {data : Bytes} (hdata : data ≠ [])
    (hfits : data.length ≤ call.sender.rtpPayloadMaxSize) (marker : UInt8)
    {w : World} (hw : Sendable w) :
    ∃ status w', call.sendPacket data marker w = .ok (status, w') ∧
      (AllSent call.platform → status = .ok) ∧
      (status = .ok → Emits call.sender
        [⟨marker != 0, call.timestamp, data⟩] w w') := by
  obtain ⟨status, w', packets, hpacket, hemits, -, hwhole, hok⟩ :=
    w6xRtpSenderSessionSendPacket_emits call.platform call.sender data
      call.ntpMsw call.ntpLsw marker hsockets call.timestamp hw
  have hsingle : chunkPackets w.session.sampleFactor
      call.sender.rtpPayloadMaxSize marker call.timestamp data =
        [⟨marker != 0, call.timestamp, data⟩] :=
    chunkPackets_single hdata hfits
  refine ⟨status, w', hpacket, hok, ?_⟩
  intro hstatus
  rw [← hsingle, ← hwhole hstatus]
  exact hemits

/-- The loop with `n` fragments left sends them in order. -/
theorem fuLoop_emits {plan : FuPlan} {nalSize : ℕ}
    (hplan : plan.Covers nalSize)
    (hlimit : plan.fuSizeMax + rtpH264FuSize ≤ call.sender.rtpPayloadMaxSize)
    (b marker : UInt8) {base : ℕ}
    (hroom : base + nalSize ≤ call.frame.length) (n : ℕ) (cur : FuCursor)
    {w : World} (hn : cur.idx + n = plan.fuPackets)
    (hready : 0 < n → FuReady plan base b cur) (hw : Sendable w) :
    ∃ status w', fuLoop call plan (FuA.indicator b) marker n cur w =
        .ok (status, w') ∧
      (AllSent call.platform → status = .ok) ∧
      (status = .ok → Emits call.sender
        (fragmentPackets b call.timestamp (marker != 0) (cur.idx == 0)
          (fuBodies call.frame plan nalSize base cur.idx n)) w w') := by
  induction n generalizing cur w with
  | zero => exact ⟨.ok, w, rfl, fun _ => rfl, fun _ => .refl call.sender w⟩
  | succ n ih =>
      obtain ⟨cur', fuSize, hprep, hprepared⟩ :=
        (hready (Nat.succ_pos n)).prepare hplan marker
      have hmax := hplan.max_fits
      have hsize := hprepared.size_le
      have hstop := fuStop_le hplan base (show cur.idx < plan.fuPackets by omega)
      have hfits : ¬ rtpPayloadMaxSize < fuSize + rtpH264FuSize := by omega
      have hcopy := copyOut_of_le call.frame cur'.nalFrame fuSize
        (by rw [hprepared.stop]; omega)
      have hbody : (call.frame.drop cur'.nalFrame).take fuSize =
          fuBody call.frame plan nalSize base cur.idx := by
        rw [fuBody, ← hprepared.start, ← hprepared.stop, Nat.add_sub_cancel_left]
      have hlength : ([FuA.indicator b, cur'.fuHeader] ++
          fuBody call.frame plan nalSize base cur.idx).length ≤
            call.sender.rtpPayloadMaxSize := by
        have hle := List.length_take_le fuSize (call.frame.drop cur'.nalFrame)
        rw [hbody] at hle
        rw [List.length_append]
        simp only [List.length_cons, List.length_nil, rtpH264FuSize] at hlimit ⊢
        omega
      have hdata : [FuA.indicator b, cur'.fuHeader] ++
          fuBody call.frame plan nalSize base cur.idx ≠ [] :=
        List.cons_ne_nil _ _
      obtain ⟨status, w₁, hpacket, hok, hemits⟩ :=
        call.sendPacket_single hsockets hdata hlength cur'.fuMarker hw
      have hlast : (n == 0) = (cur.idx + 1 == plan.fuPackets) := by
        rw [Bool.eq_iff_iff, beq_iff_eq, beq_iff_eq]
        omega
      have hmarked : (cur'.fuMarker != 0) = ((n == 0) && marker != 0) := by
        rw [hprepared.marker, hlast]
        by_cases hend : cur.idx + 1 = plan.fuPackets
        · rw [if_pos hend, beq_iff_eq.mpr hend, Bool.true_and]
        · rw [if_neg hend, beq_false_of_ne hend, Bool.false_and]
          rfl
      rw [fuLoop, hprep]
      simp only [ok_bind, if_neg hfits, hcopy, hbody, hpacket]
      by_cases hstatus : status = .ok
      · obtain ⟨status', w', hloop, hok', hemits'⟩ := ih (w := w₁)
          { cur' with
            idx := cur'.idx + 1, nalFrame := cur'.nalFrame + fuSize }
          (by simp only [hprepared.idx]; omega)
          (fun hpos => hprepared.ready (by omega))
          ((hemits hstatus).sendable hw)
        rw [if_neg (not_not_intro hstatus)]
        refine ⟨status', w', hloop, hok', ?_⟩
        intro hfinal
        have hrest := hemits' hfinal
        have hnext : (cur.idx + 1 == 0) = false := beq_false_of_ne (by omega)
        simp only [hprepared.idx, hnext] at hrest
        rw [fuBodies_succ, fragmentPackets, isEmpty_fuBodies, ← hmarked, hlast,
          ← hprepared.header]
        exact (hemits hstatus).append hrest
      · rw [if_pos hstatus]
        exact ⟨status, w₁, rfl, hok, fun hfinal => absurd hfinal hstatus⟩

/-- The FU-A branch sends the fragments of the unit behind `nalFrame`. -/
theorem h264SendNal_fragments
    (hlimit : 3 ≤ call.sender.rtpPayloadMaxSize) {nalFrame nalSize : ℕ}
    (hsize : call.sender.rtpPayloadMaxSize ≤ nalSize)
    (hroom : nalFrame + nalSize ≤ call.frame.length) (marker : UInt8)
    {w : World} (hw : Sendable w) :
    ∃ status w', h264SendNal call nalFrame nalSize marker w =
        .ok (status, w') ∧
      (AllSent call.platform → status = .ok) ∧
      (status = .ok → Emits call.sender
        (fragmentPackets (call.frame.getD nalFrame 0) call.timestamp
          (h264Marker (call.frame.getD nalFrame 0) marker != 0) true
          (fuBodies call.frame (fuPlanOf call.sender.rtpPayloadMaxSize nalSize)
            nalSize nalFrame 0
            (fuPlanOf call.sender.rtpPayloadMaxSize nalSize).fuPackets))
        { w with nalUnits :=
            w.nalUnits ++ [(call.frame.drop nalFrame).take nalSize] } w') := by
  have hstart : nalFrame < call.frame.length := by omega
  have hbyte : call.frame.getD nalFrame 0 = call.frame[nalFrame] := by
    rw [List.getD_eq_getElem?_getD, List.getElem?_eq_getElem hstart,
      Option.getD_some]
  have hcovers :=
    fuPlanOf_covers hlimit call.sender.payload_le hsize
  have hmax : (fuPlanOf call.sender.rtpPayloadMaxSize nalSize).fuSizeMax +
      rtpH264FuSize ≤ call.sender.rtpPayloadMaxSize := by
    simp only [fuPlanOf, rtpH264FuSize]
    omega
  obtain ⟨status, w', hloop, hok, hemits⟩ := fuLoop_emits call hsockets hcovers
    hmax (call.frame.getD nalFrame 0)
    (h264Marker (call.frame.getD nalFrame 0) marker) hroom
    (fuPlanOf call.sender.rtpPayloadMaxSize nalSize).fuPackets
    ⟨0, call.frame.getD nalFrame 0 &&& rtpH264TypeMask, 0, nalFrame⟩
    (w := { w with nalUnits :=
      w.nalUnits ++ [(call.frame.drop nalFrame).take nalSize] })
    (Nat.zero_add _) (fun hpos => fuReady_first hpos nalFrame _)
    ⟨hw.id, hw.payloadType⟩
  refine ⟨status, w', ?_, hok, hemits⟩
  simp only [h264SendNal, loadU8_of_lt hstart, copyOut_of_le _ _ _ hroom,
    ok_bind, if_neg (Nat.not_lt.mpr hsize), fuPlan_eq hlimit hsize, ← hbyte]
  exact hloop

end Loop

/-! ## Round trip -/

/-- What a receiver can rely on for the packets of a unit in fragments. -/
structure FuARoundTrip (limit : ℕ) (nal : Bytes) (packets : List RtpPacket) :
    Prop where
  two_le : 2 ≤ packets.length
  payload_le : ∀ packet ∈ packets, packet.payload.length ≤ limit
  startBit : ∀ before packet after, packets = before ++ packet :: after →
    (packet.payload.getD 1 0 &&& FuA.startMask ≠ 0 ↔ before = [])
  endBit : ∀ before packet after, packets = before ++ packet :: after →
    (packet.payload.getD 1 0 &&& FuA.endMask ≠ 0 ↔ after = [])
  marker : ∀ before packet after, packets = before ++ packet :: after →
    packet.marker = true → after = []
  reassembled : FuA.reassemble (packets.map (·.payload)) = some nal

/-- The bodies of a unit behind its first byte. -/
theorem reassemble_fuBodies (frame : Bytes) {plan : FuPlan} {nalSize : ℕ}
    (hplan : plan.Covers nalSize) {base : ℕ} (hroom : base < frame.length)
    (hforbidden : frame.getD base 0 &&& FuA.startMask = 0) :
    FuA.reassemble (FuA.fragments (frame.getD base 0) true
      (fuBodies frame plan nalSize base 0 plan.fuPackets)) =
        some ((frame.drop base).take nalSize) := by
  have htwo := hplan.two_le
  have hpos : 0 < nalSize := by
    have hmax := hplan.max_pos
    have hmul := Nat.mul_pos (show 0 < plan.fuPackets - 1 by omega) hmax
    have htotal := hplan.total
    omega
  have hflatten := flatten_fuBodies frame hplan base
    (show 0 < plan.fuPackets by omega) (Nat.zero_add plan.fuPackets)
  have hstart : fuStart plan base 0 = base + 1 := if_pos rfl
  obtain ⟨n, hn⟩ : ∃ n, plan.fuPackets = n + 1 :=
    ⟨plan.fuPackets - 1, by omega⟩
  have hrest : fuBodies frame plan nalSize base (0 + 1) n ≠ [] := by
    intro hnil
    have hempty := isEmpty_fuBodies frame plan nalSize base (0 + 1) n
    rw [hnil, List.isEmpty_nil, eq_comm, beq_iff_eq] at hempty
    omega
  rw [hn, fuBodies_succ, List.flatten_cons, hstart] at hflatten
  rw [hn, fuBodies_succ, FuA.reassemble_fragments hforbidden _ hrest, hflatten,
    List.drop_eq_getElem_cons hroom, show nalSize = nalSize - 1 + 1 by omega,
    List.take_succ_cons, List.getD_eq_getElem?_getD,
    List.getElem?_eq_getElem hroom, Option.getD_some]
  congr 3
  omega

theorem fuARoundTrip_fragmentPackets (frame : Bytes) {limit nalSize : ℕ}
    (hlimit : 3 ≤ limit) (hle : limit ≤ rtpPayloadMaxSize)
    (hsize : limit ≤ nalSize) {base : ℕ} (hroom : base < frame.length)
    (hforbidden : frame.getD base 0 &&& FuA.startMask = 0)
    (timestamp : UInt32) (marker : Bool) :
    FuARoundTrip limit ((frame.drop base).take nalSize)
      (fragmentPackets (frame.getD base 0) timestamp marker true
        (fuBodies frame (fuPlanOf limit nalSize) nalSize base 0
          (fuPlanOf limit nalSize).fuPackets)) := by
  have hplan := fuPlanOf_covers hlimit hle hsize
  constructor
  · rw [length_fragmentPackets, fuBodies, List.length_map, List.length_range']
    exact hplan.two_le
  · intro packet hpacket
    obtain ⟨fuHeader, body, hbody, hpayload⟩ := mem_fragmentPackets hpacket
    obtain ⟨idx, -, rfl⟩ := List.mem_map.mp hbody
    have hlength := length_fuBody_le frame hplan base idx
    rw [hpayload, List.length_cons, List.length_cons]
    simp only [fuPlanOf] at hlength ⊢
    omega
  · intro before packet after hsplit
    rw [header_fragmentPackets hsplit, FuA.header_start, Bool.true_and,
      List.isEmpty_iff]
  · intro before packet after hsplit
    rw [header_fragmentPackets hsplit, FuA.header_end, List.isEmpty_iff]
  · intro before packet after hsplit hmarker
    rw [marker_fragmentPackets hsplit, Bool.and_eq_true, List.isEmpty_iff]
      at hmarker
    exact hmarker.1
  · rw [map_payload_fragmentPackets]
    exact reassemble_fuBodies frame hplan hroom hforbidden

/-- Round trip of the FU-A branch: the packets of a NAL unit that does not fit
into one are its fragments, and a receiver that puts them together has the unit
again. -/
theorem h264SendNal_fuARoundTrip (call : H264Call)
    (hsockets : call.sender.rtcpSocket ≠ call.sender.rtpSocket)
    (before : Bytes) (b : UInt8) (rest after : Bytes)
    (hframe : call.frame = before ++ (b :: rest) ++ after)
    (hforbidden : b &&& FuA.startMask = 0)
    (hlimit : 3 ≤ call.sender.rtpPayloadMaxSize)
    (hsize : call.sender.rtpPayloadMaxSize ≤ (b :: rest).length)
    (marker : UInt8) {w : World} (hw : Sendable w) :
    ∃ status w', h264SendNal call before.length (b :: rest).length marker w =
        .ok (status, w') ∧
      (AllSent call.platform → status = .ok) ∧
      (status = .ok → FuARoundTrip call.sender.rtpPayloadMaxSize (b :: rest)
        (rtpPacketsBetween call.sender w w')) := by
  have hdrop : call.frame.drop before.length = b :: (rest ++ after) := by
    rw [hframe, List.append_assoc, List.drop_left]
    rfl
  have hbyte : call.frame.getD before.length 0 = b := by
    rw [List.getD_eq_getElem?_getD, ← List.head?_drop, hdrop]
    rfl
  have hnal : (call.frame.drop before.length).take (b :: rest).length =
      b :: rest := by
    rw [hdrop, ← List.cons_append, List.take_left]
  have hlength : call.frame.length =
      before.length + (b :: rest).length + after.length := by
    rw [hframe, List.length_append, List.length_append]
  have hroom : before.length + (b :: rest).length ≤ call.frame.length := by
    omega
  have hstart : before.length < call.frame.length := by
    rw [List.length_cons] at hroom
    omega
  obtain ⟨status, w', hsend, hok, hemits⟩ :=
    h264SendNal_fragments call hsockets hlimit hsize hroom marker hw
  refine ⟨status, w', hsend, hok, ?_⟩
  intro hstatus
  have hround := fuARoundTrip_fragmentPackets call.frame hlimit
    call.sender.payload_le hsize hstart (by rw [hbyte]; exact hforbidden)
    call.timestamp (h264Marker (call.frame.getD before.length 0) marker != 0)
  rw [hnal, ← (hemits hstatus).between] at hround
  exact hround

/-- A sender whose packets have room for one byte of a fragment. -/
def smallestSender : Sender :=
  { streamSender with
    rtpPayloadMaxSize := 3
    payload_pos := by decide
    payload_le := by decide }

/-- A slice of four bytes in fragments of one. -/
theorem h264SendNal_fuARoundTrip_slice :
    ∃ status w', h264SendNal ⟨platformOk, smallestSender,
        [0, 0, 1] ++ [0x65, 0x88, 0x84, 0x21] ++ [], 0, 0, 0⟩ 3 4 1
        (streamWorld streamSession) = .ok (status, w') ∧
      (AllSent platformOk → status = .ok) ∧
      (status = .ok → FuARoundTrip 3 [0x65, 0x88, 0x84, 0x21]
        (rtpPacketsBetween smallestSender (streamWorld streamSession) w')) :=
  h264SendNal_fuARoundTrip ⟨platformOk, smallestSender,
    [0, 0, 1] ++ [0x65, 0x88, 0x84, 0x21] ++ [], 0, 0, 0⟩ (by decide)
    [0, 0, 1] 0x65 [0x88, 0x84, 0x21] [] rfl (by decide) (by decide)
    (by decide) 1 ⟨rfl, by decide⟩

end RtpMulticast
