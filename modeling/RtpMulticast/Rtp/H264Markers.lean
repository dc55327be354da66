import RtpMulticast.Rtp.H264Split
import RtpMulticast.Rtp.H264Fragments

/-!
# The marker of an access unit

A receiver takes the packet with the marker as the last one of the frame.  The
scan of `w6x_rtp_sender_session_send_h264` sets the marker of a unit when the
unit ends with the frame, not when it is the last one: a unit in front of a
trailing start code, or in front of a last unit too short to be scanned, ends
at a start code.  A frame is marked on its last packet, and only there, exactly
when more than four bytes follow its last start code.
-/

namespace RtpMulticast

open ByteBuffer AnnexB

/-! ## The packets of a unit -/

/-- The packets of a unit that is handed over with `marker`: none for an empty
unit, else only the last one can be marked. -/
inductive NalPackets (marker : UInt8) : Bytes → List RtpPacket → Prop
  | empty : NalPackets marker [] []
  | unit (b : UInt8) (rest : Bytes) {init : List RtpPacket} {last : RtpPacket} :
      (∀ packet ∈ init, packet.marker = false) →
        last.marker = (h264Marker b marker != 0) →
          NalPackets marker (b :: rest) (init ++ [last])

theorem nalPackets_fragmentPackets (b : UInt8) (rest : Bytes)
    (timestamp : UInt32) (marker : UInt8) {bodies : List Bytes}
    (hbodies : bodies ≠ []) :
    NalPackets marker (b :: rest) (fragmentPackets b timestamp
      (h264Marker b marker != 0) true bodies) := by
  have hne : fragmentPackets b timestamp (h264Marker b marker != 0) true
      bodies ≠ [] := by
    rw [ne_eq, ← List.length_eq_zero_iff, length_fragmentPackets,
      List.length_eq_zero_iff]
    exact hbodies
  have hsplit := List.dropLast_append_getLast hne
  rw [← hsplit]
  apply NalPackets.unit
  · intro packet hpacket
    obtain ⟨before, after, hinit⟩ := List.append_of_mem hpacket
    rw [hinit, List.append_assoc, List.cons_append] at hsplit
    rw [marker_fragmentPackets hsplit.symm]
    simp
  · rw [marker_fragmentPackets hsplit.symm]
    rfl

/-- Packets were emitted between the states, whatever was handed over. -/
def Sent (sender : Sender) (packets : List RtpPacket) (w w' : World) : Prop :=
  Emits sender packets { w with nalUnits := w'.nalUnits } w'

theorem Sent.refl (sender : Sender) (w : World) : Sent sender [] w w :=
  Emits.refl sender w

theorem Sent.append {sender : Sender} {packets packets' : List RtpPacket}
    {w w' w'' : World} (h : Sent sender packets w w')
    (h' : Sent sender packets' w' w'') :
    Sent sender (packets ++ packets') w w'' := by
  have hfirst : Emits sender packets { w with nalUnits := w''.nalUnits }
      { w' with nalUnits := w''.nalUnits } :=
    ⟨h.sends, ⟨h.keeps.id, rfl⟩, h.payloadType, h.sampleFactor⟩
  exact hfirst.append h'

theorem Sent.of_emits {sender : Sender} {packets : List RtpPacket}
    {units : List Bytes} {w w' : World}
    (h : Emits sender packets { w with nalUnits := units } w') :
    Sent sender packets w w' := by
  rw [Sent, h.keeps.nalUnits]
  exact h

theorem Sent.between {sender : Sender} {packets : List RtpPacket}
    {w w' : World} (h : Sent sender packets w w') :
    rtpPacketsBetween sender w w' = packets :=
  Emits.between (w := { w with nalUnits := w'.nalUnits }) h

theorem Sent.sendable {sender : Sender} {packets : List RtpPacket}
    {w w' : World} (h : Sent sender packets w w') (hw : Sendable w) :
    Sendable w' :=
  Emits.sendable h ⟨hw.id, hw.payloadType⟩

section Call

variable (call : H264Call)
  (hsockets : call.sender.rtcpSocket ≠ call.sender.rtpSocket)
  (hsent : AllSent call.platform)
include hsockets hsent

/-- Either branch sends the packets of the unit. -/
theorem h264SendNal_sent (hlimit : 3 ≤ call.sender.rtpPayloadMaxSize)
    {nalFrame nalSize : ℕ} (hstart : nalFrame < call.frame.length)
    (hroom : nalFrame + nalSize ≤ call.frame.length) (marker : UInt8)
    {w : World} (hw : Sendable w) :
    ∃ w' packets, h264SendNal call nalFrame nalSize marker w = .ok (.ok, w') ∧
      Sent call.sender packets w w' ∧
      NalPackets marker ((call.frame.drop nalFrame).take nalSize) packets := by
  have hbyte : call.frame.getD nalFrame 0 = call.frame[nalFrame] := by
    rw [List.getD_eq_getElem?_getD, List.getElem?_eq_getElem hstart,
      Option.getD_some]
  have hcons : 0 < nalSize → (call.frame.drop nalFrame).take nalSize =
      call.frame[nalFrame] ::
        (call.frame.drop (nalFrame + 1)).take (nalSize - 1) := by
    intro hpos
    obtain ⟨size, rfl⟩ : ∃ size, nalSize = size + 1 :=
      ⟨nalSize - 1, by omega⟩
    rw [List.drop_eq_getElem_cons hstart, List.take_succ_cons,
      Nat.add_sub_cancel]
  by_cases hsingle : nalSize < call.sender.rtpPayloadMaxSize
  · simp only [h264SendNal, loadU8_of_lt hstart, copyOut_of_le _ _ _ hroom,
      ok_bind, if_pos hsingle]
    by_cases hempty : nalSize = 0
    · rw [hempty, List.take_zero]
      have hid := hw.id
      refine ⟨{ w with nalUnits := w.nalUnits ++ [[]] }, [], ?_,
        Emits.refl _ _, .empty⟩
      simp [H264Call.sendPacket, w6xRtpSenderSessionSendPacket, hid]
    · have hpos : 0 < nalSize := Nat.pos_of_ne_zero hempty
      have hlength : ((call.frame.drop nalFrame).take nalSize).length ≤
          call.sender.rtpPayloadMaxSize :=
        (List.length_take_le _ _).trans hsingle.le
      have hne : (call.frame.drop nalFrame).take nalSize ≠ [] := by
        rw [hcons hpos]
        exact List.cons_ne_nil _ _
      obtain ⟨status, w', hpacket, hok, hemits⟩ := call.sendPacket_single
        hsockets hne hlength (h264Marker call.frame[nalFrame] marker)
        (w := { w with nalUnits :=
          w.nalUnits ++ [(call.frame.drop nalFrame).take nalSize] })
        ⟨hw.id, hw.payloadType⟩
      have hstatus := hok hsent
      refine ⟨w', _, ?_, .of_emits (hemits hstatus), ?_⟩
      · rw [hpacket, hstatus]
      · rw [hcons hpos]
        exact .unit _ _ (List.forall_mem_nil _) rfl
  · have hsize := Nat.not_lt.mp hsingle
    obtain ⟨status, w', hsend, hok, hemits⟩ :=
      h264SendNal_fragments call hsockets hlimit hsize hroom marker hw
    have hstatus := hok hsent
    refine ⟨w', _, ?_, .of_emits (hemits hstatus), ?_⟩
    · rw [hsend, hstatus]
    · rw [hcons (by omega), hbyte]
      apply nalPackets_fragmentPackets
      rw [fuBodies, ne_eq, List.map_eq_nil_iff, ← List.length_eq_zero_iff,
        List.length_range']
      exact Nat.succ_ne_zero _

end Call

/-! ## The packets of a frame -/

/-- The units the outer loop hands over from the remaining bytes `s`, with
their markers. -/
def scanMarks (s : Bytes) : List (Bytes × UInt8) :=
  if _hmore : 4 < s.length then
    ((scanUnit s).1, (scanUnit s).2.1) :: scanMarks (scanUnit s).2.2
  else []
termination_by s.length
decreasing_by exact scanUnit_rest_length (by omega)

/-- The packets of units that are handed over one after the other. -/
inductive FramePackets : List (Bytes × UInt8) → List RtpPacket → Prop
  | nil : FramePackets [] []
  | cons {unit : Bytes} {marker : UInt8} {units : List (Bytes × UInt8)}
      {packets rest : List RtpPacket} : NalPackets marker unit packets →
        FramePackets units rest →
          FramePackets ((unit, marker) :: units) (packets ++ rest)

theorem h264Loop_sent (call : H264Call)
    (hsockets : call.sender.rtcpSocket ≠ call.sender.rtpSocket)
    (hsent : AllSent call.platform)
    (hlimit : 3 ≤ call.sender.rtpPayloadMaxSize) (head : ℕ) {w : World}
    (hw : Sendable w) :
    ∃ w' packets, h264Loop call head w = .ok (.ok, w') ∧
      Sent call.sender packets w w' ∧
      FramePackets (scanMarks (call.frame.drop head)) packets := by
  induction hrest : call.frame.length - head using Nat.strong_induction_on
    generalizing head w with
  | _ rest ih =>
      have hlen : (call.frame.drop head).length = call.frame.length - head :=
        List.length_drop
      by_cases hmore : head + 4 < call.frame.length
      · have hunit := (scanUnit_parts (call.frame.drop head)).1
        have hshort := scanUnit_rest_length
          (s := call.frame.drop head) (by omega)
        have htake := congrArg List.length hunit
        rw [List.length_take] at htake
        obtain ⟨w₁, packets, hnal, hfirst, hpackets⟩ := h264SendNal_sent call
          hsockets hsent hlimit (show head < call.frame.length by omega)
          (show head + (scanUnit (call.frame.drop head)).1.length ≤
            call.frame.length by omega)
          (scanUnit (call.frame.drop head)).2.1 hw
        obtain ⟨w', packets', hloop, hrest', hpackets'⟩ := ih
          (call.frame.length - (call.frame.length -
            (scanUnit (call.frame.drop head)).2.2.length)) (by omega)
          _ (hfirst.sendable hw) rfl
        rw [hunit] at hpackets
        rw [drop_scanUnit_rest] at hpackets'
        rw [h264Loop_of_more call hmore, hnal, ok_bind, scanMarks,
          dif_pos (by omega)]
        exact ⟨w', packets ++ packets', hloop, hfirst.append hrest',
          .cons hpackets hpackets'⟩
      · rw [h264Loop, scanMarks, dif_neg hmore, dif_neg (by omega)]
        exact ⟨w, [], rfl, .refl call.sender w, .nil⟩

/-- Units that are not marked have no marked packet. -/
theorem FramePackets.marker_eq_false {units : List (Bytes × UInt8)}
    {packets : List RtpPacket} (h : FramePackets units packets)
    (hunits : ∀ unit ∈ units, unit.2 = 0) :
    ∀ packet ∈ packets, packet.marker = false := by
  induction h with
  | nil => exact List.forall_mem_nil _
  | @cons unit marker units packets rest hnal _ ih =>
      obtain ⟨hzero, hrest⟩ := List.forall_mem_cons.mp hunits
      obtain rfl : marker = 0 := hzero
      rw [List.forall_mem_append]
      refine ⟨?_, ih hrest⟩
      cases hnal with
      | empty => exact List.forall_mem_nil _
      | unit b rest hinit hlast =>
          rw [List.forall_mem_append, List.forall_mem_singleton]
          refine ⟨hinit, hlast.trans ?_⟩
          simp [h264Marker]

/-- The last packet is marked, and no other. -/
def OneMarkerLast (packets : List RtpPacket) : Prop :=
  ∃ init last, packets = init ++ [last] ∧ last.marker = true ∧
    ∀ packet ∈ init, packet.marker = false

/-- A last unit that is marked has the marked packet at its end. -/
theorem FramePackets.oneMarkerLast {units : List (Bytes × UInt8)} {b : UInt8}
    {rest : Bytes} {marker : UInt8} {packets : List RtpPacket}
    (h : FramePackets (units ++ [(b :: rest, marker)]) packets)
    (hunits : ∀ unit ∈ units, unit.2 = 0) (hmarker : h264Marker b marker ≠ 0) :
    OneMarkerLast packets := by
  induction units generalizing packets with
  | nil =>
      obtain - | ⟨hnal, hrest⟩ := h
      obtain - | ⟨_, _, hinit, hlast⟩ := hnal
      obtain - | _ := hrest
      refine ⟨_, _, List.append_nil _, ?_, hinit⟩
      rw [hlast, bne_iff_ne]
      exact hmarker
  | cons unit units ih =>
      obtain ⟨hzero, hclears⟩ := List.forall_mem_cons.mp hunits
      obtain - | @⟨_, _, _, packets, _, hnal, hrest⟩ := h
      obtain ⟨init, last, rfl, hlast, hinit⟩ := ih hrest hclears
      have hclear : ∀ packet ∈ packets, packet.marker = false := by
        have hsingle := (FramePackets.cons hnal .nil).marker_eq_false
          (List.forall_mem_singleton.mpr hzero)
        rwa [List.append_nil] at hsingle
      refine ⟨packets ++ init, last, (List.append_assoc _ _ _).symm, hlast, ?_⟩
      rw [List.forall_mem_append]
      exact ⟨hclear, hinit⟩

/-! ## Which frames end with a marked unit -/

/-- More than four bytes follow the last start code of the bytes `s` behind a
start code.  A three-byte start code that ends the frame is not seen and counts
as bytes that follow. -/
def LongTail (s : Bytes) : Prop :=
  match _h : splitStartCode s with
  | (_, none) => 4 < s.length
  | (run, some rest) =>
      if rest = [] ∧ run.length + 3 = s.length then 4 < s.length
      else LongTail rest
termination_by s.length
decreasing_by
  have hlen := splitStartCode_length _h
  omega

theorem longTail_of_none {s run : Bytes}
    (h : splitStartCode s = (run, none)) : LongTail s ↔ 4 < s.length := by
  rw [LongTail]
  split
  next run' h' => rfl
  next run' rest h' => simp [h] at h'

theorem longTail_of_some {s run rest : Bytes}
    (h : splitStartCode s = (run, some rest)) :
    LongTail s ↔ if rest = [] ∧ run.length + 3 = s.length then 4 < s.length
      else LongTail rest := by
  rw [LongTail]
  split
  next run' h' => simp [h] at h'
  next run' rest' h' => simp_all

theorem scanMarks_nil : scanMarks [] = [] := by
  rw [scanMarks, dif_neg (by simp)]

/-- What the scan does with bytes that a start code splits: the code is not
seen when it is one of three bytes at the end. -/
theorem scanUnit_of_some {s run rest : Bytes}
    (h : splitStartCode s = (run, some rest)) :
    scanUnit s = if rest = [] ∧ run.length + 3 = s.length then (s, 1, [])
      else (run, 0, rest) := by
  have hlen := splitStartCode_length h
  have hroom : run.length + 4 ≤ s.length ↔
      ¬ (rest = [] ∧ run.length + 3 = s.length) := by
    rw [← List.length_eq_zero_iff]
    omega
  rw [scanUnit, h]
  by_cases hend : rest = [] ∧ run.length + 3 = s.length
  · rw [if_pos hend]
    simp only [hroom, hend, and_self, not_true_eq_false, if_false]
  · rw [if_neg hend]
    simp only [hroom, hend, not_false_eq_true, if_true]

theorem LongTail.lt_length {s : Bytes} (h : LongTail s) : 4 < s.length := by
  induction hn : s.length using Nat.strong_induction_on generalizing s with
  | _ n ih =>
      rw [← hn]
      rcases hsplit : splitStartCode s with ⟨run, _ | rest⟩
      · exact (longTail_of_none hsplit).mp h
      · rw [longTail_of_some hsplit] at h
        split at h
        · exact h
        · have hlen := splitStartCode_length hsplit
          have hrest := ih rest.length (by omega) h rfl
          omega

/-- Without a long tail no unit is marked. -/
theorem scanMarks_of_not_longTail {s : Bytes} (h : ¬ LongTail s) :
    ∀ unit ∈ scanMarks s, unit.2 = 0 := by
  induction hn : s.length using Nat.strong_induction_on generalizing s with
  | _ n ih =>
      rw [scanMarks]
      by_cases hmore : 4 < s.length
      · rw [dif_pos hmore]
        rcases hsplit : splitStartCode s with ⟨run, _ | rest⟩
        · exact absurd ((longTail_of_none hsplit).mpr hmore) h
        · rw [longTail_of_some hsplit] at h
          rw [scanUnit_of_some hsplit]
          split
          · next hend =>
              rw [if_pos hend] at h
              exact absurd hmore h
          · next hend =>
              have hlen := splitStartCode_length hsplit
              rw [if_neg hend] at h
              rw [List.forall_mem_cons]
              exact ⟨rfl, ih rest.length (by omega) h rfl⟩
      · rw [dif_neg hmore]
        exact List.forall_mem_nil _

/-- With a long tail the last unit of the scan is marked, and no other; it
begins with the first byte of the last unit of the stream. -/
theorem scanMarks_of_longTail {s : Bytes} (h : LongTail s) :
    ∃ units b rest rest', scanMarks s = units ++ [(b :: rest, 1)] ∧
      (∀ unit ∈ units, unit.2 = 0) ∧
      (AnnexB.units s).getLast? = some (b :: rest') := by
  induction hn : s.length using Nat.strong_induction_on generalizing s with
  | _ n ih =>
      have hmore := h.lt_length
      rw [scanMarks, dif_pos hmore]
      rcases hsplit : splitStartCode s with ⟨run, _ | rest⟩
      · obtain rfl := splitStartCode_none hsplit
        obtain ⟨b, rest, rfl⟩ := List.exists_cons_of_length_pos
          (show 0 < run.length by omega)
        refine ⟨[], b, rest, rest, ?_, List.forall_mem_nil _, ?_⟩
        · rw [scanUnit, hsplit, scanMarks_nil]
          rfl
        · rw [units_of_none hsplit, if_neg (List.cons_ne_nil b rest)]
          rfl
      · have hlen := splitStartCode_length hsplit
        rw [longTail_of_some hsplit] at h
        rw [scanUnit_of_some hsplit, units_of_some hsplit]
        by_cases hend : rest = [] ∧ run.length + 3 = s.length
        · obtain ⟨b, run, rfl⟩ := List.exists_cons_of_length_pos
            (show 0 < run.length by omega)
          obtain ⟨tail, htail⟩ : ∃ tail, s = b :: tail := by
            rcases splitStartCode_some hsplit with hs | hs
            · exact ⟨_, hs⟩
            · exact ⟨_, hs⟩
          refine ⟨[], b, tail, run, ?_, List.forall_mem_nil _, ?_⟩
          · rw [if_pos hend, scanMarks_nil, htail]
            rfl
          · rw [hend.1, units_nil, List.append_nil]
            simp
        · rw [if_neg hend] at h
          obtain ⟨units, b, tail, tail', hmarks, hzero, hlast⟩ :=
            ih rest.length (by omega) h rfl
          refine ⟨(run, 0) :: units, b, tail, tail', ?_, ?_, ?_⟩
          · rw [if_neg hend, hmarks]
            rfl
          · exact List.forall_mem_cons.mpr ⟨rfl, hzero⟩
          · rw [List.getLast?_append, hlast]
            rfl

/-! ## Frames -/

/-- The call returns and marks the last packet of the frame, and no other. -/
def FrameMarked (platform : Platform) (sender : Sender) (frame : Bytes)
    (timestamp ntpMsw ntpLsw : UInt32) (w : World) : Prop :=
  ∃ status w', w6xRtpSenderSessionSendH264 platform (some sender) (some frame)
      timestamp ntpMsw ntpLsw 1 w = .ok (status, w') ∧
    OneMarkerLast (rtpPacketsBetween sender w w')

/-- A unit of another type than SEI, SPS and PPS. -/
def CarriesMarker (b : UInt8) : Prop :=
  b &&& rtpH264TypeMask ∉ [rtpH264TypeSei, rtpH264TypeSps, rtpH264TypePps]

instance : DecidablePred CarriesMarker := fun b =>
  inferInstanceAs (Decidable (b &&& rtpH264TypeMask ∉
    [rtpH264TypeSei, rtpH264TypeSps, rtpH264TypePps]))

theorem CarriesMarker.h264Marker_ne_zero {b : UInt8} (h : CarriesMarker b) :
    h264Marker b 1 ≠ 0 := by
  have hspecial : ¬ (b &&& rtpH264TypeMask = rtpH264TypeSei ∨
      b &&& rtpH264TypeMask = rtpH264TypeSps ∨
      b &&& rtpH264TypeMask = rtpH264TypePps) := by
    simpa [CarriesMarker] using h
  rw [h264Marker, if_neg hspecial]
  decide

section Frame

variable {platform : Platform} {sender : Sender} {frame : Bytes} {w : World}
  (timestamp ntpMsw ntpLsw : UInt32)
  (hsockets : sender.rtcpSocket ≠ sender.rtpSocket)
  (hlimit : 3 ≤ sender.rtpPayloadMaxSize) (hw : Sendable w)
  (hsize : 4 < frame.length) (hstart : startCodeSize frame ≠ 0)
  (hsent : AllSent platform)
include hsockets hlimit hw hsize hstart hsent

/-- An accepted frame sends the packets of its scanned units. -/
theorem w6xRtpSenderSessionSendH264_sent :
    ∃ w' packets, w6xRtpSenderSessionSendH264 platform (some sender)
        (some frame) timestamp ntpMsw ntpLsw 1 w = .ok (.ok, w') ∧
      rtpPacketsBetween sender w w' = packets ∧
      FramePackets (scanMarks (frame.drop (startCodeSize frame))) packets := by
  obtain ⟨w', packets, hloop, hpackets, hunits⟩ := h264Loop_sent
    ⟨platform, sender, frame, timestamp, ntpMsw, ntpLsw⟩ hsockets hsent hlimit
    (startCodeSize frame) hw
  have heq := w6xRtpSenderSessionSendH264_eq platform sender frame timestamp
    ntpMsw ntpLsw hw.id hsize hstart
  exact ⟨w', packets, heq.trans hloop, hpackets.between, hunits⟩

/-- Without a long tail no packet is marked. -/
theorem not_frameMarked_of_not_longTail
    (htail : ¬ LongTail (frame.drop (startCodeSize frame))) :
    ¬ FrameMarked platform sender frame timestamp ntpMsw ntpLsw w := by
  obtain ⟨w', packets, hcall, hbetween, hunits⟩ :=
    w6xRtpSenderSessionSendH264_sent timestamp ntpMsw ntpLsw hsockets hlimit hw
      hsize hstart hsent
  have hclear := hunits.marker_eq_false (scanMarks_of_not_longTail htail)
  rintro ⟨status, w'', hcall', init, last, hsplit, hlast, -⟩
  rw [hcall] at hcall'
  obtain rfl : w' = w'' := congrArg Prod.snd (Except.ok.inj hcall')
  rw [hbetween] at hsplit
  have hfalse := hclear last (by rw [hsplit]; simp)
  rw [hlast] at hfalse
  cases hfalse

/-- A frame whose last unit can carry the marker is marked on its last packet,
and only there, exactly when it has a long tail. -/
theorem w6xRtpSenderSessionSendH264_marked_iff {b : UInt8} {rest : Bytes}
    (hlast : (units frame).getLast? = some (b :: rest))
    (htype : CarriesMarker b) :
    FrameMarked platform sender frame timestamp ntpMsw ntpLsw w ↔
      LongTail (frame.drop (startCodeSize frame)) := by
  constructor
  · intro hmarked
    by_contra htail
    exact not_frameMarked_of_not_longTail timestamp ntpMsw ntpLsw hsockets
      hlimit hw hsize hstart hsent htail hmarked
  · intro htail
    obtain ⟨w', packets, hcall, rfl, hunits⟩ :=
      w6xRtpSenderSessionSendH264_sent timestamp ntpMsw ntpLsw hsockets hlimit
        hw hsize hstart hsent
    obtain ⟨marked, b', rest', rest'', hmarks, hzero, hunit⟩ :=
      scanMarks_of_longTail htail
    rw [← units_drop_startCode hstart, hlast] at hunit
    obtain ⟨rfl, -⟩ := List.cons.inj (Option.some.inj hunit)
    rw [hmarks] at hunits
    exact ⟨.ok, w', hcall,
      hunits.oneMarkerLast hzero htype.h264Marker_ne_zero⟩

end Frame

/-- A frame with one slice of six bytes is marked. -/
theorem w6xRtpSenderSessionSendH264_marked_slice :
    FrameMarked platformOk streamSender
      [0x00, 0x00, 0x01, 0x65, 0x88, 0x84, 0x21, 0xA0, 0x80] 0 0 0
      (streamWorld streamSession) :=
  (w6xRtpSenderSessionSendH264_marked_iff 0 0 0 (by decide) (by decide)
    ⟨rfl, by decide⟩ (by decide) (by decide) allSent_platformOk
    (show (units [0x00, 0x00, 0x01, 0x65, 0x88, 0x84, 0x21, 0xA0,
        0x80]).getLast? = some (0x65 :: [0x88, 0x84, 0x21, 0xA0, 0x80]) by
      rw [units_drop_startCode (by decide), units_of_none
        (show splitStartCode _ =
          ([0x65, 0x88, 0x84, 0x21, 0xA0, 0x80], none) by decide)]
      rfl)
    (by decide)).mpr
      ((longTail_of_none (show splitStartCode _ =
        ([0x65, 0x88, 0x84, 0x21, 0xA0, 0x80], none) by decide)).mpr
          (by decide))

/-- A picture of two slices, the last one of four bytes: the only packet sent
is not marked. -/
theorem w6xRtpSenderSessionSendH264_unmarked_short_slice :
    (units [0x00, 0x00, 0x01, 0x61, 0x9A, 0x02, 0x0C, 0x80,
        0x00, 0x00, 0x01, 0x61, 0xE0, 0x40, 0x80]).getLast? =
      some (0x61 :: [0xE0, 0x40, 0x80]) ∧ CarriesMarker 0x61 ∧
    ¬ FrameMarked platformOk streamSender
      [0x00, 0x00, 0x01, 0x61, 0x9A, 0x02, 0x0C, 0x80,
        0x00, 0x00, 0x01, 0x61, 0xE0, 0x40, 0x80] 0 0 0
      (streamWorld streamSession) := by
  have hfirst : splitStartCode [0x61, 0x9A, 0x02, 0x0C, 0x80,
      0x00, 0x00, 0x01, 0x61, 0xE0, 0x40, 0x80] =
    ([0x61, 0x9A, 0x02, 0x0C, 0x80], some [0x61, 0xE0, 0x40, 0x80]) := by decide
  have hsecond : splitStartCode [0x61, 0xE0, 0x40, 0x80] =
    ([0x61, 0xE0, 0x40, 0x80], none) := by decide
  refine ⟨?_, by decide, ?_⟩
  · rw [units_drop_startCode (by decide)]
    exact congrArg List.getLast?
      ((units_of_some hfirst).trans (congrArg _ (units_of_none hsecond)))
  · apply not_frameMarked_of_not_longTail 0 0 0 (by decide) (by decide)
      ⟨rfl, by decide⟩ (by decide) (by decide) allSent_platformOk
    intro htail
    have hrest := (longTail_of_some hfirst).mp htail
    rw [if_neg (by decide), longTail_of_none hsecond] at hrest
    exact absurd hrest (by decide)

end RtpMulticast
