import RtpMulticast.Rtp.H264Split

/-!
# The scan stays in the frame

`w6x_rtp_sender_session_send_h264` reads four bytes ahead of a pointer that two
nested loops move, and tests the distance to the end in places of its own.  At
every position the pointer takes the four bytes lie in the frame and the start
of the unit is not behind the pointer, so no size wraps; each unit ends in the
frame and the pointer behind it is further on.
-/

namespace RtpMulticast

open ByteBuffer AnnexB

/-- The positions of the inner loop: the unit under way begins at `nalFrame`
and `head` is read next. -/
inductive ScanAt (frame : Bytes) : ℕ → ℕ → Prop
  /-- The outer loop is entered behind the start code of the frame. -/
  | first {head : ℕ} : h264StartCode frame 0 = .ok head → head ≠ 0 →
      head + 4 < frame.length → ScanAt frame head head
  /-- Neither a start code nor the last bytes: move to the next byte. -/
  | next {nalFrame head : ℕ} : ScanAt frame nalFrame head →
      h264StartCode frame head = .ok 0 → ¬ frame.length ≤ head + 4 →
        ScanAt frame nalFrame (head + 1)
  /-- A start code ends the unit and the outer loop goes on behind it. -/
  | unit {nalFrame head code : ℕ} : ScanAt frame nalFrame head →
      h264StartCode frame head = .ok code → code ≠ 0 →
        head + code + 4 < frame.length →
          ScanAt frame (head + code) (head + code)

/-- What the loops rely on at a position: sizes that do not wrap, four readable
bytes, and a unit inside the frame behind which the scan goes on. -/
structure ScanInBounds (frame : Bytes) (nalFrame head : ℕ) : Prop where
  start_le : nalFrame ≤ head
  lookahead : head + 4 ≤ frame.length
  unit : ∃ scan, h264ScanNal frame nalFrame head = .ok scan ∧
    nalFrame + scan.nalSize ≤ frame.length ∧
      head < scan.head ∧ scan.head ≤ frame.length

theorem ScanAt.start_le {frame : Bytes} {nalFrame head : ℕ}
    (h : ScanAt frame nalFrame head) : nalFrame ≤ head := by
  induction h with
  | first _ _ _ => exact le_rfl
  | next _ _ _ ih => exact ih.trans (Nat.le_succ _)
  | unit _ _ _ _ _ => exact le_rfl

theorem ScanAt.lookahead {frame : Bytes} {nalFrame head : ℕ}
    (h : ScanAt frame nalFrame head) : head + 4 ≤ frame.length := by
  cases h with
  | first _ _ hmore => exact Nat.le_of_lt hmore
  | next _ _ hend => omega
  | unit _ _ _ hmore => exact Nat.le_of_lt hmore

theorem ScanAt.inBounds {frame : Bytes} {nalFrame head : ℕ}
    (h : ScanAt frame nalFrame head) : ScanInBounds frame nalFrame head := by
  have hle := h.start_le
  have hroom := h.lookahead
  have hscan := h264ScanNal_eq frame nalFrame head hle hroom
  refine ⟨hle, hroom, _, hscan, ?_, ?_, Nat.sub_le _ _⟩
  · have hunit := congrArg List.length (scanUnit_parts (frame.drop head)).1
    rw [List.length_take, List.length_drop] at hunit
    simp only
    omega
  · exact h264ScanNal_progress (by omega) hscan

/-- The start code at the front is read inside the frame. -/
theorem h264StartCode_zero {frame : Bytes} (hsize : 4 < frame.length) :
    h264StartCode frame 0 = .ok (startCodeSize frame) :=
  h264StartCode_eq (by omega)

/-- The call returns for every frame, whatever the sockets answer. -/
theorem w6xRtpSenderSessionSendH264_total (platform : Platform)
    (sender : Sender) (frame : Bytes) (timestamp ntpMsw ntpLsw : UInt32)
    (marker : UInt8) (w : World) (hlimit : 3 ≤ sender.rtpPayloadMaxSize) :
    ∃ status w', w6xRtpSenderSessionSendH264 platform (some sender)
      (some frame) timestamp ntpMsw ntpLsw marker w = .ok (status, w') := by
  simp only [w6xRtpSenderSessionSendH264]
  by_cases hrefused : w.session.id ≠ rtpSessionId ∨ frame.length ≤ 4 ∨ marker ≠ 1
  · rw [if_pos hrefused]
    exact ⟨_, w, rfl⟩
  · rw [if_neg hrefused]
    simp only [not_or, ne_eq, not_not, not_le] at hrefused
    obtain ⟨hid, hsize, -⟩ := hrefused
    rw [h264StartCode_zero hsize, ok_bind]
    by_cases hcode : startCodeSize frame = 0
    · rw [if_pos hcode]
      exact ⟨_, w, rfl⟩
    · rw [if_neg hcode]
      obtain ⟨status, w', hloop, -⟩ := h264Loop_total
        ⟨platform, sender, frame, timestamp, ntpMsw, ntpLsw⟩ hlimit
        (startCodeSize frame) hid
      exact ⟨status, w', hloop⟩

/-- The call returns for every frame: no read or write leaves its object, no
size wraps and both loops end, whatever the sockets answer. -/
theorem w6xRtpSenderSessionSendH264_inBounds (platform : Platform)
    (sender : Sender) (frame : Bytes) (timestamp ntpMsw ntpLsw : UInt32)
    (marker : UInt8) (w : World) (hlimit : 3 ≤ sender.rtpPayloadMaxSize) :
    (∃ status w', w6xRtpSenderSessionSendH264 platform (some sender)
        (some frame) timestamp ntpMsw ntpLsw marker w = .ok (status, w')) ∧
      ∀ nalFrame head, ScanAt frame nalFrame head →
        ScanInBounds frame nalFrame head :=
  ⟨w6xRtpSenderSessionSendH264_total platform sender frame timestamp ntpMsw
    ntpLsw marker w hlimit, fun _ _ hat => hat.inBounds⟩

/-- The frame of two units with a start code across its last bytes. -/
theorem w6xRtpSenderSessionSendH264_inBounds_two_units :
    (∃ status w', w6xRtpSenderSessionSendH264 platformOk (some streamSender)
        (some [0, 0, 1, 0x67, 0x42, 0, 0, 1, 0x65, 0x88, 0x84, 0, 0, 1]) 0 0 0 1
        (streamWorld streamSession) = .ok (status, w')) ∧
      ∀ nalFrame head,
        ScanAt [0, 0, 1, 0x67, 0x42, 0, 0, 1, 0x65, 0x88, 0x84, 0, 0, 1]
          nalFrame head →
        ScanInBounds [0, 0, 1, 0x67, 0x42, 0, 0, 1, 0x65, 0x88, 0x84, 0, 0, 1]
          nalFrame head :=
  w6xRtpSenderSessionSendH264_inBounds platformOk streamSender
    [0, 0, 1, 0x67, 0x42, 0, 0, 1, 0x65, 0x88, 0x84, 0, 0, 1] 0 0 0 1
    (streamWorld streamSession) (by decide)

end RtpMulticast
