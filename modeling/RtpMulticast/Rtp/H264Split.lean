import RtpMulticast.Rtp.H264

/-!
# Which frames the start code scan splits without loss

The scan of `w6x_rtp_sender_session_send_h264` is compared with the units of
the Annex B stream.  It stops when at most four bytes are left and looks for
start codes only where four bytes can be read.  Hence a last unit of at most
four bytes is never sent, and a three-byte start code that ends the frame
stays in the unit before it; on all other frames the scan is exact.
-/

namespace RtpMulticast

open ByteBuffer AnnexB

/-! ## The scan as a function of the remaining bytes -/

theorem h264StartCode_eq {frame : Bytes} {head : ℕ}
    (hroom : head + 4 ≤ frame.length) :
    h264StartCode frame head = .ok (startCodeSize (frame.drop head)) := by
  have hlen : 4 ≤ (frame.drop head).length := by
    rw [List.length_drop]
    omega
  obtain ⟨b₀, b₁, b₂, b₃, s, hs⟩ : ∃ b₀ b₁ b₂ b₃ s,
      frame.drop head = b₀ :: b₁ :: b₂ :: b₃ :: s := by
    match hdrop : frame.drop head, hlen with
    | b₀ :: b₁ :: b₂ :: b₃ :: s, _ => exact ⟨b₀, b₁, b₂, b₃, s, rfl⟩
  have hload (k : ℕ) : loadU8 frame (head + k) =
      loadU8 (b₀ :: b₁ :: b₂ :: b₃ :: s) k := by
    rw [← hs, loadU8_drop]
  have hload₀ := hload 0
  rw [Nat.add_zero] at hload₀
  simp only [h264StartCode, hload₀, hload, hs]
  by_cases h₀ : b₀ = 0
  · by_cases h₁ : b₁ = 0
    · by_cases h₂ : b₂ = 0
      · by_cases h₃ : b₃ = 1
        · simp [loadU8, startCodeSize, h₀, h₁, h₂, h₃]
        · simp [loadU8, startCodeSize, h₀, h₁, h₂, h₃]
      · by_cases h₃ : b₂ = 1
        · simp [loadU8, startCodeSize, h₀, h₁, h₃]
        · simp [loadU8, startCodeSize, h₀, h₁, h₂, h₃]
    · simp [loadU8, startCodeSize, h₀, h₁]
  · simp [loadU8, startCodeSize, h₀]

/-- One scan from the front of `s`: the unit, its marker and what is left. -/
def scanUnit (s : Bytes) : Bytes × UInt8 × Bytes :=
  match splitStartCode s with
  | (run, some rest) =>
      if run.length + 4 ≤ s.length then (run, 0, rest) else (s, 1, [])
  | (_, none) => (s, 1, [])

theorem scanUnit_of_code {s : Bytes} (hlen : 4 ≤ s.length)
    (hcode : startCodeSize s ≠ 0) :
    scanUnit s = ([], 0, s.drop (startCodeSize s)) := by
  match s with
  | b :: s =>
      simp only [scanUnit, splitStartCode, hcode, if_false, List.length_nil,
        Nat.zero_add, hlen, if_true]

theorem scanUnit_cons {b : UInt8} {s : Bytes}
    (hcode : startCodeSize (b :: s) = 0) :
    scanUnit (b :: s) =
      (b :: (scanUnit s).1, (scanUnit s).2.1, (scanUnit s).2.2) := by
  simp only [scanUnit, splitStartCode, hcode, if_true]
  rcases hsplit : splitStartCode s with ⟨run, _ | rest⟩
  · rfl
  · by_cases hroom : run.length + 4 ≤ s.length
    · simp [hroom]
    · simp [hroom]

theorem scanUnit_of_short {b : UInt8} {s : Bytes}
    (hlen : (b :: s).length = 4) (hcode : startCodeSize (b :: s) = 0) :
    scanUnit (b :: s) = (b :: s, 1, []) := by
  simp only [scanUnit, splitStartCode, hcode, if_true]
  rcases hsplit : splitStartCode s with ⟨run, _ | rest⟩
  · rfl
  · simp only [hlen, List.length_cons]
    rw [if_neg (by omega)]

/-- The unit is the front of the bytes scanned and what is left is their
end. -/
theorem scanUnit_parts (s : Bytes) :
    s.take (scanUnit s).1.length = (scanUnit s).1 ∧ (scanUnit s).2.2 <:+ s := by
  unfold scanUnit
  rcases hsplit : splitStartCode s with ⟨run, _ | rest⟩
  · exact ⟨List.take_length, List.nil_suffix⟩
  · by_cases hroom : run.length + 4 ≤ s.length
    · simp only [hroom, if_true]
      rcases splitStartCode_some hsplit with hs | hs
      · exact ⟨by rw [hs]; simp, ⟨run ++ [0, 0, 1], hs.symm⟩⟩
      · exact ⟨by rw [hs]; simp, ⟨run ++ [0, 0, 0, 1], hs.symm⟩⟩
    · simp only [hroom, if_false]
      exact ⟨List.take_length, List.nil_suffix⟩

theorem scanUnit_rest_length {s : Bytes} (hlen : 0 < s.length) :
    (scanUnit s).2.2.length < s.length := by
  unfold scanUnit
  rcases hsplit : splitStartCode s with ⟨run, _ | rest⟩
  · exact hlen
  · have hrest := splitStartCode_length hsplit
    by_cases hroom : run.length + 4 ≤ s.length
    · simp only [hroom, if_true]
      omega
    · simp only [hroom, if_false]
      exact hlen

theorem h264ScanNal_eq (frame : Bytes) (nalFrame head : ℕ)
    (hle : nalFrame ≤ head) (hroom : head + 4 ≤ frame.length) :
    h264ScanNal frame nalFrame head =
      .ok ⟨head - nalFrame + (scanUnit (frame.drop head)).1.length,
        (scanUnit (frame.drop head)).2.1,
        frame.length - (scanUnit (frame.drop head)).2.2.length⟩ := by
  induction hrest : frame.length - head using Nat.strong_induction_on
    generalizing head with
  | _ rest ih =>
      have hhead : head < frame.length := by omega
      have hcons : frame.drop head = frame[head] :: frame.drop (head + 1) :=
        List.drop_eq_getElem_cons hhead
      have hlen : (frame.drop head).length = frame.length - head :=
        List.length_drop
      rw [h264ScanNal, h264StartCode_eq hroom, ok_bind]
      by_cases hcode : startCodeSize (frame.drop head) = 0
      · simp only [hcode, ne_eq, not_true_eq_false, if_false]
        rw [hcons] at hcode hlen
        by_cases hend : frame.length ≤ head + 4
        · rw [dif_pos hend, hcons, scanUnit_of_short (by omega) hcode]
          simp only [pure_eq_ok, hlen, List.length_nil, Except.ok.injEq,
            NalScan.mk.injEq, Nat.sub_zero, and_true]
          omega
        · rw [dif_neg hend, ih _ (by omega) (head + 1) (by omega) (by omega) rfl,
            hcons,
            scanUnit_cons hcode]
          simp only [List.length_cons, Except.ok.injEq, NalScan.mk.injEq,
            and_true]
          omega
      · simp only [hcode, ne_eq, not_false_eq_true, if_true, pure_eq_ok]
        rw [scanUnit_of_code (by omega) hcode]
        simp only [List.length_nil, Nat.add_zero, List.length_drop,
          Except.ok.injEq, NalScan.mk.injEq, true_and]
        rcases startCodeSize_cases (frame.drop head) with h | ⟨h, -⟩ | ⟨h, -⟩
        all_goals omega

/-- What is left behind a unit, as a position in the frame. -/
theorem drop_scanUnit_rest (frame : Bytes) (head : ℕ) :
    frame.drop (frame.length - (scanUnit (frame.drop head)).2.2.length) =
      (scanUnit (frame.drop head)).2.2 :=
  (List.suffix_iff_eq_drop.mp ((scanUnit_parts (frame.drop head)).2.trans
    (List.drop_suffix head frame))).symm

/-- One turn of the outer loop: the scanned unit is handed over and the loop
goes on behind it. -/
theorem h264Loop_of_more (call : H264Call) {head : ℕ}
    (hmore : head + 4 < call.frame.length) (w : World) :
    h264Loop call head w = (do
      let (status, w) ← h264SendNal call head
        (scanUnit (call.frame.drop head)).1.length
        (scanUnit (call.frame.drop head)).2.1 w
      if status ≠ .ok then
        return (status, w)
      h264Loop call (call.frame.length -
        (scanUnit (call.frame.drop head)).2.2.length) w) := by
  have hscan := h264ScanNal_eq call.frame head head le_rfl
    (Nat.le_of_lt hmore)
  rw [h264Loop, dif_pos hmore]
  split
  next fault hfault =>
    rw [hscan] at hfault
    cases hfault
  next scan hresult =>
    rw [hscan] at hresult
    obtain rfl := Except.ok.inj hresult
    rw [Nat.sub_self, Nat.zero_add]

/-- The units the outer loop hands over from the remaining bytes `s`. -/
def scanRuns (s : Bytes) : List Bytes :=
  if _hmore : 4 < s.length then
    (scanUnit s).1 :: scanRuns (scanUnit s).2.2
  else []
termination_by s.length
decreasing_by exact scanUnit_rest_length (by omega)

/-- The outer loop returns.  When every socket send succeeds it has handed over
exactly the scanned units. -/
theorem h264Loop_total (call : H264Call)
    (hlimit : 3 ≤ call.sender.rtpPayloadMaxSize) (head : ℕ) {w : World}
    (hid : w.session.id = rtpSessionId) :
    ∃ status w', h264Loop call head w = .ok (status, w') ∧
      (AllSent call.platform → status = .ok ∧
        w'.nalUnits = w.nalUnits ++ scanRuns (call.frame.drop head)) := by
  induction hrest : call.frame.length - head using Nat.strong_induction_on
    generalizing head w with
  | _ rest ih =>
      have hlen : (call.frame.drop head).length = call.frame.length - head :=
        List.length_drop
      by_cases hmore : head + 4 < call.frame.length
      · have hunit := (scanUnit_parts (call.frame.drop head)).1
        have hshort := scanUnit_rest_length
          (s := call.frame.drop head) (by omega)
        have htake := congrArg List.length hunit
        rw [List.length_take] at htake
        obtain ⟨status, w₁, hnal, hid₁, hunits, hok⟩ := h264SendNal_total call
          hlimit head (scanUnit (call.frame.drop head)).1.length
          (scanUnit (call.frame.drop head)).2.1 (w := w)
          (by omega) (by omega) hid
        obtain ⟨status', w', hloop, hunits'⟩ := ih
          (call.frame.length - (call.frame.length -
            (scanUnit (call.frame.drop head)).2.2.length)) (by omega)
          _ (w := w₁) hid₁ rfl
        rw [h264Loop_of_more call hmore, hnal, ok_bind, scanRuns,
          dif_pos (by omega)]
        by_cases hstatus : status = .ok
        · simp only [hstatus, ne_eq, not_true_eq_false, if_false]
          refine ⟨status', w', hloop, ?_⟩
          intro hsent
          obtain ⟨hstatus', hhanded⟩ := hunits' hsent
          refine ⟨hstatus', ?_⟩
          rw [hhanded, hunits, hunit, drop_scanUnit_rest]
          simp
        · simp only [hstatus, ne_eq, not_false_eq_true, if_true]
          refine ⟨status, w₁, rfl, ?_⟩
          intro hsent
          exact absurd (hok hsent) hstatus
      · rw [h264Loop, scanRuns, dif_neg hmore, dif_neg (by omega)]
        exact ⟨.ok, w, rfl, fun _ => ⟨rfl, by simp⟩⟩

/-! ## Comparison with the units of the stream -/

/-- The end of a frame, seen from the bytes `s` behind a start code, is one
the scan can handle: the bytes behind the last start code are none or more
than four, and a three-byte start code that ends the frame stands directly
behind the start code before it. -/
def TailSeen (s : Bytes) : Prop :=
  match _h : splitStartCode s with
  | (run, none) => run = [] ∨ 4 < run.length
  | (run, some rest) =>
      if rest = [] ∧ run.length + 3 = s.length then run = []
      else TailSeen rest
termination_by s.length
decreasing_by
  have hlen := splitStartCode_length _h
  omega

theorem tailSeen_of_none {s run : Bytes}
    (h : splitStartCode s = (run, none)) :
    TailSeen s ↔ run = [] ∨ 4 < run.length := by
  rw [TailSeen]
  split
  next run' h' => simp_all
  next run' rest h' => simp [h] at h'

theorem tailSeen_of_some {s run rest : Bytes}
    (h : splitStartCode s = (run, some rest)) :
    TailSeen s ↔ if rest = [] ∧ run.length + 3 = s.length then run = []
      else TailSeen rest := by
  rw [TailSeen]
  split
  next run' h' => simp [h] at h'
  next run' rest' h' => simp_all

theorem units_of_none {s run : Bytes} (h : splitStartCode s = (run, none)) :
    units s = if run = [] then [] else [run] := by
  rw [units, runs_of_none h]
  by_cases hrun : run = []
  · simp [hrun]
  · simp [hrun]

theorem units_of_some {s run rest : Bytes}
    (h : splitStartCode s = (run, some rest)) :
    units s = [run].filter (· ≠ []) ++ units rest := by
  rw [units, runs_of_some h, units, ← List.filter_append]
  rfl

theorem units_nil : units [] = [] := by
  rw [units_of_none (show splitStartCode [] = ([], none) from rfl), if_pos rfl]

/-- With at most four bytes left the scan hands over nothing; this loses
nothing exactly when the end of the frame is one it can handle. -/
theorem units_eq_nil_iff_of_short {s : Bytes} (hlen : s.length ≤ 4) :
    units s = [] ↔ TailSeen s := by
  induction hn : s.length using Nat.strong_induction_on generalizing s with
  | _ n ih =>
      rcases hsplit : splitStartCode s with ⟨run, _ | rest⟩
      · rw [units_of_none hsplit, tailSeen_of_none hsplit,
          splitStartCode_none hsplit]
        by_cases hs : s = []
        · simp [hs]
        · simp only [hs, if_false, false_or]
          constructor
          · intro h
            cases h
          · intro h
            omega
      · have hrest := splitStartCode_length hsplit
        rw [units_of_some hsplit, tailSeen_of_some hsplit]
        by_cases hend : rest = [] ∧ run.length + 3 = s.length
        · rw [if_pos hend, hend.1, units_nil]
          by_cases hrun : run = []
          · simp [hrun]
          · simp [hrun]
        · have hrun : run = [] := by
            rcases splitStartCode_some hsplit with hs | hs
            all_goals
              have hparts := congrArg List.length hs
              simp only [List.length_append, List.length_cons,
                List.length_nil] at hparts
              apply List.eq_nil_of_length_eq_zero
              by_contra hne
              apply hend
              refine ⟨List.eq_nil_of_length_eq_zero ?_, ?_⟩
              all_goals omega
          rw [if_neg hend, hrun]
          simpa using ih rest.length (by omega) (by omega) rfl

/-- The scan hands over exactly the units of the stream when the end of the
frame is one it can handle, and only then. -/
theorem scanRuns_filter_eq_units_iff (s : Bytes) :
    (scanRuns s).filter (· ≠ []) = units s ↔ TailSeen s := by
  induction hn : s.length using Nat.strong_induction_on generalizing s with
  | _ n ih =>
      by_cases hmore : 4 < s.length
      · rw [scanRuns, dif_pos hmore, scanUnit]
        have hnil : scanRuns [] = [] := by
          rw [scanRuns, dif_neg (by simp)]
        rcases hsplit : splitStartCode s with ⟨run, _ | rest⟩
        · obtain rfl := splitStartCode_none hsplit
          have hne : run ≠ [] := List.ne_nil_of_length_pos (by omega)
          simp [units_of_none hsplit, tailSeen_of_none hsplit, hnil, hne,
            hmore]
        · have hrest := splitStartCode_length hsplit
          rw [units_of_some hsplit, tailSeen_of_some hsplit]
          by_cases hroom : run.length + 4 ≤ s.length
          · rw [if_neg (by omega), ← ih rest.length (by omega) rest rfl]
            simp only [hroom, if_true]
            rw [show run :: scanRuns rest = [run] ++ scanRuns rest from rfl,
              List.filter_append, List.append_cancel_left_eq]
          · -- A three-byte start code ends the frame: its bytes stay in the
            -- unit.
            have hempty : rest = [] :=
              List.eq_nil_of_length_eq_zero (by omega)
            have hrun : run ≠ [] := List.ne_nil_of_length_pos (by omega)
            have hne : s ≠ [] := List.ne_nil_of_length_pos (by omega)
            have hdiff : s ≠ run := by
              intro h
              rw [← h] at hroom
              have hlen := splitStartCode_length hsplit
              rw [← h] at hlen
              omega
            rw [if_pos ⟨hempty, by omega⟩]
            simp [hroom, hnil, hempty, units_nil, hrun, hne, hdiff]
      · rw [scanRuns, dif_neg hmore]
        rw [← units_eq_nil_iff_of_short (Nat.not_lt.mp hmore)]
        exact eq_comm

/-! ## Frames -/

/-- The call returns `ok` and the nonempty byte strings it hands to the
transmit branches are the units of the frame, in order. -/
def LosslessSplit (platform : Platform) (sender : Sender) (frame : Bytes)
    (timestamp ntpMsw ntpLsw : UInt32) (w : World) : Prop :=
  ∃ w' handed,
    w6xRtpSenderSessionSendH264 platform (some sender) (some frame)
      timestamp ntpMsw ntpLsw 1 w = .ok (.ok, w') ∧
    w'.nalUnits = w.nalUnits ++ handed ∧
    handed.filter (· ≠ []) = units frame

theorem units_drop_startCode {frame : Bytes}
    (hstart : startCodeSize frame ≠ 0) :
    units frame = units (frame.drop (startCodeSize frame)) := by
  have hsplit : splitStartCode frame =
      ([], some (frame.drop (startCodeSize frame))) := by
    match frame with
    | [] => exact absurd rfl hstart
    | b :: s => rw [splitStartCode, if_neg hstart]
  rw [units_of_some hsplit]
  simp

theorem w6xRtpSenderSessionSendH264_eq (platform : Platform) (sender : Sender)
    (frame : Bytes) (timestamp ntpMsw ntpLsw : UInt32) {w : World}
    (hid : w.session.id = rtpSessionId) (hsize : 4 < frame.length)
    (hstart : startCodeSize frame ≠ 0) :
    w6xRtpSenderSessionSendH264 platform (some sender) (some frame)
        timestamp ntpMsw ntpLsw 1 w =
      h264Loop ⟨platform, sender, frame, timestamp, ntpMsw, ntpLsw⟩
        (startCodeSize frame) w := by
  have hcode : h264StartCode frame 0 = .ok (startCodeSize frame) :=
    h264StartCode_eq (by omega)
  simp only [w6xRtpSenderSessionSendH264, hid, ne_eq, not_true_eq_false,
    false_or, or_false]
  rw [if_neg (by omega), hcode, ok_bind, if_neg hstart]

/-- An accepted frame is split without loss exactly when the scan can handle
its end. -/
theorem w6xRtpSenderSessionSendH264_lossless_iff
    (platform : Platform) (sender : Sender) (frame : Bytes)
    (timestamp ntpMsw ntpLsw : UInt32) (w : World)
    (hlimit : 3 ≤ sender.rtpPayloadMaxSize)
    (hid : w.session.id = rtpSessionId) (hsize : 4 < frame.length)
    (hstart : startCodeSize frame ≠ 0) (hsent : AllSent platform) :
    LosslessSplit platform sender frame timestamp ntpMsw ntpLsw w ↔
      TailSeen (frame.drop (startCodeSize frame)) := by
  obtain ⟨status, w', hloop, hhanded⟩ := h264Loop_total
    ⟨platform, sender, frame, timestamp, ntpMsw, ntpLsw⟩
    hlimit (startCodeSize frame) hid
  obtain ⟨rfl, hunits⟩ := hhanded hsent
  rw [← scanRuns_filter_eq_units_iff, ← units_drop_startCode hstart]
  have heq := w6xRtpSenderSessionSendH264_eq platform sender frame timestamp
    ntpMsw ntpLsw hid hsize hstart
  constructor
  · rintro ⟨w'', handed, hcall, hhanded, hfilter⟩
    rw [heq, hloop] at hcall
    obtain rfl : w' = w'' := congrArg Prod.snd (Except.ok.inj hcall)
    rw [hunits, List.append_cancel_left_eq] at hhanded
    rw [← hfilter, hhanded]
  · intro hfilter
    exact ⟨w', _, heq.trans hloop, hunits, hfilter⟩

/-- Two parameter sets, the second of four bytes, and a slice. -/
def intraFrame : Bytes :=
  [0x00, 0x00, 0x00, 0x01, 0x67, 0x42, 0x00, 0x1E, 0x8B,
    0x00, 0x00, 0x00, 0x01, 0x68, 0xCE, 0x3C, 0x80,
    0x00, 0x00, 0x01, 0x65, 0x88, 0x84, 0x21, 0xA0, 0x10]

theorem tailSeen_intraFrame : TailSeen (intraFrame.drop (startCodeSize intraFrame)) := by
  have hfirst : splitStartCode (intraFrame.drop (startCodeSize intraFrame)) =
      ([0x67, 0x42, 0x00, 0x1E, 0x8B], some (intraFrame.drop 13)) := by decide
  have hsecond : splitStartCode (intraFrame.drop 13) =
      ([0x68, 0xCE, 0x3C, 0x80], some (intraFrame.drop 20)) := by decide
  have hlast : splitStartCode (intraFrame.drop 20) =
      ([0x65, 0x88, 0x84, 0x21, 0xA0, 0x10], none) := by decide
  rw [tailSeen_of_some hfirst, if_neg (by decide), tailSeen_of_some hsecond,
    if_neg (by decide), tailSeen_of_none hlast]
  exact Or.inr (by decide)

theorem w6xRtpSenderSessionSendH264_lossless_intraFrame :
    LosslessSplit platformOk streamSender intraFrame 0 0 0
      (streamWorld streamSession) :=
  (w6xRtpSenderSessionSendH264_lossless_iff platformOk streamSender intraFrame 0 0 0
    (streamWorld streamSession) (by decide) rfl (by decide) (by decide)
    allSent_platformOk).mpr tailSeen_intraFrame

/-- The picture parameter set `68 CE 3C 80` behind a start code is not sent:
the outer loop ends before it. -/
theorem w6xRtpSenderSessionSendH264_loses_short_unit :
    ¬ LosslessSplit platformOk streamSender
      [0x00, 0x00, 0x00, 0x01, 0x68, 0xCE, 0x3C, 0x80] 0 0 0
      (streamWorld streamSession) := by
  rintro ⟨w', handed, hcall, hhanded, hfilter⟩
  rw [w6xRtpSenderSessionSendH264_eq _ _ _ _ _ _ rfl (by decide) (by decide),
    h264Loop, dif_neg (by decide)] at hcall
  obtain rfl := congrArg Prod.snd (Except.ok.inj hcall)
  have hnone : handed = [] := by simpa using hhanded
  have hunit : units [0x00, 0x00, 0x00, 0x01, 0x68, 0xCE, 0x3C, 0x80] =
      [[0x68, 0xCE, 0x3C, 0x80]] := by
    rw [units_drop_startCode (by decide),
      units_of_none (show splitStartCode _ =
        ([0x68, 0xCE, 0x3C, 0x80], none) by decide)]
    rfl
  rw [hnone, hunit] at hfilter
  cases hfilter

end RtpMulticast
