import Mathlib.Data.Int.ModEq
import Mathlib.Data.List.Chain
import Mathlib.Tactic.Linarith
import Mathlib.Tactic.NormNum
import Mathlib.Tactic.Ring
import RtpMulticast.Streaming.StreamTask

/-!
# The RTP timestamps of the stream

The loop carries one timestamp from call to call: behind a splash frame it goes
up by a constant, and behind a camera frame it is computed from the tick count
of that frame with the frame rate as its clock.  A receiver expects the 90 kHz
clock that the NTP pairs of the same calls count in.  The two agree between two
consecutive calls under the conditions of `KeepsClock`, and only then.
-/

namespace RtpMulticast

open Streaming

/-! ## Consecutive calls -/

/-- Ticks from call `c` to call `c'`. -/
def elapsed (c c' : FrameCall) : ℕ := c'.ticks.toNat - c.ticks.toNat

/-- The second call is not earlier than the first, and within half the range
of the RTP timestamps. -/
def ClockComparable (c c' : FrameCall) : Prop :=
  c.ticks ≤ c'.ticks ∧
    90000 * elapsed c c' < 2 ^ 31 * configTickRateHz.toNat

/-- The RTP timestamps of two calls differ by the time between their NTP pairs
in units of a 90 kHz clock, rounded. -/
def OneClock (c c' : FrameCall) : Prop :=
  ClockComparable c c' →
    ∃ d : ℤ,
      |d * configTickRateHz.toNat - 90000 * elapsed c c'| ≤
        configTickRateHz.toNat ∧
      (c'.timestamp.toNat : ℤ) - c.timestamp.toNat ≡ d [ZMOD 2 ^ 32]

/-- A splash frame is followed exactly 200 ticks later; behind a camera frame
the frame count at its tick is ahead of the timestamp it was sent with by the
ticks to the next call, in 90 kHz units and up to one. -/
def KeepsClock (fps : UInt32) (c c' : FrameCall) : Prop :=
  ClockComparable c c' →
    match c.content with
    | none => elapsed c c' = 200
    | some _ =>
        ∃ e : ℤ, |e| ≤ 1 ∧
          ((c.ticks.toNat * fps.toNat / 1000 : ℕ) : ℤ) ≡
            c.timestamp.toNat + 90 * elapsed c c' + e [ZMOD 2 ^ 32]

/-- The timestamp the loop goes on with behind a call. -/
def FrameCall.next (fps : UInt32) (c : FrameCall) : UInt32 :=
  match c.content with
  | none => c.timestamp + splashIncrement
  | some _ => frameTimestamp fps c.ticks

/-! ## Runs of the loop -/

/-- The timestamp belongs to the latest call and is not updated yet. -/
def StreamPc.AfterCall : StreamPc → Prop
  | .splashSent _ | .sending _ => True
  | _ => False

/-- Each call carries the timestamp behind the call before it.  Between a call
and the update of the timestamp the latest call carries the timestamp;
elsewhere the timestamp is the one behind the latest call. -/
structure Streaming.Clocked (fps : UInt32) (s : Streaming) : Prop where
  chain : s.sends.IsChain fun c' c => c'.timestamp = c.next fps
  splashSent : ∀ start, s.stream = .splashSent start →
    s.sends.head? = some (frameCall none s.timestamp start)
  sending : ∀ frame, s.stream = .sending frame →
    s.sends.head? =
      some (frameCall (some frame.content) s.timestamp frame.timestamp)
  carries : ¬ s.stream.AfterCall →
    ∀ c ∈ s.sends.head?, s.timestamp = c.next fps

section Runs

variable {fps : UInt32} {s s' : Streaming}

/-- A step that neither calls the sender nor updates the timestamp. -/
theorem Streaming.Clocked.quiet (h : s.Clocked fps)
    (hstream : s'.stream = s.stream ∨
      ¬ s.stream.AfterCall ∧ ¬ s'.stream.AfterCall)
    (htimestamp : s'.timestamp = s.timestamp) (hsends : s'.sends = s.sends) :
    s'.Clocked fps := by
  rcases hstream with hstream | ⟨hbefore, hafter⟩
  · refine ⟨?_, ?_, ?_, ?_⟩
    · rw [hsends]
      exact h.chain
    · rw [hstream, hsends, htimestamp]
      exact h.splashSent
    · rw [hstream, hsends, htimestamp]
      exact h.sending
    · rw [hstream, hsends, htimestamp]
      exact h.carries
  · refine ⟨?_, ?_, ?_, ?_⟩
    · rw [hsends]
      exact h.chain
    · intro start hpc
      rw [hpc] at hafter
      exact absurd trivial hafter
    · intro frame hpc
      rw [hpc] at hafter
      exact absurd trivial hafter
    · rw [hsends, htimestamp]
      intro _
      exact h.carries hbefore

/-- A call with the timestamp behind the latest one. -/
theorem Streaming.Clocked.push (h : s.Clocked fps)
    (hbefore : ¬ s.stream.AfterCall) (content : Option Content)
    (ticks : UInt32) :
    (frameCall content s.timestamp ticks :: s.sends).IsChain
      fun c' c => c'.timestamp = c.next fps :=
  h.chain.cons (h.carries hbefore)

theorem streamStep_clocked (h : s.Clocked fps) (now : UInt32) :
    (streamStep fps s now).Clocked fps := by
  cases hpc : s.stream with
  | splash start =>
      have hbefore : ¬ s.stream.AfterCall := by
        rw [hpc]
        exact id
      simp only [streamStep, hpc]
      split
      · refine ⟨h.push hbefore none start, ?_, ?_, ?_⟩
        · rintro start' ⟨⟩
          rfl
        · rintro frame ⟨⟩
        · intro hafter
          exact absurd trivial hafter
      · exact h.quiet (Or.inr ⟨hbefore, id⟩) rfl rfl
  | splashSent start =>
      have hhead := h.splashSent start hpc
      simp only [streamStep, hpc]
      refine ⟨h.chain, ?_, ?_, ?_⟩
      · rintro start' ⟨⟩
      · rintro frame ⟨⟩
      · intro _ c hc
        rw [Option.mem_def, hhead] at hc
        cases hc
        rfl
  | handing frame =>
      have hbefore : ¬ s.stream.AfterCall := by
        rw [hpc]
        exact id
      simp only [streamStep, hpc]
      refine ⟨h.push hbefore (some frame.content) frame.timestamp, ?_, ?_, ?_⟩
      · rintro start ⟨⟩
      · rintro frame' ⟨⟩
        rfl
      · intro hafter
        exact absurd trivial hafter
  | sending frame =>
      have hhead := h.sending frame hpc
      simp only [streamStep, hpc]
      refine ⟨h.chain, ?_, ?_, ?_⟩
      · rintro start ⟨⟩
      · rintro frame' ⟨⟩
      · intro _ c hc
        rw [Option.mem_def, hhead] at hc
        cases hc
        rfl
  | _ =>
      -- Elsewhere the loop moves on, at most to another quiet place.
      refine h.quiet (Or.inr ⟨?_, ?_⟩) ?_ ?_
      · rw [hpc]
        exact id
      all_goals
        simp only [streamStep, hpc]
        repeat' split
      all_goals first | exact id | rfl

theorem streamingMachine_clocked
    (h : (streamingMachine fps).Reachable s) : s.Clocked fps := by
  have hinit : ∀ s, (streamingMachine fps).init s → s.Clocked fps := by
    rintro s ⟨-, -, hstream, -, -, -, hsends⟩
    refine ⟨?_, ?_, ?_, ?_⟩
    · rw [hsends]
      exact .nil
    · intro start hpc
      rw [hstream] at hpc
      cases hpc
    · intro frame hpc
      rw [hstream] at hpc
      cases hpc
    · intro _ c hc
      rw [hsends] at hc
      cases hc
  have hstep : ∀ s a s', s.Clocked fps → True →
      (streamingMachine fps).step s a = some s' → s'.Clocked fps := by
    intro s a s' hs _ hstep
    rcases streamingMachine_step_cases hstep with
      ⟨r, -, rfl⟩ | ⟨now, -, rfl⟩ | ⟨-, rfl⟩
    · exact hs.quiet (Or.inl rfl) rfl rfl
    · exact streamStep_clocked hs now
    · obtain ⟨rtp, pause, resume, toggle, heq, -⟩ := toggleStep_cases (s := s)
      rw [heq]
      exact hs.quiet (Or.inl rfl) rfl rfl
  exact Machine.ReachableVia.invariant hinit hstep h

end Runs

/-! ## When the clocks agree -/

section Clocks

variable {c c' : FrameCall}

/-- With 1000 ticks a second the expected difference is a whole number. -/
theorem oneClock_iff :
    OneClock c c' ↔ (ClockComparable c c' →
      ∃ e : ℤ, |e| ≤ 1 ∧ (c'.timestamp.toNat : ℤ) ≡
        c.timestamp.toNat + 90 * elapsed c c' + e [ZMOD 2 ^ 32]) := by
  have hrate : (configTickRateHz.toNat : ℤ) = 1000 := rfl
  unfold OneClock
  rw [hrate]
  refine imp_congr_right fun _ => ?_
  constructor
  · rintro ⟨d, hd, hmod⟩
    refine ⟨d - 90 * elapsed c c', ?_, ?_⟩
    · rw [abs_le] at hd ⊢
      constructor <;> omega
    · have hadd := hmod.add_left (c.timestamp.toNat : ℤ)
      convert hadd using 1 <;> ring
  · rintro ⟨e, he, hmod⟩
    refine ⟨90 * elapsed c c' + e, ?_, ?_⟩
    · rw [abs_le] at he ⊢
      constructor <;> omega
    · have hsub := hmod.sub_right (c.timestamp.toNat : ℤ)
      convert hsub using 1
      ring

theorem modEq_of_toNat_mod {x : UInt32} {n : ℕ} (h : x.toNat = n % 2 ^ 32) :
    (x.toNat : ℤ) ≡ n [ZMOD 2 ^ 32] := by
  rw [h, Int.natCast_mod]
  exact Int.mod_modEq _ _

theorem next_splash (fps : UInt32) (hcontent : c.content = none) :
    ((c.next fps).toNat : ℤ) ≡ c.timestamp.toNat + 18000 [ZMOD 2 ^ 32] := by
  have hnat : (c.next fps).toNat = (c.timestamp.toNat + 18000) % 2 ^ 32 := by
    rw [FrameCall.next, hcontent]
    exact UInt32.toNat_add _ _
  have hmod := modEq_of_toNat_mod hnat
  rw [Nat.cast_add] at hmod
  exact hmod

theorem next_camera (fps : UInt32) {content : Content}
    (hcontent : c.content = some content) :
    ((c.next fps).toNat : ℤ) ≡ (c.ticks.toNat * fps.toNat / 1000 : ℕ)
      [ZMOD 2 ^ 32] := by
  apply modEq_of_toNat_mod
  have hticks := c.ticks.toNat_lt
  have hfps := fps.toNat_lt
  have hprod : c.ticks.toNat * fps.toNat < 2 ^ 64 := by
    calc
      c.ticks.toNat * fps.toNat < 2 ^ 32 * 2 ^ 32 :=
        Nat.mul_lt_mul'' hticks hfps
      _ = 2 ^ 64 := by norm_num
  rw [FrameCall.next, hcontent]
  change (((c.ticks.toUInt64 * fps.toUInt64) /
    configTickRateHz.toUInt64).toUInt32).toNat = _
  rw [UInt64.toNat_toUInt32, UInt64.toNat_div, UInt64.toNat_mul,
    UInt32.toNat_toUInt64, UInt32.toNat_toUInt64, Nat.mod_eq_of_lt hprod]
  rfl

/-- Consecutive calls agree exactly when the clock is kept. -/
theorem oneClock_next_iff {fps : UInt32} (h : c'.timestamp = c.next fps) :
    OneClock c c' ↔ KeepsClock fps c c' := by
  rw [oneClock_iff, h, KeepsClock]
  refine imp_congr_right fun hcomparable => ?_
  have hrange := hcomparable.2
  cases hcontent : c.content with
  | none =>
      have hnext := next_splash fps hcontent
      have hrate : configTickRateHz.toNat = 1000 := rfl
      rw [hrate] at hrange
      constructor
      · rintro ⟨e, he, hmod⟩
        have hdiff := hnext.symm.trans hmod
        rw [add_assoc] at hdiff
        have hcancel := Int.ModEq.add_left_cancel' _ hdiff
        rw [abs_le] at he
        have hsmall : |90 * (elapsed c c' : ℤ) + e - 18000| < 2 ^ 32 := by
          rw [abs_lt]
          constructor <;> omega
        have hzero := Int.eq_zero_of_abs_lt_dvd hcancel.dvd hsmall
        change elapsed c c' = 200
        omega
      · intro helapsed
        refine ⟨0, by simp, ?_⟩
        rw [helapsed]
        exact hnext
  | some content =>
      have hnext := next_camera fps hcontent
      constructor
      · rintro ⟨e, he, hmod⟩
        exact ⟨e, he, hnext.symm.trans hmod⟩
      · rintro ⟨e, he, hmod⟩
        exact ⟨e, he, hnext.trans hmod⟩

end Clocks

/-- In every run: the RTP timestamps of two consecutive calls differ by the
time between their NTP pairs exactly when the second call comes 200 ticks
behind a splash frame, or at the frame count's distance behind a camera
frame. -/
theorem streamingMachine_oneClock_iff {fps : UInt32} {s : Streaming}
    (h : (streamingMachine fps).Reachable s)
    {later earlier : List FrameCall} {c c' : FrameCall}
    (hsends : s.sends = later ++ c' :: c :: earlier) :
    OneClock c c' ↔ KeepsClock fps c c' := by
  have hchain := (streamingMachine_clocked h).chain
  rw [hsends] at hchain
  exact oneClock_next_iff hchain.right_of_append.rel

/-- Splash frames at ticks 200 and 400. -/
theorem streamingMachine_oneClock_splash :
    ∃ s c c', (streamingMachine cameraFps).Reachable s ∧
      s.sends = [c', c] ∧ c.ticks = 200 ∧ c'.ticks = 400 ∧
      (OneClock c c' ↔ KeepsClock cameraFps c c') := by
  have hrun : ((streamingMachine cameraFps).run newStreaming
      (.toggle :: List.replicate 7 (.stream 200) ++
        List.replicate 3 (.stream 400))).map (fun s => s.sends) =
      some [frameCall none 18000 400, frameCall none 0 200] := by
    decide +kernel
  obtain ⟨s, hs, hsends⟩ := Option.map_eq_some_iff.mp hrun
  have hreach : (streamingMachine cameraFps).Reachable s :=
    Machine.reachable_of_run (newStreaming_init _) _ hs
  have hsplit : s.sends =
      [] ++ frameCall none 18000 400 :: frameCall none 0 200 :: [] := hsends
  exact ⟨s, _, _, hreach, hsends, rfl, rfl,
    streamingMachine_oneClock_iff hreach hsplit⟩

/-- The header and the first picture of a stream, 33 ticks apart: the RTP
timestamps differ by 30 where 2970 units of a 90 kHz clock have passed. -/
theorem streamingMachine_not_oneClock :
    ∃ s later c c' earlier, (streamingMachine cameraFps).Reachable s ∧
      s.sends = later ++ c' :: c :: earlier ∧ ClockComparable c c' ∧
      ¬ OneClock c c' := by
  have hrun : ((streamingMachine cameraFps).run newStreaming
      (.stream 0 :: startEncoder 20 1000 ++ encodePicture 900 1033 ++
        handFrame ++ freeFrame ++ handFrame)).map (fun s => s.sends) =
      some [frameCall (some (.picture true 0)) 30 1033,
        frameCall (some .header) 0 1000] := by
    decide +kernel
  obtain ⟨s, hs, hsends⟩ := Option.map_eq_some_iff.mp hrun
  have hcomparable : ClockComparable (frameCall (some .header) 0 1000)
      (frameCall (some (.picture true 0)) 30 1033) := by
    refine ⟨?_, ?_⟩ <;> decide
  refine ⟨s, [], _, _, [], Machine.reachable_of_run (newStreaming_init _) _ hs,
    hsends, hcomparable, ?_⟩
  intro hclock
  obtain ⟨e, he, hmod⟩ := oneClock_iff.mp hclock hcomparable
  have hdiff : (30 : ℤ) ≡ 0 + 90 * 33 + e [ZMOD 2 ^ 32] := hmod
  rw [abs_le] at he
  obtain ⟨k, hk⟩ := hdiff.dvd
  omega

end RtpMulticast
