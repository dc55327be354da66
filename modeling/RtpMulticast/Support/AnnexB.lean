import RtpMulticast.Support.ByteBuffer
import Mathlib.Data.List.Infix

/-!
# Annex B byte streams

An Annex B stream separates its units by start codes, `00 00 01` or
`00 00 00 01`.  `runs` cuts a byte string at the start codes found from left
to right, the longer code being taken where both fit, and `units` keeps the
runs that are not empty.
-/

namespace AnnexB

open ByteBuffer

/-- Length of the start code at the front of `s`, zero when there is none. -/
def startCodeSize (s : Bytes) : ℕ :=
  if s.take 4 = [0, 0, 0, 1] then 4
  else if s.take 3 = [0, 0, 1] then 3
  else 0

/-- The bytes in front of the first start code, and the bytes behind it when
there is one. -/
def splitStartCode : Bytes → Bytes × Option Bytes
  | [] => ([], none)
  | b :: s =>
      if startCodeSize (b :: s) = 0 then
        (b :: (splitStartCode s).1, (splitStartCode s).2)
      else ([], some ((b :: s).drop (startCodeSize (b :: s))))

theorem startCodeSize_cases (s : Bytes) :
    startCodeSize s = 0 ∨
      (startCodeSize s = 3 ∧ s = [0, 0, 1] ++ s.drop 3) ∨
      (startCodeSize s = 4 ∧ s = [0, 0, 0, 1] ++ s.drop 4) := by
  unfold startCodeSize
  by_cases h₄ : s.take 4 = [0, 0, 0, 1]
  · refine Or.inr (Or.inr ⟨if_pos h₄, ?_⟩)
    rw [← h₄, List.take_append_drop]
  · by_cases h₃ : s.take 3 = [0, 0, 1]
    · refine Or.inr (Or.inl ⟨by rw [if_neg h₄, if_pos h₃], ?_⟩)
      rw [← h₃, List.take_append_drop]
    · exact Or.inl (by rw [if_neg h₄, if_neg h₃])

/-- What `splitStartCode` returns when it finds a start code. -/
theorem splitStartCode_some {s run rest : Bytes}
    (h : splitStartCode s = (run, some rest)) :
    s = run ++ [0, 0, 1] ++ rest ∨ s = run ++ [0, 0, 0, 1] ++ rest := by
  induction s generalizing run with
  | nil => simp [splitStartCode] at h
  | cons b s ih =>
      rw [splitStartCode] at h
      by_cases hcode : startCodeSize (b :: s) = 0
      · rw [if_pos hcode] at h
        obtain ⟨rfl, hrest⟩ := Prod.mk.inj h
        rcases ih (Prod.ext rfl hrest) with hs | hs
        · exact Or.inl (by simpa using hs)
        · exact Or.inr (by simpa using hs)
      · rw [if_neg hcode] at h
        obtain ⟨rfl, hrest⟩ := Prod.mk.inj h
        obtain rfl := Option.some.inj hrest
        rcases startCodeSize_cases (b :: s) with h₀ | ⟨h₃, hs⟩ | ⟨h₄, hs⟩
        · exact absurd h₀ hcode
        · rw [h₃]
          exact Or.inl (by simpa using hs)
        · rw [h₄]
          exact Or.inr (by simpa using hs)

theorem splitStartCode_none {s run : Bytes}
    (h : splitStartCode s = (run, none)) : run = s := by
  induction s generalizing run with
  | nil => simpa [splitStartCode] using h.symm
  | cons b s ih =>
      rw [splitStartCode] at h
      by_cases hcode : startCodeSize (b :: s) = 0
      · rw [if_pos hcode] at h
        obtain ⟨rfl, hrest⟩ := Prod.mk.inj h
        exact congrArg (b :: ·) (ih (Prod.ext rfl hrest))
      · simp [hcode] at h

theorem splitStartCode_length {s run rest : Bytes}
    (h : splitStartCode s = (run, some rest)) :
    rest.length + 3 + run.length ≤ s.length := by
  rcases splitStartCode_some h with hs | hs
  all_goals
    have hlen := congrArg List.length hs
    simp only [List.length_append, List.length_cons, List.length_nil] at hlen
    omega

/-- The runs of bytes between the start codes. -/
def runs (s : Bytes) : List Bytes :=
  match _h : splitStartCode s with
  | (run, none) => [run]
  | (run, some rest) => run :: runs rest
termination_by s.length
decreasing_by
  have hlen := splitStartCode_length _h
  omega

/-- The units of a stream: its nonempty runs. -/
def units (s : Bytes) : List Bytes := (runs s).filter (· ≠ [])

theorem runs_of_none {s run : Bytes} (h : splitStartCode s = (run, none)) :
    runs s = [run] := by
  rw [runs]
  split
  next run' h' => simp_all
  next run' rest h' => simp [h] at h'

theorem runs_of_some {s run rest : Bytes}
    (h : splitStartCode s = (run, some rest)) :
    runs s = run :: runs rest := by
  rw [runs]
  split
  next run' h' => simp [h] at h'
  next run' rest' h' => simp_all

end AnnexB
