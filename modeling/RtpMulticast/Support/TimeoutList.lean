import Mathlib.Data.List.Basic
import Mathlib.Data.List.Count

/-!
# Pending timeouts

A list of timeouts, each with the handler that it calls.  A handler may be
pending several times; cancelling it removes the first of them.  Cancelling
before arming keeps every handler pending at most once.
-/

namespace TimeoutList

structure Timeout (η : Type*) where
  msecs : ℕ
  handler : η
  deriving DecidableEq, Repr

variable {η : Type*} [DecidableEq η] {ts : List (Timeout η)} {h k : η} {msecs : ℕ}

/-- How often the handler is pending. -/
def pending (ts : List (Timeout η)) (h : η) : ℕ :=
  ts.countP fun t => t.handler = h

/-- One more timeout. -/
def sysTimeout (ts : List (Timeout η)) (msecs : ℕ) (h : η) : List (Timeout η) :=
  ⟨msecs, h⟩ :: ts

/-- The first timeout of the handler is removed. -/
def sysUntimeout (ts : List (Timeout η)) (h : η) : List (Timeout η) :=
  ts.eraseP fun t => t.handler = h

@[simp] theorem pending_sysTimeout_self :
    pending (sysTimeout ts msecs h) h = pending ts h + 1 := by
  simp [pending, sysTimeout]

theorem pending_sysTimeout_of_ne (hne : k ≠ h) :
    pending (sysTimeout ts msecs h) k = pending ts k := by
  simp [pending, sysTimeout, hne.symm]

@[simp] theorem pending_sysUntimeout_self :
    pending (sysUntimeout ts h) h = pending ts h - 1 := by
  induction ts with
  | nil => rfl
  | cons t ts ih =>
      unfold pending sysUntimeout at ih ⊢
      by_cases ht : t.handler = h
      · simp [ht]
      · simp [ht, ih]

theorem pending_sysUntimeout_of_ne (hne : k ≠ h) :
    pending (sysUntimeout ts h) k = pending ts k := by
  induction ts with
  | nil => rfl
  | cons t ts ih =>
      unfold pending sysUntimeout at ih ⊢
      by_cases ht : t.handler = h
      · have hk : ¬ h = k := fun heq => hne heq.symm
        simp [ht, hk]
      · rw [List.eraseP_cons_of_neg (by simpa using ht), List.countP_cons,
          List.countP_cons, ih]

/-- Nothing is pending when no handler is. -/
theorem eq_nil_of_pending (hnone : ∀ h, pending ts h = 0) : ts = [] := by
  cases ts with
  | nil => rfl
  | cons t ts =>
      have h := hnone t.handler
      simp [pending] at h

end TimeoutList
