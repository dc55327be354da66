import Mathlib.Logic.Basic
import Mathlib.Data.List.Basic

/-!
# Guarded state machines

A machine has a set of initial states and an executable step function:
`step s a` is `some s'` when action `a` is enabled in state `s`.  An
interleaving of several tasks is a machine whose actions name the task that
moves and the choices of its surroundings.

`ReachableVia guard` collects the states of the runs whose steps all meet
`guard`; `Reachable` puts no condition on the steps.  The rules below carry an
invariant along such runs, move runs through a simulation, and turn a finite
list of actions into a run.
-/

structure Machine (σ : Type*) (α : Type*) where
  init : σ → Prop
  step : σ → α → Option σ

namespace Machine

variable {σ α τ β : Type*}

/-- States of the runs of `M` in which every step meets `guard`. -/
inductive ReachableVia (M : Machine σ α) (guard : σ → α → Prop) : σ → Prop
  | init {s : σ} : M.init s → ReachableVia M guard s
  | step {s s' : σ} {a : α} :
      ReachableVia M guard s → guard s a → M.step s a = some s' →
        ReachableVia M guard s'

/-- States of all runs of `M`. -/
def Reachable (M : Machine σ α) : σ → Prop :=
  M.ReachableVia fun _ _ => True

/-- An invariant that holds initially and is kept by every step meeting the
guard holds along every such run; a step may use what is known of all reachable
states. -/
theorem ReachableVia.strengthen {M : Machine σ α} {guard : σ → α → Prop}
    {Inv : σ → Prop}
    (hinit : ∀ s, M.init s → Inv s)
    (hstep : ∀ s a s', M.ReachableVia guard s → Inv s → guard s a →
      M.step s a = some s' → Inv s')
    {s : σ} (h : M.ReachableVia guard s) : Inv s := by
  induction h with
  | init hs => exact hinit _ hs
  | step hr hg hs ih => exact hstep _ _ _ hr ih hg hs

theorem ReachableVia.invariant {M : Machine σ α} {guard : σ → α → Prop}
    {Inv : σ → Prop}
    (hinit : ∀ s, M.init s → Inv s)
    (hstep : ∀ s a s', Inv s → guard s a → M.step s a = some s' → Inv s')
    {s : σ} (h : M.ReachableVia guard s) : Inv s :=
  h.strengthen hinit fun s a s' _ => hstep s a s'

/-- Runs that meet a guard meet every other that follows from it in the states
they reach. -/
theorem ReachableVia.mono {M : Machine σ α} {guard guard' : σ → α → Prop}
    (hguard : ∀ s a, M.ReachableVia guard s → guard s a → guard' s a)
    {s : σ} (h : M.ReachableVia guard s) : M.ReachableVia guard' s := by
  induction h with
  | init hs => exact .init hs
  | step hr hg hs ih => exact ih.step (hguard _ _ hr hg) hs

/-- Replay a list of actions; `none` when one of them is not enabled. -/
def run (M : Machine σ α) (s : σ) : List α → Option σ
  | [] => some s
  | a :: as =>
      match M.step s a with
      | some s' => M.run s' as
      | none => none

/-- Every step of a replay meets `guard`. -/
def Meets (M : Machine σ α) (guard : σ → α → Prop) (s : σ) : List α → Prop
  | [] => True
  | a :: as =>
      guard s a ∧ ∀ s', M.step s a = some s' → M.Meets guard s' as

instance decidableMeets (M : Machine σ α) (guard : σ → α → Prop)
    [∀ s a, Decidable (guard s a)] :
    (s : σ) → (as : List α) → Decidable (M.Meets guard s as)
  | _, [] => isTrue trivial
  | s, a :: as =>
      match h : M.step s a with
      | none =>
          decidable_of_iff (guard s a)
            ⟨fun hg => ⟨hg, fun s' h' => by rw [h] at h'; cases h'⟩,
              fun hm => hm.1⟩
      | some t =>
          have := decidableMeets M guard t as
          decidable_of_iff (guard s a ∧ M.Meets guard t as)
            ⟨fun hm => ⟨hm.1, fun s' h' => by
                rw [h, Option.some.injEq] at h'
                exact h' ▸ hm.2⟩,
              fun hm => ⟨hm.1, hm.2 t h⟩⟩

theorem ReachableVia.run {M : Machine σ α} {guard : σ → α → Prop}
    {s : σ} (h : M.ReachableVia guard s) (as : List α)
    (hmeets : M.Meets guard s as)
    {s' : σ} (hrun : M.run s as = some s') : M.ReachableVia guard s' := by
  induction as generalizing s with
  | nil =>
      simp only [Machine.run, Option.some.injEq] at hrun
      exact hrun ▸ h
  | cons a as ih =>
      simp only [Machine.run] at hrun
      cases hs : M.step s a with
      | none => simp [hs] at hrun
      | some t =>
          rw [hs] at hrun
          exact ih (h.step hmeets.1 hs) (hmeets.2 t hs) hrun

theorem meets_true (M : Machine σ α) (s : σ) (as : List α) :
    M.Meets (fun _ _ => True) s as := by
  induction as generalizing s with
  | nil => exact trivial
  | cons a as ih => exact ⟨trivial, fun s' _ => ih s'⟩

theorem meets_of_forall {M : Machine σ α} {guard : σ → α → Prop} {as : List α}
    (h : ∀ a ∈ as, ∀ s, guard s a) (s : σ) : M.Meets guard s as := by
  induction as generalizing s with
  | nil => exact trivial
  | cons a as ih =>
      obtain ⟨hhead, htail⟩ := List.forall_mem_cons.mp h
      exact ⟨hhead s, fun s' _ => ih htail s'⟩

/-- The end of a replay from an initial state is reachable. -/
theorem reachable_of_run {M : Machine σ α} {s s' : σ} (hs : M.init s)
    (as : List α) (hrun : M.run s as = some s') : M.Reachable s' :=
  (ReachableVia.init hs).run as (M.meets_true s as) hrun

/-- What every step that meets the guard keeps holds at the end of a replay whose
steps all do. -/
theorem Reachable.run_keeps_of_meets {M : Machine σ α} {guard : σ → α → Prop}
    {P : σ → Prop}
    (hstep : ∀ s a s', M.Reachable s → P s → guard s a → M.step s a = some s' →
      P s')
    {s s' : σ} (h : M.Reachable s) (hs : P s) {as : List α}
    (hmeets : M.Meets guard s as) (hrun : M.run s as = some s') : P s' := by
  induction as generalizing s with
  | nil =>
      simp only [Machine.run, Option.some.injEq] at hrun
      exact hrun ▸ hs
  | cons a as ih =>
      simp only [Machine.run] at hrun
      cases ht : M.step s a with
      | none => simp [ht] at hrun
      | some t =>
          rw [ht] at hrun
          exact ih (h.step trivial ht) (hstep s a t h hs hmeets.1 ht)
            (hmeets.2 t ht) hrun

/-- What every step keeps holds at the end of a replay. -/
theorem Reachable.run_keeps {M : Machine σ α} {P : σ → Prop}
    (hstep : ∀ s a s', M.Reachable s → P s → M.step s a = some s' → P s')
    {s s' : σ} (h : M.Reachable s) (hs : P s) {as : List α}
    (hrun : M.run s as = some s') : P s' :=
  h.run_keeps_of_meets (fun s a s' hr hs _ => hstep s a s' hr hs) hs
    (M.meets_true s as) hrun

/-- A simulation that maps every guarded step of `M` to at most one guarded
step of `N` maps runs to runs. -/
theorem ReachableVia.simulate {M : Machine σ α} {N : Machine τ β}
    {guard : σ → α → Prop} {guard' : τ → β → Prop} {abs : σ → τ}
    (hinit : ∀ s, M.init s → N.init (abs s))
    (hstep : ∀ s a s', M.ReachableVia guard s → guard s a →
      M.step s a = some s' →
        abs s' = abs s ∨
          ∃ b, guard' (abs s) b ∧ N.step (abs s) b = some (abs s'))
    {s : σ} (h : M.ReachableVia guard s) :
    N.ReachableVia guard' (abs s) := by
  induction h with
  | init hs => exact .init (hinit _ hs)
  | step hr hg hs ih =>
      rcases hstep _ _ _ hr hg hs with heq | ⟨b, hb, hN⟩
      · rw [heq]
        exact ih
      · exact ih.step hb hN

end Machine
