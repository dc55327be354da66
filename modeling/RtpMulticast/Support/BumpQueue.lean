import Mathlib.Data.Set.Lattice
import Mathlib.Order.CompletePartialOrder
import Mathlib.Order.Interval.Set.Disjoint
import RtpMulticast.Support.Machine

/-!
# Bump allocation behind a queue

A producer writes each item into the room behind a shared offset, places the
region of the item in a queue, and then moves the offset past it and rounds it
up.  A consumer takes the regions from the queue and sets the offset back to 0
whenever it finds the queue empty.  The producer reads, adds and writes the
offset in separate steps, so a reset may come between any two of them.

The regions in the queue and the room being written stay disjoint as long as
no region is placed after the offset was reset under it.
-/

namespace BumpQueue

/-- A region of the buffer. -/
structure Region where
  start : ℕ
  size : ℕ
  deriving DecidableEq, Repr

namespace Region

def stop (r : Region) : ℕ := r.start + r.size

/-- The positions of a region. -/
def bytes (r : Region) : Set ℕ := Set.Ico r.start r.stop

end Region

/-- Progress of the producer. -/
inductive Phase where
  | idle
  | writing (start : ℕ)
  | placed (size : ℕ)
  | added
  | aligning (offset : ℕ)
  deriving DecidableEq, Repr

structure State where
  queue : List Region
  offset : ℕ
  phase : Phase
  deriving DecidableEq, Repr

inductive Action where
  | take
  | discard
  | place (size : ℕ)
  | add
  | load
  | store
  | pop
  | reset
  deriving DecidableEq, Repr

/-- The producer and the consumer; `align` rounds an offset. -/
def machine (align : ℕ → ℕ) : Machine State Action where
  init s := s.queue = [] ∧ s.offset = 0 ∧ s.phase = .idle
  step s
    | .take =>
        match s.phase with
        | .idle => some { s with phase := .writing s.offset }
        | _ => none
    | .discard =>
        match s.phase with
        | .writing _ => some { s with phase := .idle }
        | _ => none
    | .place size =>
        match s.phase with
        | .writing start =>
            some { s with
              queue := s.queue ++ [⟨start, size⟩]
              phase := .placed size }
        | _ => none
    | .add =>
        match s.phase with
        | .placed size =>
            some { s with offset := s.offset + size, phase := .added }
        | _ => none
    | .load =>
        match s.phase with
        | .added => some { s with phase := .aligning s.offset }
        | _ => none
    | .store =>
        match s.phase with
        | .aligning offset =>
            some { s with offset := align offset, phase := .idle }
        | _ => none
    | .pop => some { s with queue := s.queue.tail }
    | .reset => if s.queue = [] then some { s with offset := 0 } else none

/-- A region is placed only while the offset is still where the region
starts. -/
def Fresh (s : State) : Action → Prop
  | .place _ => ∀ start, s.phase = .writing start → s.offset = start
  | _ => True

/-! ## The invariant -/

/-- All regions end at or before `bound`. -/
def Below (queue : List Region) (bound : ℕ) : Prop :=
  ∀ r ∈ queue, r.stop ≤ bound

theorem Below.mono {queue : List Region} {bound bound' : ℕ}
    (h : Below queue bound) (hle : bound ≤ bound') : Below queue bound' :=
  fun r hr => (h r hr).trans hle

theorem Below.tail {queue : List Region} {bound : ℕ}
    (h : Below queue bound) : Below queue.tail bound :=
  fun r hr => h r (List.mem_of_mem_tail hr)

theorem below_nil (bound : ℕ) : Below [] bound := by
  intro r hr
  cases hr

theorem Below.append {queue : List Region} {start size : ℕ}
    (h : Below queue start) :
    Below (queue ++ [⟨start, size⟩]) (start + size) := by
  intro r hr
  rcases List.mem_append.mp hr with hr | hr
  · exact (h r hr).trans (Nat.le_add_right start size)
  · rw [List.mem_singleton.mp hr]
    exact le_rfl

/-- Where the next region may start, after the pending writes of the
producer. -/
def State.bound (s : State) : ℕ :=
  match s.phase with
  | .idle | .added => s.offset
  | .writing start => start
  | .placed size => s.offset + size
  | .aligning offset => offset

/-- The regions lie one behind the other and below the bound; while the
producer writes, the offset has not moved unless the queue is empty. -/
structure Inv (s : State) : Prop where
  ordered : s.queue.Pairwise fun r r' => r.stop ≤ r'.start
  below : Below s.queue s.bound
  writing : ∀ start, s.phase = .writing start →
    s.offset = start ∨ s.queue = []

variable {align : ℕ → ℕ} {s s' : State} {a : Action}

theorem Inv.place (h : Inv s) {start size : ℕ}
    (hphase : s.phase = .writing start) (hfresh : s.offset = start) :
    Inv ⟨s.queue ++ [⟨start, size⟩], s.offset, .placed size⟩ := by
  have hbelow := h.below
  simp only [State.bound, hphase] at hbelow
  refine ⟨?_, ?_, ?_⟩
  · rw [List.pairwise_append]
    refine ⟨h.ordered, List.pairwise_singleton _ _, ?_⟩
    intro r hr r' hr'
    rw [List.mem_singleton.mp hr']
    exact hbelow r hr
  · change Below _ (s.offset + size)
    rw [hfresh]
    exact hbelow.append
  · rintro start' ⟨⟩

theorem Inv.pop (h : Inv s) : Inv { s with queue := s.queue.tail } := by
  refine ⟨h.ordered.tail, h.below.tail, ?_⟩
  intro start hphase
  rcases h.writing start hphase with hoffset | hempty
  · exact Or.inl hoffset
  · exact Or.inr (by rw [hempty]; rfl)

theorem Inv.reset (h : Inv s) (hempty : s.queue = []) :
    Inv { s with offset := 0 } := by
  refine ⟨h.ordered, ?_, fun _ _ => Or.inr hempty⟩
  change Below s.queue _
  rw [hempty]
  exact below_nil _

theorem Inv.step (halign : ∀ offset, offset ≤ align offset) (h : Inv s)
    (hfresh : Fresh s a) (hstep : (machine align).step s a = some s') :
    Inv s' := by
  have hbelow := h.below
  unfold State.bound at hbelow
  cases a with
  | take =>
      simp only [machine] at hstep
      split at hstep
      · next hphase =>
          cases hstep
          rw [hphase] at hbelow
          refine ⟨h.ordered, hbelow, ?_⟩
          rintro start ⟨⟩
          exact Or.inl rfl
      · cases hstep
  | discard =>
      simp only [machine] at hstep
      split at hstep
      · next start hphase =>
          cases hstep
          rw [hphase] at hbelow
          refine ⟨h.ordered, ?_, ?_⟩
          · change Below s.queue s.offset
            rcases h.writing start hphase with hoffset | hempty
            · rw [hoffset]
              exact hbelow
            · rw [hempty]
              exact below_nil _
          · rintro start' ⟨⟩
      · cases hstep
  | place size =>
      simp only [machine] at hstep
      split at hstep
      · next start hphase =>
          cases hstep
          exact h.place hphase (hfresh start hphase)
      · cases hstep
  | add =>
      simp only [machine] at hstep
      split at hstep
      · next size hphase =>
          cases hstep
          rw [hphase] at hbelow
          refine ⟨h.ordered, hbelow, ?_⟩
          rintro start ⟨⟩
      · cases hstep
  | load =>
      simp only [machine] at hstep
      split at hstep
      · next hphase =>
          cases hstep
          rw [hphase] at hbelow
          refine ⟨h.ordered, hbelow, ?_⟩
          rintro start ⟨⟩
      · cases hstep
  | store =>
      simp only [machine] at hstep
      split at hstep
      · next offset hphase =>
          cases hstep
          rw [hphase] at hbelow
          refine ⟨h.ordered, hbelow.mono (halign offset), ?_⟩
          rintro start ⟨⟩
      · cases hstep
  | pop =>
      cases hstep
      exact h.pop
  | reset =>
      simp only [machine] at hstep
      split at hstep
      · next hempty =>
          cases hstep
          exact h.reset hempty
      · cases hstep

theorem machine_inv (halign : ∀ offset, offset ≤ align offset)
    (h : (machine align).ReachableVia Fresh s) : Inv s := by
  have hinit : ∀ s, (machine align).init s → Inv s := by
    rintro s ⟨hqueue, -, hphase⟩
    refine ⟨?_, ?_, ?_⟩
    · rw [hqueue]
      exact .nil
    · rw [hqueue]
      exact below_nil _
    · intro start hwriting
      rw [hphase] at hwriting
      cases hwriting
  have hstep : ∀ s a s', Inv s → Fresh s a →
      (machine align).step s a = some s' → Inv s' := by
    intro s a s' hs hfresh hstep
    exact hs.step halign hfresh hstep
  exact Machine.ReachableVia.invariant hinit hstep h

/-! ## Disjoint regions -/

theorem machine_queue_disjoint (halign : ∀ offset, offset ≤ align offset)
    (h : (machine align).ReachableVia Fresh s) :
    s.queue.Pairwise fun r r' => Disjoint r.bytes r'.bytes := by
  refine (machine_inv halign h).ordered.imp ?_
  intro r r' hle
  rw [Set.disjoint_left]
  intro i hi hi'
  exact absurd (hle.trans hi'.1) (not_le.mpr hi.2)

/-- The room being written starts behind all regions. -/
theorem machine_room_disjoint (halign : ∀ offset, offset ≤ align offset)
    (h : (machine align).ReachableVia Fresh s) {start : ℕ}
    (hphase : s.phase = .writing start) {r : Region} (hr : r ∈ s.queue) :
    Disjoint r.bytes (Set.Ici start) := by
  have hbelow := (machine_inv halign h).below
  simp only [State.bound, hphase] at hbelow
  rw [Set.disjoint_left]
  intro i hi hi'
  exact absurd ((hbelow r hr).trans hi') (not_le.mpr hi.2)

end BumpQueue
