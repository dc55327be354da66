import Mathlib.Data.List.Basic
import Mathlib.Data.List.Count
import Mathlib.Data.List.Nodup
import Mathlib.Data.List.Pairwise

/-!
# Logs of allocations, uses and frees

A log lists what was done to objects, the oldest operation first.  It is clean
when nothing follows the free of an object: the object is neither used again nor
freed again.  An object is lost in a log that allocates it and does not free it.
A log is settled when it frees exactly what it allocates, each object once.
-/

namespace UsageLog

variable {α : Type*}

inductive Op (α : Type*) where
  | alloc (o : α)
  | use (o : α)
  | free (o : α)
  deriving DecidableEq, Repr

/-- The object of an operation. -/
def Op.object : Op α → α
  | .alloc o => o
  | .use o => o
  | .free o => o

/-- No operation on an object follows its free. -/
def Clean (ops : List (Op α)) : Prop :=
  ops.Pairwise fun a b => ∀ o, a = .free o → b.object ≠ o

/-- The objects that were allocated and not freed. -/
def Unfreed (ops : List (Op α)) (o : α) : Prop :=
  .alloc o ∈ ops ∧ .free o ∉ ops

theorem clean_nil : Clean ([] : List (Op α)) :=
  List.Pairwise.nil

theorem clean_append {xs ys : List (Op α)} :
    Clean (xs ++ ys) ↔
      Clean xs ∧ Clean ys ∧ ∀ o, .free o ∈ xs → ∀ b ∈ ys, b.object ≠ o := by
  unfold Clean
  rw [List.pairwise_append]
  refine and_congr_right fun _ => and_congr_right fun _ => ⟨?_, ?_⟩
  · intro h o ho b hb
    exact h _ ho b hb o rfl
  · rintro h a ha b hb o rfl
    exact h o ha b hb

/-- A clean log frees nothing twice. -/
theorem Clean.count_free_le [DecidableEq α] {ops : List (Op α)} (h : Clean ops)
    (o : α) : ops.count (.free o) ≤ 1 := by
  induction ops with
  | nil => exact Nat.zero_le _
  | cons a ops ih =>
      obtain ⟨hhead, htail⟩ := List.pairwise_cons.mp h
      rw [List.count_cons]
      by_cases ha : a = .free o
      · have hnone : ops.count (.free o) = 0 := by
          rw [List.count_eq_zero]
          intro hmem
          exact hhead _ hmem o ha rfl
        rw [hnone, ha]
        simp
      · have hne : (a == .free o) = false := beq_false_of_ne ha
        rw [hne]
        exact ih htail

/-- What a clean log frees, it frees once. -/
theorem Clean.count_free_eq [DecidableEq α] {ops : List (Op α)} (h : Clean ops)
    {o : α} (hfree : .free o ∈ ops) : ops.count (.free o) = 1 :=
  Nat.le_antisymm (h.count_free_le o) (List.count_pos_iff.mpr hfree)

/-! ## Settled logs -/

/-- The objects that are allocated, in order. -/
def allocs : List (Op α) → List α
  | [] => []
  | .alloc o :: ops => o :: allocs ops
  | .use _ :: ops => allocs ops
  | .free _ :: ops => allocs ops

/-- The objects that are freed, in order. -/
def frees : List (Op α) → List α
  | [] => []
  | .alloc _ :: ops => frees ops
  | .use _ :: ops => frees ops
  | .free o :: ops => o :: frees ops

@[simp] theorem allocs_append (xs ys : List (Op α)) :
    allocs (xs ++ ys) = allocs xs ++ allocs ys := by
  induction xs with
  | nil => rfl
  | cons op xs ih => cases op <;> simp [allocs, ih]

@[simp] theorem frees_append (xs ys : List (Op α)) :
    frees (xs ++ ys) = frees xs ++ frees ys := by
  induction xs with
  | nil => rfl
  | cons op xs ih => cases op <;> simp [frees, ih]

/-- Repeating what allocates nothing allocates nothing. -/
theorem allocs_flatten_replicate {ops : List (Op α)} (h : allocs ops = [])
    (n : ℕ) : allocs (List.replicate n ops).flatten = [] := by
  induction n with
  | zero => rfl
  | succ n ih =>
      rw [List.replicate_succ, List.flatten_cons, allocs_append, h, ih]
      rfl

theorem frees_flatten_replicate {ops : List (Op α)} (h : frees ops = [])
    (n : ℕ) : frees (List.replicate n ops).flatten = [] := by
  induction n with
  | zero => rfl
  | succ n ih =>
      rw [List.replicate_succ, List.flatten_cons, frees_append, h, ih]
      rfl

theorem mem_allocs {ops : List (Op α)} {o : α} :
    o ∈ allocs ops ↔ .alloc o ∈ ops := by
  induction ops with
  | nil => simp [allocs]
  | cons op ops ih => cases op <;> simp [allocs, ih]

theorem mem_frees {ops : List (Op α)} {o : α} :
    o ∈ frees ops ↔ .free o ∈ ops := by
  induction ops with
  | nil => simp [frees]
  | cons op ops ih => cases op <;> simp [frees, ih]

theorem count_frees [DecidableEq α] (ops : List (Op α)) (o : α) :
    (frees ops).count o = ops.count (.free o) := by
  induction ops with
  | nil => rfl
  | cons op ops ih => cases op <;> simp [frees, ih, List.count_cons]

/-- What is freed is what was allocated, each object once. -/
structure Settled (ops : List (Op α)) : Prop where
  nodup : (allocs ops).Nodup
  freed : (frees ops).Perm (allocs ops)

/-- In a settled log every allocated object is freed exactly once. -/
theorem Settled.count_free [DecidableEq α] {ops : List (Op α)}
    (h : Settled ops) {o : α} (ho : .alloc o ∈ ops) :
    ops.count (.free o) = 1 := by
  rw [← count_frees, h.freed.count_eq]
  exact List.count_eq_one_of_mem h.nodup (mem_allocs.mpr ho)

/-- An object that is never freed is lost. -/
theorem not_settled_of_lost {ops : List (Op α)} {o : α} (ho : o ∈ allocs ops)
    (hfree : o ∉ frees ops) : ¬ Settled ops := by
  intro h
  exact hfree (h.freed.mem_iff.mpr ho)

/-- The order of the frees does not matter. -/
theorem Settled.congr {ops ops' : List (Op α)} (h : Settled ops)
    (hallocs : allocs ops' = allocs ops) (hfrees : (frees ops').Perm (frees ops)) :
    Settled ops' := by
  constructor
  · rw [hallocs]
    exact h.nodup
  · rw [hallocs]
    exact hfrees.trans h.freed

/-- An object that is allocated before a settled log and freed behind it. -/
theorem Settled.bracket {ops : List (Op α)} (h : Settled ops) {o : α}
    (ho : o ∉ allocs ops) : Settled (.alloc o :: ops ++ [.free o]) := by
  constructor
  · rw [List.cons_append, allocs, allocs_append]
    simpa [allocs] using ⟨ho, h.nodup⟩
  · rw [List.cons_append, allocs, frees, allocs_append, frees_append]
    simp only [allocs, frees, List.append_nil]
    exact (List.perm_append_singleton _ _).trans (h.freed.cons o)

/-! ## Renaming -/

variable {β : Type*}

def Op.map (f : α → β) : Op α → Op β
  | .alloc o => .alloc (f o)
  | .use o => .use (f o)
  | .free o => .free (f o)

theorem allocs_map (f : α → β) (ops : List (Op α)) :
    allocs (ops.map (Op.map f)) = (allocs ops).map f := by
  induction ops with
  | nil => rfl
  | cons op ops ih => cases op <;> simp [allocs, Op.map, ih]

theorem frees_map (f : α → β) (ops : List (Op α)) :
    frees (ops.map (Op.map f)) = (frees ops).map f := by
  induction ops with
  | nil => rfl
  | cons op ops ih => cases op <;> simp [frees, Op.map, ih]

theorem Settled.map {ops : List (Op α)} (h : Settled ops) {f : α → β}
    (hf : Function.Injective f) : Settled (ops.map (Op.map f)) := by
  constructor
  · rw [allocs_map]
    exact h.nodup.map hf
  · rw [allocs_map, frees_map]
    exact h.freed.map f

end UsageLog
