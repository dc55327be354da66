import Mathlib.Data.List.Nodup
import Mathlib.Logic.Function.Basic

/-!
# Singly linked lists

Cells are linked by a function `next`, the successor pointer of each cell.
`Chain next p L` says that the cells met from the pointer `p` on are those of
`L`, in this order, and that the last one ends the list.  The rules below
follow the chain through writes of single pointers.
-/

namespace LinkedList

variable {α : Type*}

/-- The cells from `p` to the end of the list are those of `L`. -/
def Chain (next : α → Option α) : Option α → List α → Prop
  | p, [] => p = none
  | p, x :: L => p = some x ∧ Chain next (next x) L

/-- Cell `x` is met from pointer `p` on. -/
inductive Reaches (next : α → Option α) : Option α → α → Prop
  | here (x : α) : Reaches next (some x) x
  | there {x y : α} : Reaches next (next x) y → Reaches next (some x) y

theorem not_reaches_none {next : α → Option α} {x : α} :
    ¬ Reaches next none x := by
  rintro ⟨⟩

variable {next : α → Option α} {p v : Option α} {x y : α} {L A B B' : List α}

namespace Chain

theorem mem_iff (h : Chain next p L) : x ∈ L ↔ Reaches next p x := by
  induction L generalizing p with
  | nil =>
      rw [show p = none from h]
      constructor
      · intro hx
        cases hx
      · intro hx
        exact absurd hx not_reaches_none
  | cons y L ih =>
      obtain ⟨rfl, hrest⟩ := h
      rw [List.mem_cons, ih hrest]
      constructor
      · rintro (rfl | hx)
        · exact .here x
        · exact .there hx
      · rintro (_ | hx)
        · exact Or.inl rfl
        · exact Or.inr hx

theorem eq_nil_iff (h : Chain next p L) : L = [] ↔ p = none := by
  cases L with
  | nil => exact ⟨fun _ => h, fun _ => rfl⟩
  | cons y L => simp [h.1]

theorem head_mem (h : Chain next (some x) L) : x ∈ L :=
  h.mem_iff.mpr (.here x)

/-- The chain behind one of its cells. -/
theorem drop (h : Chain next p (A ++ x :: B)) : Chain next (next x) B := by
  induction A generalizing p with
  | nil => exact h.2
  | cons a A ih =>
      have hrest := ih h.2
      exact hrest

/-- The successor of a member is a member. -/
theorem next_mem (h : Chain next p L) (hx : x ∈ L) (hy : next x = some y) :
    y ∈ L := by
  obtain ⟨A, B, rfl⟩ := List.append_of_mem hx
  have hrest := h.drop
  rw [hy] at hrest
  have hmem := hrest.head_mem
  simp [hmem]

/-- A member without successor is the last one. -/
theorem last (h : Chain next p L) (hx : x ∈ L) (hnext : next x = none) :
    ∃ A, L = A ++ [x] := by
  obtain ⟨A, B, rfl⟩ := List.append_of_mem hx
  have hrest := h.drop
  rw [hnext] at hrest
  rw [hrest.eq_nil_iff.mpr rfl]
  exact ⟨A, rfl⟩

variable [DecidableEq α]

/-- Writes outside the chain do not touch it. -/
theorem update_of_notMem (h : Chain next p L) (hx : x ∉ L) :
    Chain (Function.update next x v) p L := by
  induction L generalizing p with
  | nil => exact h
  | cons y L ih =>
      rw [List.mem_cons, not_or] at hx
      refine ⟨h.1, ?_⟩
      rw [Function.update_of_ne (Ne.symm hx.1)]
      have hrest := ih h.2 hx.2
      exact hrest

/-- A write at a cell of the chain replaces what is behind it. -/
theorem update_mem (h : Chain next p (A ++ x :: B)) (hA : x ∉ A)
    (hv : Chain (Function.update next x v) v B') :
    Chain (Function.update next x v) p (A ++ x :: B') := by
  induction A generalizing p with
  | nil =>
      refine ⟨h.1, ?_⟩
      rw [Function.update_self]
      exact hv
  | cons a A ih =>
      rw [List.mem_cons, not_or] at hA
      refine ⟨h.1, ?_⟩
      rw [Function.update_of_ne (Ne.symm hA.1)]
      have hrest := ih h.2 hA.2
      exact hrest

/-- Writing a fresh cell into the pointer of the last one appends it. -/
theorem append (h : Chain next p L) (hnodup : L.Nodup) (hx : x ∈ L)
    (hlast : next x = none) (hy : y ∉ L) (hend : next y = none) :
    Chain (Function.update next x (some y)) p (L ++ [y]) := by
  obtain ⟨A, rfl⟩ := h.last hx hlast
  have hne : y ≠ x := by
    rintro rfl
    exact hy hx
  have hA : x ∉ A := by
    intro hmem
    exact (List.nodup_append.mp hnodup).2.2 x hmem x (by simp) rfl
  rw [List.append_assoc]
  refine h.update_mem hA ⟨rfl, ?_⟩
  rw [Function.update_of_ne hne]
  exact hend

/-- Writing the successor of the next cell into a pointer unlinks that cell. -/
theorem unlink (h : Chain next p (A ++ x :: y :: B))
    (hnodup : (A ++ x :: y :: B).Nodup) :
    Chain (Function.update next x (next y)) p
      ((A ++ x :: y :: B).erase y) := by
  obtain ⟨-, hrest, hdisjoint⟩ := List.nodup_append.mp hnodup
  rw [List.nodup_cons, List.mem_cons, not_or] at hrest
  have hA : x ∉ A := fun hmem => hdisjoint x hmem x (by simp) rfl
  have hyA : y ∉ A := fun hmem => hdisjoint y hmem y (by simp) rfl
  rw [List.erase_append_right _ hyA,
    List.erase_cons_tail (by simpa using hrest.1.1), List.erase_cons_head]
  refine h.update_mem hA (Chain.update_of_notMem ?_ hrest.1.2)
  have hbehind : Chain next (next x) (y :: B) := h.drop
  exact hbehind.2

end Chain

end LinkedList
