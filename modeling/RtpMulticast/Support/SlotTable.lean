import Mathlib.Data.List.Perm.Basic
import Mathlib.Data.Finset.Card
import Mathlib.Data.Finset.Dedup

/-!
# Sets in a table of slots

A table of fixed size stores a set when its entries, the slots that do not hold
the empty value, are the elements, each in one slot.
-/

namespace SlotTable

variable {α : Type*} [DecidableEq α]

/-- The slots that are in use. -/
def entries (empty : α) (slots : List α) : List α := slots.filter (· ≠ empty)

/-- An element is put in as long as there is room. -/
def insertWithin (capacity : ℕ) (a : α) (s : Finset α) : Finset α :=
  if s.card < capacity then insert a s else s

structure Holds (empty : α) (slots : List α) (s : Finset α) : Prop where
  nodup : (entries empty slots).Nodup
  toFinset_eq : (entries empty slots).toFinset = s

section Entries

variable {empty a b : α} {slots : List α} {s : Finset α} {k : ℕ}

theorem mem_entries : a ∈ entries empty slots ↔ a ∈ slots ∧ a ≠ empty := by
  simp [entries]

/-- Both lists are the entry in slot `k` and the slots beside it. -/
theorem entries_set_perm (hk : slots[k]? = some empty) (ha : a ≠ empty) :
    (entries empty (slots.set k a)).Perm (a :: entries empty slots) := by
  obtain ⟨hlt, hget⟩ := List.getElem?_eq_some_iff.mp hk
  have hnew := (List.set_perm_cons_eraseIdx hlt a).filter (· ≠ empty)
  have hold := (List.getElem_cons_eraseIdx_perm hlt).filter (· ≠ empty)
  rw [List.filter_cons_of_pos (by simpa using ha)] at hnew
  rw [hget, List.filter_cons_of_neg (by simp)] at hold
  exact hnew.trans (hold.cons a)

theorem entries_clear_perm (hk : slots[k]? = some a) (ha : a ≠ empty) :
    (a :: entries empty (slots.set k empty)).Perm (entries empty slots) := by
  obtain ⟨hlt, hget⟩ := List.getElem?_eq_some_iff.mp hk
  have hnew := (List.set_perm_cons_eraseIdx hlt empty).filter (· ≠ empty)
  have hold := (List.getElem_cons_eraseIdx_perm hlt).filter (· ≠ empty)
  rw [List.filter_cons_of_neg (by simp)] at hnew
  rw [hget, List.filter_cons_of_pos (by simpa using ha)] at hold
  exact (hnew.cons a).trans hold

theorem length_entries_lt_iff :
    (entries empty slots).length < slots.length ↔ empty ∈ slots := by
  simp [entries, List.length_filter_lt_length_iff_exists]

namespace Holds

theorem mem_iff (h : Holds empty slots s) : a ∈ s ↔ a ∈ entries empty slots := by
  rw [← h.toFinset_eq, List.mem_toFinset]

theorem card_eq (h : Holds empty slots s) : s.card = (entries empty slots).length := by
  rw [← h.toFinset_eq, List.toFinset_card_of_nodup h.nodup]

theorem nil (h : ∀ b ∈ slots, b = empty) : Holds empty slots ∅ := by
  have hnil : entries empty slots = [] := by simpa [entries] using h
  constructor
  · rw [hnil]
    exact List.nodup_nil
  · rw [hnil, List.toFinset_nil]

/-- A new element goes to an empty slot. -/
theorem insert_new (h : Holds empty slots s) (hk : slots[k]? = some empty)
    (ha : a ≠ empty) (hnew : a ∉ s) :
    Holds empty (slots.set k a) (insertWithin slots.length a s) := by
  have hperm := entries_set_perm hk ha
  have hroom : s.card < slots.length := by
    rw [h.card_eq, length_entries_lt_iff]
    exact List.mem_of_getElem? hk
  constructor
  · rw [hperm.nodup_iff, List.nodup_cons, ← h.mem_iff]
    exact ⟨hnew, h.nodup⟩
  · rw [List.toFinset_eq_of_perm _ _ hperm, List.toFinset_cons, h.toFinset_eq,
      insertWithin, if_pos hroom]

/-- A full table stays as it is. -/
theorem insert_full (h : Holds empty slots s) (hfull : empty ∉ slots) :
    Holds empty slots (insertWithin slots.length a s) := by
  have hroom : ¬ s.card < slots.length := by
    rwa [h.card_eq, length_entries_lt_iff]
  rw [insertWithin, if_neg hroom]
  exact h

theorem erase (h : Holds empty slots s) (hk : slots[k]? = some a) (ha : a ≠ empty) :
    Holds empty (slots.set k empty) (s.erase a) := by
  have hperm := entries_clear_perm hk ha
  have hcons := (hperm.nodup_iff.mpr h.nodup)
  obtain ⟨hnot, hnodup⟩ := List.nodup_cons.mp hcons
  refine ⟨hnodup, ?_⟩
  rw [← h.toFinset_eq, ← List.toFinset_eq_of_perm _ _ hperm, List.toFinset_cons,
    Finset.erase_insert (by rwa [List.mem_toFinset])]

theorem erase_absent (h : Holds empty slots s) (ha : a ∉ slots) :
    Holds empty slots (s.erase a) := by
  rw [Finset.erase_eq_of_notMem]
  · exact h
  · rw [h.mem_iff, mem_entries]
    exact fun hmem => ha hmem.1

end Holds

/-! ## What an insertion does to the elements -/

theorem mem_insertWithin_self {capacity : ℕ} (h : a ∈ s ∨ s.card < capacity) :
    a ∈ insertWithin capacity a s := by
  unfold insertWithin
  split_ifs with hroom
  · exact Finset.mem_insert_self a s
  · exact h.resolve_right hroom

theorem insertWithin_of_mem {capacity : ℕ} (h : a ∈ s) : insertWithin capacity a s = s := by
  unfold insertWithin
  split_ifs
  · exact Finset.insert_eq_of_mem h
  · rfl

theorem mem_insertWithin_of_ne {capacity : ℕ} (h : b ≠ a) :
    b ∈ insertWithin capacity a s ↔ b ∈ s := by
  unfold insertWithin
  split_ifs
  · exact Finset.mem_insert.trans (or_iff_right h)
  · exact Iff.rfl

end Entries

end SlotTable
