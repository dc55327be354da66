import Mathlib.Logic.Function.Iterate
import Mathlib.Tactic.SplitIfs

/-!
# Search along a cycle

A search that moves a cursor with `next` and stops at the first element that is
not taken.  It is given a number of probes; over a set whose elements `next`
visits one after another, some number of probes suffices exactly when an element
of the set is not taken.
-/

namespace CyclicSearch

variable {α : Type*} (next : α → α) (taken : α → Prop) [DecidablePred taken]

/-- The first element from `a` on that is not taken; `none` when `n` probes find
none. -/
def search : ℕ → α → Option α
  | 0, _ => none
  | n + 1, a => if taken a then search n (next a) else some a

/-- `next` keeps the set and leads from every element of it to every other. -/
structure Cycles (S : α → Prop) : Prop where
  closed : ∀ a, S a → S (next a)
  visits : ∀ {a b}, S a → S b → ∃ k, next^[k] a = b

variable {next taken}

theorem not_taken_of_search {n : ℕ} {a b : α}
    (h : search next taken n a = some b) : ¬ taken b := by
  induction n generalizing a with
  | zero => cases h
  | succ n ih =>
      simp only [search] at h
      split_ifs at h with ha
      · exact ih h
      · cases h
        exact ha

theorem search_keeps {S : α → Prop} (hclosed : ∀ a, S a → S (next a))
    {n : ℕ} {a b : α} (ha : S a) (h : search next taken n a = some b) : S b := by
  induction n generalizing a with
  | zero => cases h
  | succ n ih =>
      simp only [search] at h
      split_ifs at h
      · exact ih (hclosed a ha) h
      · cases h
        exact ha

/-- Enough probes reach an element that is not taken. -/
theorem exists_search {k : ℕ} {a : α} (hfree : ¬ taken (next^[k] a)) :
    ∃ b, search next taken (k + 1) a = some b := by
  induction k generalizing a with
  | zero =>
      refine ⟨a, ?_⟩
      rw [Function.iterate_zero_apply] at hfree
      rw [search, if_neg hfree]
  | succ k ih =>
      rw [search]
      split_ifs with ha
      · exact ih hfree
      · exact ⟨a, rfl⟩

theorem Cycles.exists_search_iff {S : α → Prop} (hcycle : Cycles next S)
    {a : α} (ha : S a) :
    (∃ n b, search next taken n a = some b) ↔ ∃ b, S b ∧ ¬ taken b := by
  constructor
  · rintro ⟨n, b, h⟩
    exact ⟨b, search_keeps hcycle.closed ha h, not_taken_of_search h⟩
  · rintro ⟨b, hb, hfree⟩
    obtain ⟨k, rfl⟩ := hcycle.visits ha hb
    exact ⟨k + 1, exists_search hfree⟩

end CyclicSearch
