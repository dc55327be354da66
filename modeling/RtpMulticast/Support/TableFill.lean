import RtpMulticast.Support.ByteBuffer

/-!
# Filling a table

A loop writes one entry of a table for each of its items and counts them in 32 bits.
It never looks at the size of the table.
-/

namespace TableFill

open ByteBuffer

variable {α β : Type*} {capacity : ℕ}

/-- The entries of the items are written from place `count` on. -/
def fill (image : α → β) : List α → Vector β capacity → UInt32 →
    Except Fault (Vector β capacity × UInt32)
  | [], table, count => .ok (table, count)
  | item :: items, table, count =>
      if h : count.toNat < capacity then
        fill image items (table.set count.toNat (image item) h) (count + 1)
      else .error .outOfBounds

/-- The entries of the items stand from place `count` on, and the others are as
before. -/
structure Filled (image : α → β) (items : List α) (count : ℕ)
    (table table' : Vector β capacity) : Prop where
  entry : ∀ k item, items[k]? = some item → table'[count + k]? = some (image item)
  before : ∀ i, i < count → table'[i]? = table[i]?
  behind : ∀ i, count + items.length ≤ i → table'[i]? = table[i]?

section Fill

variable {image : α → β} {items : List α} {item : α} {table table' : Vector β capacity}
  {count count' : UInt32}

theorem fill_cons_of_lt (h : count.toNat < capacity) :
    fill image (item :: items) table count =
      fill image items (table.set count.toNat (image item) h) (count + 1) := by
  rw [fill, dif_pos h]

theorem fill_cons_of_le (h : capacity ≤ count.toNat) :
    fill image (item :: items) table count = .error .outOfBounds := by
  rw [fill, dif_neg (Nat.not_lt.mpr h)]

/-- With room for all items none is lost. -/
theorem fill_filled (image : α → β) (hroom : count.toNat + items.length ≤ capacity)
    (hcount : count.toNat + items.length < 2 ^ 32) (table : Vector β capacity) :
    ∃ table' count', fill image items table count = .ok (table', count') ∧
      count'.toNat = count.toNat + items.length ∧
      Filled image items count.toNat table table' := by
  induction items generalizing count table with
  | nil =>
      refine ⟨table, count, rfl, rfl, ?_, fun _ _ => rfl, fun _ _ => rfl⟩
      intro k item hk
      nomatch hk
  | cons item items ih =>
      rw [List.length_cons] at hroom hcount
      have hlt : count.toNat < capacity := by omega
      have hsucc : (count + 1).toNat = count.toNat + 1 := toNat_add_one (by omega)
      have hroom' : (count + 1).toNat + items.length ≤ capacity := by omega
      have hcount' : (count + 1).toNat + items.length < 2 ^ 32 := by omega
      obtain ⟨table', count', hfill, htotal, hentry, hbefore, hbehind⟩ :=
        ih hroom' hcount' (table.set count.toNat (image item) hlt)
      rw [hsucc] at htotal hentry hbefore hbehind
      refine ⟨table', count', (fill_cons_of_lt hlt).trans hfill, ?_, ?_, ?_, ?_⟩
      · rw [htotal, List.length_cons]
        omega
      · intro k other hk
        cases k with
        | zero =>
            obtain rfl := Option.some.inj hk
            rw [Nat.add_zero, hbefore _ (Nat.lt_succ_self _),
              Vector.getElem?_set_self]
        | succ k =>
            rw [← hentry k other hk]
            congr 1
            omega
      · intro i hi
        rw [hbefore i (by omega), Vector.getElem?_set_ne hlt (by omega)]
      · intro i hi
        rw [List.length_cons] at hi
        rw [hbehind i (by omega), Vector.getElem?_set_ne hlt (by omega)]

/-- An entry that was written for an item stays one. -/
theorem fill_keeps {i : ℕ} (hfill : fill image items table count = .ok (table', count'))
    (h : ∃ item, table[i]? = some (image item)) :
    ∃ item, table'[i]? = some (image item) := by
  induction items generalizing table count with
  | nil =>
      obtain ⟨rfl, -⟩ := Prod.mk.inj (Except.ok.inj hfill)
      exact h
  | cons item items ih =>
      by_cases hlt : count.toNat < capacity
      · rw [fill_cons_of_lt hlt] at hfill
        apply ih hfill
        by_cases hi : i = count.toNat
        · exact ⟨item, by rw [hi, Vector.getElem?_set_self]⟩
        · rw [Vector.getElem?_set_ne hlt (Ne.symm hi)]
          exact h
      · rw [fill_cons_of_le (Nat.not_lt.mp hlt)] at hfill
        nomatch hfill

/-- A run that comes past a place has written it; a table without the place has no such
run. -/
theorem fill_reaches {i : ℕ} (hi : i + 1 < 2 ^ 32) (hle : count.toNat ≤ i)
    (hlt : i < count.toNat + items.length)
    (hfill : fill image items table count = .ok (table', count')) :
    ∃ item, table'[i]? = some (image item) := by
  induction items generalizing table count with
  | nil =>
      rw [List.length_nil] at hlt
      omega
  | cons item items ih =>
      by_cases hroom : count.toNat < capacity
      · rw [fill_cons_of_lt hroom] at hfill
        by_cases heq : count.toNat = i
        · subst heq
          exact fill_keeps hfill ⟨item, Vector.getElem?_set_self hroom⟩
        · have hsucc : (count + 1).toNat = count.toNat + 1 := toNat_add_one (by omega)
          rw [List.length_cons] at hlt
          exact ih (by omega) (by omega) hfill
      · rw [fill_cons_of_le (Nat.not_lt.mp hroom)] at hfill
        nomatch hfill

end Fill

end TableFill
