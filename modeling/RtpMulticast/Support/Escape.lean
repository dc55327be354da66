import Mathlib.Data.List.Basic

/-!
# Escape codes

A text is written without some symbols: a mark and a changed symbol stand for
each of them.  The mark is among them, which makes the code readable.
-/

namespace Escape

variable {α : Type*}

/-- The symbols to avoid, the mark and the change of the symbol behind it. -/
structure Code (α : Type*) where
  special : α → Bool
  mark : α
  change : α → α
  special_mark : special mark
  change_change : ∀ a, special a → change (change a) = a

namespace Code

/-- What is written for one symbol. -/
def symbol (code : Code α) (a : α) : List α :=
  if code.special a then [code.mark, code.change a] else [a]

def encode (code : Code α) (xs : List α) : List α := xs.flatMap code.symbol

def decode [DecidableEq α] (code : Code α) : List α → List α
  | [] => []
  | [a] => [a]
  | a :: b :: rest =>
      if a = code.mark then code.change b :: decode code rest
      else a :: decode code (b :: rest)

theorem encode_cons (code : Code α) (a : α) (xs : List α) :
    code.encode (a :: xs) = code.symbol a ++ code.encode xs :=
  List.flatMap_cons

theorem symbol_of_special {code : Code α} {a : α} (h : code.special a) :
    code.symbol a = [code.mark, code.change a] :=
  if_pos h

theorem symbol_of_not_special {code : Code α} {a : α} (h : ¬ code.special a) :
    code.symbol a = [a] :=
  if_neg h

/-- Every symbol is written with at least one. -/
theorem length_le_encode (code : Code α) (xs : List α) :
    xs.length ≤ (code.encode xs).length := by
  induction xs with
  | nil => exact Nat.zero_le _
  | cons a xs ih =>
      rw [encode_cons, List.length_append, List.length_cons]
      by_cases hspecial : code.special a
      · rw [symbol_of_special hspecial, List.length_cons, List.length_singleton]
        omega
      · rw [symbol_of_not_special hspecial, List.length_singleton]
        omega

theorem decode_cons_of_ne [DecidableEq α] {code : Code α} {a : α}
    (h : a ≠ code.mark) (rest : List α) :
    code.decode (a :: rest) = a :: code.decode rest := by
  cases rest with
  | nil => rfl
  | cons b rest => rw [decode, if_neg h]

theorem decode_encode [DecidableEq α] (code : Code α) (xs : List α) :
    code.decode (code.encode xs) = xs := by
  induction xs with
  | nil => rfl
  | cons a xs ih =>
      rw [encode_cons]
      by_cases hspecial : code.special a
      · rw [symbol_of_special hspecial, List.cons_append, List.singleton_append,
          decode, if_pos rfl, code.change_change a hspecial, ih]
      · have hne : a ≠ code.mark := fun heq =>
          hspecial (heq ▸ code.special_mark)
        rw [symbol_of_not_special hspecial, List.singleton_append,
          decode_cons_of_ne hne, ih]

theorem encode_injective [DecidableEq α] (code : Code α) :
    Function.Injective code.encode :=
  Function.LeftInverse.injective code.decode_encode

/-- The symbols of a code text. -/
theorem mem_encode {code : Code α} {a : α} {xs : List α}
    (h : a ∈ code.encode xs) :
    a = code.mark ∨ (∃ b ∈ xs, code.special b ∧ a = code.change b) ∨
      (a ∈ xs ∧ ¬ code.special a) := by
  obtain ⟨b, hb, hab⟩ := List.mem_flatMap.mp h
  by_cases hspecial : code.special b
  · rw [symbol_of_special hspecial, List.mem_pair] at hab
    exact hab.imp_right fun hchange => Or.inl ⟨b, hb, hspecial, hchange⟩
  · rw [symbol_of_not_special hspecial, List.mem_singleton] at hab
    exact Or.inr (Or.inr (hab ▸ ⟨hb, hspecial⟩))

/-- A symbol that is no change of another is left out of the code texts when it is
special, or when the text does not have it. -/
theorem not_mem_encode {code : Code α} {a : α} {xs : List α} (hmark : a ≠ code.mark)
    (hchange : ∀ b, code.special b → a ≠ code.change b)
    (hplain : a ∈ xs → code.special a) : a ∉ code.encode xs := by
  intro hmem
  rcases mem_encode hmem with hin | ⟨b, -, hspecial, hin⟩ | ⟨hin, hspecial⟩
  · exact hmark hin
  · exact hchange b hspecial hin
  · exact hspecial (hplain hin)

end Code

end Escape
