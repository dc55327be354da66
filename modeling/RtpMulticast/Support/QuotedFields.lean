import Mathlib.Data.List.Basic

/-!
# Fields of a line with quotes

A line is cut at its delimiters, except inside quotes, until a number of fields is
reached.  A field that the end of the line cuts off counts only when it has text.
-/

namespace QuotedFields

variable {α : Type*} [DecidableEq α]

/-- The quote, and the delimiters between the fields. -/
structure Marks (α : Type*) where
  quote : α
  delim : List α

/-- Whether the reader is inside quotes behind `a`. -/
def Marks.turn (m : Marks α) (quoted : Bool) (a : α) : Bool :=
  if a = m.quote then !quoted else quoted

/-- The next `k` fields that a delimiter ends, the text behind the last delimiter, and
what is not read, when `cur` is the part of the first field that is already read. -/
def cut (m : Marks α) : ℕ → Bool → List α → List α → List (List α) × List α × List α
  | 0, _, cur, text => ([], cur, text)
  | _ + 1, _, cur, [] => ([], cur, [])
  | k + 1, quoted, cur, a :: text =>
      if m.turn quoted a = true ∨ a ∉ m.delim then
        cut m (k + 1) (m.turn quoted a) (cur ++ [a]) text
      else
        let r := cut m k false [] text
        (cur :: r.1, r.2)

/-- The first `k` fields of a text. -/
def fields (m : Marks α) (k : ℕ) (text : List α) : List (List α) :=
  let r := cut m k false [] text
  if r.2.1 = [] then r.1 else r.1 ++ [r.2.1]

/-- The part of a text that belongs to fields with their delimiters. -/
def span : List (List α) → ℕ
  | [] => 0
  | f :: fs => f.length + 1 + span fs

/-- No delimiter outside quotes. -/
def Plain (m : Marks α) : Bool → List α → Prop
  | _, [] => True
  | quoted, a :: text =>
      (m.turn quoted a = true ∨ a ∉ m.delim) ∧ Plain m (m.turn quoted a) text

/-- A text that is one field: every quote is closed. -/
def Closed (m : Marks α) (text : List α) : Prop :=
  Plain m false text ∧ text.foldl m.turn false = false

instance (m : Marks α) : (quoted : Bool) → (text : List α) → Decidable (Plain m quoted text)
  | _, [] => isTrue trivial
  | quoted, a :: text =>
      haveI := instDecidablePlain m (m.turn quoted a) text
      inferInstanceAs (Decidable (_ ∧ _))

instance (m : Marks α) (text : List α) : Decidable (Closed m text) :=
  inferInstanceAs (Decidable (_ ∧ _))

section Cut

variable {m : Marks α} {k : ℕ} {quoted : Bool} {cur text : List α} {a : α}

theorem cut_cons_of_plain (h : m.turn quoted a = true ∨ a ∉ m.delim) :
    cut m (k + 1) quoted cur (a :: text) =
      cut m (k + 1) (m.turn quoted a) (cur ++ [a]) text := by
  rw [cut, if_pos h]

theorem cut_cons_of_delim (h : ¬ (m.turn quoted a = true ∨ a ∉ m.delim)) :
    cut m (k + 1) quoted cur (a :: text) =
      (cur :: (cut m k false [] text).1, (cut m k false [] text).2) := by
  rw [cut, if_neg h]

/-- The length of what is cut. -/
theorem length_cut (m : Marks α) (k : ℕ) (quoted : Bool) (cur text : List α) :
    span (cut m k quoted cur text).1 + (cut m k quoted cur text).2.1.length +
      (cut m k quoted cur text).2.2.length = cur.length + text.length := by
  induction text generalizing k quoted cur with
  | nil => cases k <;> simp [cut, span]
  | cons a text ih =>
      cases k with
      | zero => simp [cut, span]
      | succ k =>
          by_cases h : m.turn quoted a = true ∨ a ∉ m.delim
          · rw [cut_cons_of_plain h, ih, List.length_append, List.length_singleton,
              List.length_cons]
            omega
          · have hrest := ih k false []
            rw [List.length_nil] at hrest
            rw [cut_cons_of_delim h, List.length_cons]
            simp only [span] at hrest ⊢
            omega

/-- Text behind the last delimiter means that a field is missing, and that everything
is read. -/
theorem cut_open (hcur : k = 0 → cur = [])
    (hopen : (cut m k quoted cur text).2.1 ≠ []) :
    (cut m k quoted cur text).1.length < k ∧ (cut m k quoted cur text).2.2 = [] := by
  induction text generalizing k quoted cur with
  | nil =>
      cases k with
      | zero => exact absurd (hcur rfl) hopen
      | succ k => exact ⟨Nat.succ_pos k, rfl⟩
  | cons a text ih =>
      cases k with
      | zero => exact absurd (hcur rfl) hopen
      | succ k =>
          by_cases h : m.turn quoted a = true ∨ a ∉ m.delim
          · rw [cut_cons_of_plain h] at hopen ⊢
            exact ih (fun hzero => absurd hzero (Nat.succ_ne_zero k)) hopen
          · rw [cut_cons_of_delim h] at hopen ⊢
            obtain ⟨hlen, hread⟩ := ih (fun _ => rfl) hopen
            exact ⟨Nat.succ_lt_succ hlen, hread⟩

/-- A text without delimiters passes the reader. -/
theorem cut_append_of_plain {front : List α} (h : Plain m quoted front) :
    cut m (k + 1) quoted cur (front ++ text) =
      cut m (k + 1) (front.foldl m.turn quoted) (cur ++ front) text := by
  induction front generalizing quoted cur with
  | nil => rw [List.nil_append, List.append_nil, List.foldl_nil]
  | cons a front ih =>
      rw [List.cons_append, cut_cons_of_plain h.1, ih h.2, List.append_assoc,
        List.foldl_cons]
      rfl

end Cut

section Join

variable {m : Marks α} {k : ℕ} {c : α} {f : List α} {fs : List (List α)}

@[simp] theorem fields_zero (m : Marks α) (text : List α) : fields m 0 text = [] := by
  cases text <;> rfl

theorem fields_of_closed (hf : Closed m f) (hne : f ≠ []) : fields m (k + 1) f = [f] := by
  have hcut : cut m (k + 1) false [] f = ([], f, []) := by
    have h : cut m (k + 1) false [] (f ++ []) =
        cut m (k + 1) (f.foldl m.turn false) ([] ++ f) [] := cut_append_of_plain hf.1
    rwa [List.append_nil, hf.2, List.nil_append, cut] at h
  rw [fields, hcut]
  exact if_neg hne

/-- A closed field in front of a delimiter is the first field. -/
theorem fields_closed_append (hf : Closed m f) (hc : c ∈ m.delim) (hquote : c ≠ m.quote)
    (text : List α) : fields m (k + 1) (f ++ c :: text) = f :: fields m k text := by
  have hturn : m.turn false c = false := if_neg hquote
  have hcut : cut m (k + 1) false [] (f ++ c :: text) =
      (f :: (cut m k false [] text).1, (cut m k false [] text).2) := by
    rw [cut_append_of_plain hf.1, hf.2, List.nil_append]
    exact cut_cons_of_delim (by simp [hturn, hc])
  rw [fields, hcut]
  unfold fields
  dsimp only
  split
  · rfl
  · rfl

/-- Fields that are joined by a delimiter are read back. -/
theorem fields_intercalate (hfs : ∀ f ∈ fs, Closed m f)
    (hsep : fs.length ≤ 1 ∨ c ∈ m.delim ∧ c ≠ m.quote)
    (hlast : fs.getLast? ≠ some [] ∨ k < fs.length) :
    fields m k ([c].intercalate fs) = fs.take k := by
  induction fs generalizing k with
  | nil =>
      rw [List.take_nil]
      cases k <;> rfl
  | cons f fs ih =>
      have hf := hfs f List.mem_cons_self
      have hrest : ∀ f ∈ fs, Closed m f := fun f h => hfs f (List.mem_cons_of_mem _ h)
      cases k with
      | zero => rw [fields_zero, List.take_zero]
      | succ k =>
          cases fs with
          | nil =>
              have hne : f ≠ [] := by
                rintro rfl
                simp at hlast
              rw [List.intercalate_singleton, fields_of_closed hf hne, List.take_succ_cons,
                List.take_nil]
          | cons g fs =>
              have hsep' : c ∈ m.delim ∧ c ≠ m.quote := by
                refine hsep.resolve_left ?_
                rw [List.length_cons, List.length_cons]
                omega
              have hlast' : (g :: fs).getLast? ≠ some [] ∨ k < (g :: fs).length := by
                rw [List.getLast?_cons_cons, List.length_cons] at hlast
                exact hlast.imp_right Nat.lt_of_succ_lt_succ
              rw [List.intercalate_cons_cons, List.append_assoc, List.singleton_append,
                fields_closed_append hf hsep'.1 hsep'.2, ih hrest (Or.inr hsep') hlast',
                List.take_succ_cons]

end Join

end QuotedFields
