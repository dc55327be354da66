import RtpMulticast.Support.ByteBuffer
import Mathlib.Data.List.Infix
import Mathlib.Data.List.TakeWhile

/-!
# Strings of the C library

A C string is the bytes in front of the first zero byte.  The functions of
`string.h` and `stdlib.h` that read one are given on the object that holds it;
to run past the object without a terminator is a fault.
-/

namespace CStrings

open ByteBuffer

/-! ## Strings in memory -/

/-- The bytes in front of the terminator. -/
def stringOf (bytes : Bytes) : Bytes := bytes.takeWhile (· ≠ 0)

/-- A string without its terminator. -/
abbrev CText : Type := {text : Bytes // 0 ∉ text}

/-- The string at `pos` of an object. -/
def cString (buf : Bytes) (pos : ℕ) : Except Fault Bytes :=
  if 0 ∈ buf.drop pos then .ok (stringOf (buf.drop pos))
  else .error .outOfBounds

theorem stringOf_append_zeros (bytes : Bytes) (n : ℕ) :
    stringOf (bytes ++ List.replicate n 0) = stringOf bytes := by
  induction bytes with
  | nil =>
      cases n with
      | zero => rfl
      | succ n => rfl
  | cons b bytes ih =>
      by_cases hb : b = 0
      · simp [stringOf, hb]
      · simpa [stringOf, hb] using ih

theorem stringOf_append_nul (bytes rest : Bytes) :
    stringOf (bytes ++ 0 :: rest) = stringOf bytes := by
  induction bytes with
  | nil => rfl
  | cons b bytes ih =>
      by_cases hb : b = 0
      · simp [stringOf, hb]
      · simpa [stringOf, hb] using ih

theorem stringOf_isPrefix (bytes : Bytes) : stringOf bytes <+: bytes :=
  List.takeWhile_prefix _

/-- The string of bytes without a terminator goes on behind them. -/
theorem stringOf_append {bytes : Bytes} (h : 0 ∉ bytes) (rest : Bytes) :
    stringOf (bytes ++ rest) = bytes ++ stringOf rest := by
  apply List.takeWhile_append_of_pos
  intro b hb
  exact decide_eq_true fun hzero => h (hzero ▸ hb)

theorem stringOf_prefix_append (bytes rest : Bytes) :
    stringOf bytes <+: stringOf (bytes ++ rest) := by
  induction bytes with
  | nil => exact List.nil_prefix
  | cons b bytes ih =>
      by_cases hb : b = 0
      · simp [stringOf, hb]
      · simpa [stringOf, hb] using ih

theorem stringOf_drop {bytes : Bytes} {pos : ℕ}
    (hpos : pos ≤ (stringOf bytes).length) :
    stringOf (bytes.drop pos) = (stringOf bytes).drop pos := by
  induction bytes generalizing pos with
  | nil => simp [stringOf]
  | cons b bytes ih =>
      cases pos with
      | zero => rfl
      | succ pos =>
          by_cases hb : b = 0
          · simp [stringOf, hb] at hpos
          · have hcons : stringOf (b :: bytes) = b :: stringOf bytes := by
              simp [stringOf, hb]
            rw [hcons, List.length_cons] at hpos
            rw [hcons, List.drop_succ_cons, List.drop_succ_cons]
            exact ih (Nat.le_of_succ_le_succ hpos)

/-- A byte of a string, or its terminator. -/
theorem loadU8_stringOf {buf : Bytes} (hmem : 0 ∈ buf) {i : ℕ}
    (hi : i ≤ (stringOf buf).length) :
    loadU8 buf i = .ok ((stringOf buf).getD i 0) := by
  induction buf generalizing i with
  | nil => simp at hmem
  | cons b buf ih =>
      by_cases hb : b = 0
      · have hnil : stringOf (b :: buf) = [] := by simp [stringOf, hb]
        rw [hnil, List.length_nil, Nat.le_zero] at hi
        rw [hnil, hi, hb]
        rfl
      · have hcons : stringOf (b :: buf) = b :: stringOf buf := by
          simp [stringOf, hb]
        rw [hcons] at hi ⊢
        cases i with
        | zero => rfl
        | succ i =>
            have hrest := (List.mem_cons.mp hmem).resolve_left (Ne.symm hb)
            have hload := ih hrest (Nat.le_of_succ_le_succ hi)
            rw [List.getD_cons_succ, ← hload]
            rfl

theorem cString_zeros (bytes : Bytes) {n : ℕ} (hn : 0 < n) :
    cString (bytes ++ List.replicate n 0) 0 = .ok (stringOf bytes) := by
  have hmem : (0 : UInt8) ∈ (bytes ++ List.replicate n 0).drop 0 :=
    List.mem_append_right _ (List.mem_replicate.mpr ⟨by omega, rfl⟩)
  rw [cString, if_pos hmem, List.drop_zero, stringOf_append_zeros]

/-- The bytes of a string and zeros behind them, `n` in all; a longer string is cut
and has no terminator. -/
def strncpy (dst : Bytes) (src : CText) (n : ℕ) : Except Fault Bytes :=
  copyIn dst 0 (src.1.take n ++ List.replicate (n - src.1.length) 0)

/-- The length of a string of which at most `max` bytes are read. -/
def strnlen : Bytes → ℕ → Except Fault ℕ
  | _, 0 => .ok 0
  | [], _ + 1 => .error .outOfBounds
  | b :: buf, max + 1 =>
      if b = 0 then .ok 0 else (strnlen buf max).map (· + 1)

/-- The bytes end with a terminator or with the bound. -/
theorem strnlen_append {s rest : Bytes} {max : ℕ} (hzero : 0 ∉ s)
    (hmax : s.length ≤ max) (hend : s.length = max ∨ rest.head? = some 0) :
    strnlen (s ++ rest) max = .ok s.length := by
  induction s generalizing max with
  | nil =>
      cases max with
      | zero => rw [List.nil_append, strnlen, List.length_nil]
      | succ max =>
          have hhead : rest.head? = some 0 := by
            refine hend.resolve_left ?_
            exact Nat.succ_ne_zero max ∘ Eq.symm
          obtain ⟨tail, rfl⟩ := List.head?_eq_some_iff.mp hhead
          rfl
  | cons b s ih =>
      rw [List.mem_cons, not_or] at hzero
      obtain ⟨hb, hrest⟩ := hzero
      obtain ⟨max, rfl⟩ := Nat.exists_eq_add_one_of_ne_zero
        (Nat.pos_iff_ne_zero.mp (Nat.lt_of_lt_of_le (Nat.succ_pos _) hmax))
      have hlen := ih hrest (Nat.le_of_succ_le_succ hmax)
        (hend.imp_left Nat.succ.inj)
      rw [List.cons_append, strnlen, if_neg (fun heq => hb heq.symm), hlen]
      rfl

/-! ## Searching -/

/-- Position of the first occurrence of `needle`. -/
def find (needle : Bytes) : Bytes → Option ℕ
  | [] => if needle = [] then some 0 else none
  | b :: s =>
      if needle <+: b :: s then some 0 else (find needle s).map (· + 1)

/-- `needle` occurs at `i` and nowhere in front of it. -/
def FirstAt (needle s : Bytes) (i : ℕ) : Prop :=
  needle <+: s.drop i ∧ ∀ j < i, ¬ needle <+: s.drop j

theorem find_eq_some_iff {needle s : Bytes} {i : ℕ} (hneedle : needle ≠ []) :
    find needle s = some i ↔ FirstAt needle s i := by
  induction s generalizing i with
  | nil => simp [find, FirstAt, hneedle]
  | cons b s ih =>
      rw [find]
      by_cases hfront : needle <+: b :: s
      · rw [if_pos hfront, Option.some.injEq]
        constructor
        · rintro rfl
          exact ⟨hfront, fun j hj => absurd hj (Nat.not_lt_zero j)⟩
        · rintro ⟨-, hbefore⟩
          by_contra hi
          exact hbefore 0 (by omega) hfront
      · rw [if_neg hfront, Option.map_eq_some_iff]
        constructor
        · rintro ⟨k, hk, rfl⟩
          obtain ⟨hat, hbefore⟩ := ih.mp hk
          refine ⟨hat, ?_⟩
          intro j hj
          cases j with
          | zero => exact hfront
          | succ j => exact hbefore j (by omega)
        · rintro ⟨hat, hbefore⟩
          obtain ⟨k, rfl⟩ : ∃ k, i = k + 1 := by
            cases i with
            | zero => exact absurd hat hfront
            | succ k => exact ⟨k, rfl⟩
          exact ⟨k, ih.mpr ⟨hat, fun j hj => hbefore (j + 1) (by omega)⟩, rfl⟩

theorem find_singleton_cons (c b : UInt8) (s : Bytes) :
    find [c] (b :: s) = if c = b then some 0 else (find [c] s).map (· + 1) := by
  rw [find]
  simp only [List.cons_prefix_cons, List.nil_prefix, and_true]

theorem find_eq_none_iff {needle s : Bytes} (hneedle : needle ≠ []) :
    find needle s = none ↔ ∀ i, ¬ FirstAt needle s i := by
  rw [Option.eq_none_iff_forall_ne_some]
  exact forall_congr' fun i => not_congr (find_eq_some_iff hneedle)

theorem FirstAt.le_length {needle s : Bytes} {i : ℕ} (hneedle : needle ≠ [])
    (h : FirstAt needle s i) : i + needle.length ≤ s.length := by
  have hlen := h.1.length_le
  have hpos := List.length_pos_iff.mpr hneedle
  rw [List.length_drop] at hlen
  omega

/-- An occurrence is found in every longer string, at the same place. -/
theorem FirstAt.mono {needle s t : Bytes} {i : ℕ} (hneedle : needle ≠ [])
    (h : FirstAt needle s i) (hst : s <+: t) : FirstAt needle t i := by
  obtain ⟨rest, rfl⟩ := hst
  have hfit := h.le_length hneedle
  constructor
  · rw [List.drop_append_of_le_length (by omega)]
    exact h.1.trans (List.prefix_append _ _)
  · intro j hj hfront
    apply h.2 j hj
    rw [List.drop_append_of_le_length (by omega)] at hfront
    refine List.prefix_of_prefix_length_le hfront (List.prefix_append _ _) ?_
    rw [List.length_drop]
    omega

theorem FirstAt.unique {needle s : Bytes} {i j : ℕ} (hi : FirstAt needle s i)
    (hj : FirstAt needle s j) : i = j := by
  rcases lt_trichotomy i j with hlt | rfl | hlt
  · exact absurd hi.1 (hj.2 i hlt)
  · rfl
  · exact absurd hj.1 (hi.2 j hlt)

/-- `strstr` on the string at the start of an object. -/
def strstr (buf needle : Bytes) : Except Fault (Option ℕ) := do
  let s ← cString buf 0
  return find needle s

theorem strstr_zeros (bytes needle : Bytes) {n : ℕ} (hn : 0 < n) :
    strstr (bytes ++ List.replicate n 0) needle =
      .ok (find needle (stringOf bytes)) := by
  rw [strstr, cString_zeros bytes hn, ok_bind]
  rfl

/-- Whether `strncmp` finds the bytes at `pos` equal to all of `s`, a string
without terminator. -/
def strncmpEq (buf : Bytes) (pos : ℕ) : Bytes → Except Fault Bool
  | [] => .ok true
  | c :: s => do
      let b ← loadU8 buf pos
      if b ≠ c then
        return false
      strncmpEq buf (pos + 1) s

theorem strncmpEq_of_le {buf : Bytes} {pos : ℕ} {s : Bytes}
    (hfit : pos + s.length ≤ buf.length) :
    strncmpEq buf pos s = .ok (decide ((buf.drop pos).take s.length = s)) := by
  induction s generalizing pos with
  | nil => simp [strncmpEq]
  | cons c s ih =>
      rw [List.length_cons] at hfit
      have hpos : pos < buf.length := by omega
      have hrest := ih (show pos + 1 + s.length ≤ buf.length by omega)
      rw [strncmpEq, loadU8_of_lt hpos, ok_bind, List.drop_eq_getElem_cons hpos,
        List.length_cons, List.take_succ_cons]
      by_cases hb : buf[pos] = c
      · simp [hb, hrest]
      · simp [hb]

/-! ## Numbers -/

def isSpace (b : UInt8) : Bool :=
  b = 0x20 ∨ (0x09 ≤ b ∧ b ≤ 0x0D)

def isDigit (b : UInt8) : Bool := 0x30 ≤ b ∧ b ≤ 0x39

/-- Value of a string of decimal digits. -/
def digitsValue (digits : Bytes) : ℕ :=
  digits.foldl (fun value b => value * 10 + (b.toNat - 0x30)) 0

/-- The nearest value that a `long` of 32 bits holds. -/
def clampLong (value : Int) : Int :=
  max (-2 ^ 31) (min value (2 ^ 31 - 1))

/-- Whether a number has a minus sign, and the size of its sign. -/
def signOf : Bytes → Bool × ℕ
  | [] => (false, 0)
  | b :: _ =>
      if b = 0x2D then (true, 1)
      else if b = 0x2B then (false, 1)
      else (false, 0)

/-- `strtol` with base 10 on a string: the value and the number of bytes it
read, none when there are no digits. -/
def strtol (s : Bytes) : Int × ℕ :=
  let blank := (s.takeWhile isSpace).length
  let sign := signOf (s.drop blank)
  let digits := (s.drop (blank + sign.2)).takeWhile isDigit
  if digits = [] then (0, 0)
  else
    (clampLong (if sign.1 then -digitsValue digits else digitsValue digits),
      blank + sign.2 + digits.length)

theorem isDigit_iff (b : UInt8) :
    isDigit b = true ↔ 0x30 ≤ b.toNat ∧ b.toNat ≤ 0x39 := by
  simp only [isDigit, decide_eq_true_eq, UInt8.le_iff_toNat_le]
  rfl

theorem isSpace_of_isDigit {b : UInt8} (h : isDigit b = true) :
    isSpace b = false := by
  have hall : ∀ b : UInt8, isDigit b = true → isSpace b = false :=
    forall_byte (by decide)
  exact hall b h

theorem ne_of_isDigit {b c : UInt8} (h : isDigit b = true)
    (hc : isDigit c = false) : b ≠ c := by
  rintro rfl
  rw [h] at hc
  cases hc

/-- All digits in front. -/
theorem strtol_digits_append {digits s : Bytes} (hne : digits ≠ [])
    (hdigits : ∀ b ∈ digits, isDigit b = true) (hstop : s.takeWhile isDigit = []) :
    strtol (digits ++ s) = (clampLong (digitsValue digits), digits.length) := by
  obtain ⟨b, rest, rfl⟩ := List.exists_cons_of_ne_nil hne
  have hb := hdigits b List.mem_cons_self
  have hblank : (b :: rest ++ s).takeWhile isSpace = [] := by
    rw [List.cons_append, List.takeWhile_cons_of_neg]
    rw [isSpace_of_isDigit hb]
    exact Bool.false_ne_true
  have hspan : (b :: rest ++ s).takeWhile isDigit = b :: rest := by
    rw [List.takeWhile_append_of_pos hdigits, hstop, List.append_nil]
  have hminus : b ≠ 0x2D := ne_of_isDigit hb rfl
  have hplus : b ≠ 0x2B := ne_of_isDigit hb rfl
  have hsign : signOf (b :: rest ++ s) = (false, 0) := by
    rw [List.cons_append, signOf, if_neg hminus, if_neg hplus]
  simp only [strtol, hblank, List.length_nil, List.drop_zero, hsign,
    Nat.zero_add, hspan, Bool.false_eq_true, if_false, reduceCtorEq]

/-- Digits in front of a byte that is none. -/
theorem strtol_digits {digits : Bytes} (hne : digits ≠ [])
    (hdigits : ∀ b ∈ digits, isDigit b = true) {stop : UInt8}
    (hstop : isDigit stop = false) (s : Bytes) :
    strtol (digits ++ stop :: s) =
      (clampLong (digitsValue digits), digits.length) := by
  apply strtol_digits_append hne hdigits
  rw [List.takeWhile_cons_of_neg]
  rw [hstop]
  exact Bool.false_ne_true

theorem strtol_le (s : Bytes) : (strtol s).2 ≤ s.length := by
  rw [strtol]
  split
  · exact Nat.zero_le _
  · next hne =>
      have hpos := List.length_pos_iff.mpr hne
      have hle := (List.takeWhile_prefix isDigit (l := s.drop
        ((s.takeWhile isSpace).length +
          (signOf (s.drop (s.takeWhile isSpace).length)).2))).length_le
      rw [List.length_drop] at hle
      simp only
      omega

end CStrings
