import RtpMulticast.Support.ByteBuffer

/-!
# Printed text

The bytes that the conversions of `snprintf` print, for texts in ASCII.
-/

namespace Text

open ByteBuffer

/-- The bytes of a text of ASCII characters. -/
def ascii (s : String) : Bytes := s.toList.map fun c => UInt8.ofNat c.toNat

/-- The conversion `%u`. -/
def decimal (n : ℕ) : Bytes := (Nat.toDigits 10 n).map fun c => UInt8.ofNat c.toNat

/-- A conversion with a minimal width, filled up on the left. -/
def padded (width : ℕ) (fill : UInt8) (text : Bytes) : Bytes :=
  List.replicate (width - text.length) fill ++ text

/-- The conversion `%d`. -/
def signedDecimal (z : ℤ) : Bytes :=
  if z < 0 then 0x2D :: decimal z.natAbs else decimal z.natAbs

/-- A format with its conversions, of two characters each, replaced by the texts of
the arguments. -/
def format : Bytes → List Bytes → Bytes
  | [], _ => []
  | [c], _ => [c]
  | c :: d :: fmt, args =>
      if c = 0x25 then
        match args with
        | [] => format fmt []
        | arg :: args => arg ++ format fmt args
      else c :: format (d :: fmt) args

/-- The result of `snprintf`, an `int` of 32 bits: the length of the text, or an error
when that does not fit. -/
def snprintfResult (text : Bytes) : ℤ :=
  if text.length < 2 ^ 31 then text.length else -1

/-- What `snprintf` writes to a buffer of `size` bytes. -/
def snprintfBuffer (size : ℕ) (text : Bytes) : Bytes :=
  text.take (size - 1) ++ [0]

theorem length_ascii (s : String) : (ascii s).length = s.length := by
  rw [ascii, List.length_map, String.length_toList]

theorem ascii_append (s t : String) : ascii (s ++ t) = ascii s ++ ascii t := by
  rw [ascii, String.toList_append, List.map_append]
  rfl

theorem length_decimal_le_iff {n k : ℕ} (hk : 0 < k) :
    (decimal n).length ≤ k ↔ n < 10 ^ k := by
  rw [decimal, List.length_map]
  exact Nat.length_toDigits_le_iff (by decide) hk

theorem length_padded (width : ℕ) (fill : UInt8) {text : Bytes}
    (h : text.length ≤ width) : (padded width fill text).length = width := by
  rw [padded, List.length_append, List.length_replicate]
  omega

theorem signedDecimal_natCast (n : ℕ) : signedDecimal n = decimal n := by
  rw [signedDecimal, if_neg (by omega), Int.natAbs_natCast]

/-- The text in front of a conversion is printed as it stands. -/
theorem format_conversion {literal : Bytes} (h : 0x25 ∉ literal) (c : UInt8)
    (fmt arg : Bytes) (args : List Bytes) :
    format (literal ++ 0x25 :: c :: fmt) (arg :: args) =
      literal ++ (arg ++ format fmt args) := by
  induction literal with
  | nil => rfl
  | cons b literal ih =>
      have hb : b ≠ 0x25 := fun heq => h (List.mem_cons.mpr (Or.inl heq.symm))
      have hrest : 0x25 ∉ literal := fun hmem => h (List.mem_cons_of_mem b hmem)
      have hstep : ∀ d rest args,
          format (b :: d :: rest) args = b :: format (d :: rest) args := by
        intro d rest args
        simp only [format, if_neg hb]
      cases literal with
      | nil =>
          rw [List.singleton_append, hstep]
          rfl
      | cons d literal =>
          rw [List.cons_append, List.cons_append, hstep, ← List.cons_append,
            ih hrest]
          rfl

/-- A buffer larger than the text holds all of it. -/
theorem take_snprintfBuffer {size : ℕ} {text : Bytes} (h : text.length < size) :
    (snprintfBuffer size text).take text.length = text := by
  have hfits : text.take (size - 1) = text := List.take_of_length_le (by omega)
  rw [snprintfBuffer, hfits, List.take_left]

/-- In a buffer of its own length a text has its last byte replaced. -/
theorem take_snprintfBuffer_self {text : Bytes} (h : text ≠ []) :
    (snprintfBuffer text.length text).take text.length =
      text.take (text.length - 1) ++ [0] := by
  have hpos := List.length_pos_iff.mpr h
  rw [snprintfBuffer, List.take_of_length_le]
  simp only [List.length_append, List.length_take, List.length_singleton]
  omega

end Text
