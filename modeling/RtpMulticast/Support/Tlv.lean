import RtpMulticast.Support.ByteBuffer

/-!
# Areas of type-length-value options

An option area is read from left to right.  A padding code is a single byte, the
stop code ends the area, and every other code is followed by a length byte and
that many bytes of data.
-/

namespace Tlv

open ByteBuffer

/-- The first option with a code starts at position `p` of the area, and its length
byte and data lie in the area. -/
inductive FirstOption (pad stop code : UInt8) : Bytes → ℕ → Prop
  | here {n : UInt8} {rest : Bytes} (fits : n.toNat ≤ rest.length) :
      FirstOption pad stop code (code :: n :: rest) 0
  | pad {rest : Bytes} {p : ℕ} (tail : FirstOption pad stop code rest p) :
      FirstOption pad stop code (pad :: rest) (p + 1)
  | skip {c n : UInt8} {rest : Bytes} {p : ℕ}
      (notPad : c ≠ pad) (notStop : c ≠ stop) (notCode : c ≠ code)
      (tail : FirstOption pad stop code (rest.drop n.toNat) p) :
      FirstOption pad stop code (c :: n :: rest) (p + (n.toNat + 2))

/-- Where the option at position `p` ends. -/
def optionEnd (area : Bytes) (p : ℕ) : ℕ := p + 2 + (area.getD (p + 1) 0).toNat

section Reading

variable {pad stop code c n : UInt8} {area rest : Bytes} {p : ℕ}

theorem not_firstOption_nil : ¬ FirstOption pad stop code [] p := by
  rintro ⟨⟩

theorem not_firstOption_lone (hc : c ≠ pad) : ¬ FirstOption pad stop code [c] p := by
  intro h
  cases h with
  | pad => exact hc rfl

theorem not_firstOption_stop (hpad : stop ≠ pad) (hcode : stop ≠ code) :
    ¬ FirstOption pad stop code (stop :: rest) p := by
  intro h
  cases h with
  | here => exact hcode rfl
  | pad => exact hpad rfl
  | skip _ notStop => exact notStop rfl

theorem firstOption_here_iff (hpad : code ≠ pad) :
    FirstOption pad stop code (code :: n :: rest) p ↔ p = 0 ∧ n.toNat ≤ rest.length := by
  constructor
  · intro h
    cases h with
    | here fits => exact ⟨rfl, fits⟩
    | pad => exact absurd rfl hpad
    | skip _ _ notCode => exact absurd rfl notCode
  · rintro ⟨rfl, fits⟩
    exact .here fits

theorem firstOption_pad_iff (hcode : pad ≠ code) :
    FirstOption pad stop code (pad :: rest) p ↔
      ∃ q, p = q + 1 ∧ FirstOption pad stop code rest q := by
  constructor
  · intro h
    cases h with
    | here => exact absurd rfl hcode
    | pad tail => exact ⟨_, rfl, tail⟩
    | skip notPad => exact absurd rfl notPad
  · rintro ⟨q, rfl, tail⟩
    exact .pad tail

theorem firstOption_skip_iff (hpad : c ≠ pad) (hstop : c ≠ stop) (hcode : c ≠ code) :
    FirstOption pad stop code (c :: n :: rest) p ↔
      ∃ q, p = q + (n.toNat + 2) ∧
        FirstOption pad stop code (rest.drop n.toNat) q := by
  constructor
  · intro h
    cases h with
    | here => exact absurd rfl hcode
    | pad => exact absurd rfl hpad
    | skip _ _ _ tail => exact ⟨_, rfl, tail⟩
  · rintro ⟨q, rfl, tail⟩
    exact .skip hpad hstop hcode tail

theorem FirstOption.bounds (h : FirstOption pad stop code area p) :
    p + 1 < area.length ∧ optionEnd area p ≤ area.length := by
  induction h with
  | here fits =>
      simp only [optionEnd, List.length_cons, Nat.zero_add, List.getD_cons_succ,
        List.getD_cons_zero]
      omega
  | pad _ ih =>
      obtain ⟨h₁, h₂⟩ := ih
      simp only [optionEnd, List.length_cons, List.getD_cons_succ] at h₁ h₂ ⊢
      omega
  | @skip c n rest p _ _ _ _ ih =>
      obtain ⟨h₁, h₂⟩ := ih
      have hget : (c :: n :: rest).getD (p + (n.toNat + 2) + 1) 0 =
          (rest.drop n.toNat).getD (p + 1) 0 := by
        rw [show p + (n.toNat + 2) + 1 = n.toNat + (p + 1) + 2 by omega,
          List.getD_cons_succ, List.getD_cons_succ]
        simp [List.getD_eq_getElem?_getD]
      simp only [optionEnd, List.length_cons, List.length_drop, hget] at h₁ h₂ ⊢
      omega

end Reading

end Tlv
