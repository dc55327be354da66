import RtpMulticast.Lwip.DhcpServer
import RtpMulticast.Support.Tlv

/-!
# Finding an option of a DHCP message

`dhcp_server_option_find` walks over the options of a received message and takes
every code but END for one with a length byte, also PAD, which has none.
-/

namespace RtpMulticast

open ByteBuffer ByteMemory Tlv

/-! ## The search with checked reads -/

/-- The loop of `dhcp_server_option_find` with `buf` at an offset of the area. -/
def optionFindFrom (area : Bytes) (option : UInt8) : ℕ → ℕ → Except Fault (Option ℕ)
  | 0, _ => .ok none
  | n + 1, buf =>
      if buf < area.length then do
        let code ← loadU8 area buf
        if code = 255 then .ok none
        else if code = option then .ok (some buf)
        else do
          let length ← loadU8 area (buf + 1)
          optionFindFrom area option n (buf + (length.toNat + 2))
      else .ok none

def dhcpServerOptionFindIn (area : Bytes) (option : UInt8) : Except Fault (Option ℕ) :=
  optionFindFrom area option area.length 0

/-- How many bytes of data the callers read behind the option they are given:
`opt[2..5]` of a requested address, `opt[2]` of a message type. -/
def callerReads (option : UInt8) : ℕ :=
  if option = 50 then 4 else if option = 53 then 1 else 0

/-- No read leaves the area, the result is the position of the first option with the
code or none, and what the callers read behind it is in the area. -/
def OptionFindCorrect (area : Bytes) (option : UInt8) : Prop :=
  ∃ r, dhcpServerOptionFindIn area option = .ok r ∧
    (∀ pos, r = some pos ↔ FirstOption 0 255 option area pos) ∧
    ∀ pos, r = some pos →
      optionEnd area pos ≤ area.length ∧ pos + 2 + callerReads option ≤ area.length

/-! ## One round of the loop -/

section Round

variable {area rest : Bytes} {option c len : UInt8} {n buf : ℕ}

theorem lt_length_of_drop_eq_cons (h : area.drop buf = c :: rest) : buf < area.length := by
  by_contra hge
  rw [List.drop_eq_nil_of_le (by omega)] at h
  exact List.cons_ne_nil _ _ h.symm

theorem loadU8_of_drop_eq_cons (h : area.drop buf = c :: rest) :
    loadU8 area buf = .ok c := by
  rw [← Nat.add_zero buf, ← loadU8_drop, h]
  rfl

theorem loadU8_succ_of_drop_eq_cons (h : area.drop buf = c :: rest) :
    loadU8 area (buf + 1) = loadU8 rest 0 := by
  rw [← loadU8_drop, h]
  rfl

theorem drop_next_of_drop_eq_cons (h : area.drop buf = c :: len :: rest) :
    area.drop (buf + (len.toNat + 2)) = rest.drop len.toNat := by
  rw [← List.drop_drop, h, List.drop_succ_cons, List.drop_succ_cons]

theorem optionFindFrom_nil (h : area.drop buf = []) :
    optionFindFrom area option n buf = .ok none := by
  have hle : ¬ buf < area.length := by
    simpa using h
  cases n with
  | zero => rfl
  | succ n => rw [optionFindFrom, if_neg hle]

theorem optionFindFrom_stop (h : area.drop buf = 255 :: rest) :
    optionFindFrom area option n buf = .ok none := by
  cases n with
  | zero => rfl
  | succ n =>
      rw [optionFindFrom, if_pos (lt_length_of_drop_eq_cons h), loadU8_of_drop_eq_cons h]
      simp

theorem optionFindFrom_found (h : area.drop buf = option :: rest) (hstop : option ≠ 255) :
    optionFindFrom area option (n + 1) buf = .ok (some buf) := by
  rw [optionFindFrom, if_pos (lt_length_of_drop_eq_cons h), loadU8_of_drop_eq_cons h]
  simp [hstop]

/-- A code in the last byte: the length byte is read behind the area. -/
theorem optionFindFrom_lone (h : area.drop buf = [c]) (hstop : c ≠ 255)
    (hcode : c ≠ option) :
    optionFindFrom area option (n + 1) buf = .error .outOfBounds := by
  rw [optionFindFrom, if_pos (lt_length_of_drop_eq_cons h), loadU8_of_drop_eq_cons h,
    ok_bind, if_neg hstop, if_neg hcode, loadU8_succ_of_drop_eq_cons h]
  rfl

theorem optionFindFrom_next (h : area.drop buf = c :: len :: rest) (hstop : c ≠ 255)
    (hcode : c ≠ option) :
    optionFindFrom area option (n + 1) buf =
      optionFindFrom area option n (buf + (len.toNat + 2)) := by
  rw [optionFindFrom, if_pos (lt_length_of_drop_eq_cons h), loadU8_of_drop_eq_cons h,
    ok_bind, if_neg hstop, if_neg hcode, loadU8_succ_of_drop_eq_cons h]
  rfl

end Round

/-- Positions that the loop returns are not in front of where it started. -/
theorem le_of_optionFindFrom {area : Bytes} {option : UInt8} {n buf pos : ℕ}
    (h : optionFindFrom area option n buf = .ok (some pos)) : buf ≤ pos := by
  induction n generalizing buf with
  | zero => simp [optionFindFrom] at h
  | succ n ih =>
      match hs : area.drop buf with
      | [] => simp [optionFindFrom_nil hs] at h
      | c :: rest =>
          by_cases hstop : c = 255
          · subst hstop
            simp [optionFindFrom_stop hs] at h
          by_cases hcode : c = option
          · subst hcode
            rw [optionFindFrom_found hs hstop] at h
            simp only [Except.ok.injEq, Option.some.injEq] at h
            exact h.le
          match rest with
          | [] => simp [optionFindFrom_lone hs hstop hcode] at h
          | len :: rest =>
              rw [optionFindFrom_next hs hstop hcode] at h
              have := ih h
              omega

/-- The search in the memory of a message is the search in the area, when that one
stays inside. -/
theorem optionFrom_eq_of_ok {m : Memory} {a : ℕ} {area : Bytes} {option : UInt8}
    {n buf : ℕ} {r : Option ℕ}
    (hm : ∀ i b, area[i]? = some b → m (a + i) = b)
    (h : optionFindFrom area option n buf = .ok r) :
    optionFrom m (a + area.length) option n (a + buf) = r.map (a + ·) := by
  induction n generalizing buf with
  | zero =>
      obtain rfl : none = r := by simpa [optionFindFrom] using h
      rfl
  | succ n ih =>
      rw [optionFindFrom] at h
      rw [optionFrom]
      by_cases hlt : buf < area.length
      · rw [if_pos hlt, loadU8_of_lt hlt, ok_bind] at h
        have hcode : m (a + buf) = area[buf] := hm buf _ (List.getElem?_eq_getElem hlt)
        rw [hcode]
        by_cases hstop : area[buf] = 255
        · rw [if_pos hstop] at h
          obtain rfl : none = r := by simpa using h
          rw [if_neg fun hc => hc.2 hstop]
          rfl
        rw [if_neg hstop] at h
        rw [if_pos ⟨by omega, hstop⟩]
        by_cases hfound : area[buf] = option
        · rw [if_pos hfound] at h
          obtain rfl : some buf = r := by simpa using h
          rw [if_pos hfound]
          rfl
        rw [if_neg hfound] at h
        rw [if_neg hfound]
        obtain ⟨len, hlen, h⟩ := bind_eq_ok.mp h
        have hnext : buf + 1 < area.length := by
          by_contra hge
          simp [loadU8_of_le (Nat.le_of_not_lt hge)] at hlen
        have hlen' : area[buf + 1] = len := by
          simpa [loadU8_of_lt hnext] using hlen
        have hm' := hm (buf + 1) len (hlen' ▸ List.getElem?_eq_getElem hnext)
        have := ih h
        rwa [show a + buf + 1 = a + (buf + 1) from rfl, hm',
          show a + buf + len.toNat + 2 = a + (buf + (len.toNat + 2)) by omega]
      · rw [if_neg hlt] at h
        obtain rfl : none = r := by simpa using h
        rw [if_neg fun hc => hlt (by omega)]
        rfl

theorem dhcpServerOptionFind_eq_of_ok {m : Memory} {a : ℕ} {area : Bytes}
    {option : UInt8} {r : Option ℕ} (hm : ∀ i b, area[i]? = some b → m (a + i) = b)
    (h : dhcpServerOptionFindIn area option = .ok r) :
    dhcpServerOptionFind m a area.length option = r.map (a + ·) :=
  optionFrom_eq_of_ok hm h

/-! ## Areas that the loop reads like RFC 2132 -/

/-- Every PAD that is met before the search ends is followed by a second one, which
the loop takes for the length byte of the first. -/
inductive PadsPaired (option : UInt8) : Bytes → Prop
  | nil : PadsPaired option []
  | stop (rest : Bytes) : PadsPaired option (255 :: rest)
  | lone {c : UInt8} (notStop : c ≠ 255) : PadsPaired option [c]
  | found (n : UInt8) (rest : Bytes) : PadsPaired option (option :: n :: rest)
  | pads {rest : Bytes} (tail : PadsPaired option rest) :
      PadsPaired option (0 :: 0 :: rest)
  | skip {c n : UInt8} {rest : Bytes} (notPad : c ≠ 0) (notStop : c ≠ 255)
      (notCode : c ≠ option) (tail : PadsPaired option (rest.drop n.toNat)) :
      PadsPaired option (c :: n :: rest)

/-- No code is the last byte in front of which the search goes on, and the option that
ends the search has its data in the area, and as much as the callers read. -/
inductive SearchComplete (option : UInt8) : Bytes → Prop
  | nil : SearchComplete option []
  | stop (rest : Bytes) : SearchComplete option (255 :: rest)
  | found {n : UInt8} {rest : Bytes} (fits : n.toNat ≤ rest.length)
      (reads : callerReads option ≤ rest.length) :
      SearchComplete option (option :: n :: rest)
  | skip {c n : UInt8} {rest : Bytes} (notStop : c ≠ 255) (notCode : c ≠ option)
      (tail : SearchComplete option (rest.drop n.toNat)) :
      SearchComplete option (c :: n :: rest)

/-- `OptionFindCorrect` for the loop that is at `base`, with the bytes `s` ahead. -/
def FindCorrectFrom (option : UInt8) (s : Bytes) (base : ℕ)
    (result : Except Fault (Option ℕ)) : Prop :=
  ∃ r, result = .ok r ∧
    (∀ pos, r = some pos ↔ ∃ p, pos = base + p ∧ FirstOption 0 255 option s p) ∧
    ∀ p, FirstOption 0 255 option s p → p + 2 + callerReads option ≤ s.length

section Search

variable {area s rest : Bytes} {option c len : UInt8} {n base buf : ℕ}

theorem optionFindCorrect_iff :
    OptionFindCorrect area option ↔
      FindCorrectFrom option area 0 (dhcpServerOptionFindIn area option) := by
  unfold OptionFindCorrect FindCorrectFrom
  simp only [Nat.zero_add, exists_eq_left']
  constructor
  · rintro ⟨r, hr, hfirst, hin⟩
    exact ⟨r, hr, hfirst, fun p hp => (hin p ((hfirst p).mpr hp)).2⟩
  · rintro ⟨r, hr, hfirst, hin⟩
    refine ⟨r, hr, hfirst, fun pos hpos => ?_⟩
    have hp := (hfirst pos).mp hpos
    exact ⟨hp.bounds.2, hin pos hp⟩

theorem not_findCorrectFrom_error {e : Fault} :
    ¬ FindCorrectFrom option s base (.error e) := by
  rintro ⟨r, h, -⟩
  exact nomatch h

/-- The search returns nothing and there is no option. -/
theorem findCorrectFrom_none (h : ∀ p, ¬ FirstOption 0 255 option s p) :
    FindCorrectFrom option s base (.ok none) := by
  refine ⟨none, rfl, fun pos => ?_, fun p hp => absurd hp (h p)⟩
  constructor
  · intro hpos
    exact nomatch hpos
  · rintro ⟨p, -, hp⟩
    exact absurd hp (h p)

theorem findCorrectFrom_found_iff (hpad : option ≠ 0) :
    FindCorrectFrom option (option :: len :: rest) base (.ok (some base)) ↔
      len.toNat ≤ rest.length ∧ callerReads option ≤ rest.length := by
  constructor
  · rintro ⟨r, hr, hfirst, hin⟩
    obtain rfl := Except.ok.inj hr
    obtain ⟨p, hp, hopt⟩ := (hfirst base).mp rfl
    obtain ⟨rfl, hfits⟩ := (firstOption_here_iff hpad).mp hopt
    have := hin 0 hopt
    simp only [List.length_cons] at this
    exact ⟨hfits, by omega⟩
  · rintro ⟨hfits, hreads⟩
    refine ⟨some base, rfl, fun pos => ?_, fun p hp => ?_⟩
    · constructor
      · intro hpos
        exact ⟨0, (Option.some.inj hpos).symm, .here hfits⟩
      · rintro ⟨p, rfl, hp⟩
        obtain ⟨rfl, -⟩ := (firstOption_here_iff hpad).mp hp
        rfl
    · obtain ⟨rfl, -⟩ := (firstOption_here_iff hpad).mp hp
      simp only [List.length_cons]
      omega

/-- The option of `s` is the one of a tail `k` bytes further on. -/
theorem findCorrectFrom_shift {s' : Bytes} {k : ℕ} {result : Except Fault (Option ℕ)}
    (hlen : s' = s.drop k)
    (hshift : ∀ p, FirstOption 0 255 option s p ↔
      ∃ q, p = q + k ∧ FirstOption 0 255 option s' q) :
    FindCorrectFrom option s base result ↔
      FindCorrectFrom option s' (base + k) result := by
  have hpos : ∀ pos, (∃ p, pos = base + p ∧ FirstOption 0 255 option s p) ↔
      ∃ p, pos = base + k + p ∧ FirstOption 0 255 option s' p := by
    intro pos
    constructor
    · rintro ⟨p, rfl, hp⟩
      obtain ⟨q, rfl, hq⟩ := (hshift p).mp hp
      exact ⟨q, by omega, hq⟩
    · rintro ⟨q, rfl, hq⟩
      exact ⟨q + k, by omega, (hshift _).mpr ⟨q, rfl, hq⟩⟩
  have hin : (∀ p, FirstOption 0 255 option s p →
      p + 2 + callerReads option ≤ s.length) ↔
      ∀ q, FirstOption 0 255 option s' q →
        q + 2 + callerReads option ≤ s'.length := by
    have hs' : s'.length = s.length - k := by rw [hlen, List.length_drop]
    constructor
    · intro h q hq
      have := h _ ((hshift _).mpr ⟨q, rfl, hq⟩)
      omega
    · intro h p hp
      obtain ⟨q, rfl, hq⟩ := (hshift p).mp hp
      have hk := hq.bounds.1
      have := h q hq
      omega
  unfold FindCorrectFrom
  simp only [hpos, hin]

theorem searchComplete_found_iff (hstop : option ≠ 255) :
    SearchComplete option (option :: len :: rest) ↔
      len.toNat ≤ rest.length ∧ callerReads option ≤ rest.length := by
  constructor
  · intro h
    cases h with
    | stop => exact absurd rfl hstop
    | found fits reads => exact ⟨fits, reads⟩
    | skip _ notCode => exact absurd rfl notCode
  · rintro ⟨fits, reads⟩
    exact .found fits reads

theorem searchComplete_skip_iff (hstop : c ≠ 255) (hcode : c ≠ option) :
    SearchComplete option (c :: len :: rest) ↔
      SearchComplete option (rest.drop len.toNat) := by
  constructor
  · intro h
    cases h with
    | stop => exact absurd rfl hstop
    | found => exact absurd rfl hcode
    | skip _ _ tail => exact tail
  · exact .skip hstop hcode

theorem not_searchComplete_lone (hstop : c ≠ 255) : ¬ SearchComplete option [c] := by
  intro h
  cases h with
  | stop => exact hstop rfl

/-- The loop from `buf` on, where the PADs ahead come in pairs. -/
theorem findCorrectFrom_iff (hpad : option ≠ 0) (hstop : option ≠ 255)
    (hpaired : PadsPaired option s) (hs : area.drop buf = s) (hn : s.length ≤ n) :
    FindCorrectFrom option s buf (optionFindFrom area option n buf) ↔
      SearchComplete option s := by
  induction hpaired generalizing n buf with
  | nil =>
      rw [optionFindFrom_nil hs]
      exact iff_of_true (findCorrectFrom_none fun p => not_firstOption_nil) .nil
  | stop rest =>
      rw [optionFindFrom_stop hs]
      exact iff_of_true
        (findCorrectFrom_none fun p => not_firstOption_stop (by decide) hstop.symm)
        (.stop rest)
  | @lone c notStop =>
      obtain ⟨n, rfl⟩ : ∃ n', n = n' + 1 := ⟨n - 1, by simp at hn; omega⟩
      refine iff_of_false ?_ (not_searchComplete_lone notStop)
      by_cases hcode : c = option
      · subst hcode
        rw [optionFindFrom_found hs notStop]
        rintro ⟨r, hr, hfirst, -⟩
        obtain rfl := Except.ok.inj hr
        obtain ⟨p, -, hp⟩ := (hfirst buf).mp rfl
        exact not_firstOption_lone hpad hp
      · rw [optionFindFrom_lone hs notStop hcode]
        exact not_findCorrectFrom_error
  | found len rest =>
      obtain ⟨n, rfl⟩ : ∃ n', n = n' + 1 := ⟨n - 1, by simp at hn; omega⟩
      rw [optionFindFrom_found hs hstop, findCorrectFrom_found_iff hpad,
        searchComplete_found_iff hstop]
  | @pads rest _ ih =>
      obtain ⟨n, rfl⟩ : ∃ n', n = n' + 1 := ⟨n - 1, by simp at hn; omega⟩
      have hshift : ∀ p, FirstOption 0 255 option (0 :: 0 :: rest) p ↔
          ∃ q, p = q + 2 ∧ FirstOption 0 255 option rest q := by
        intro p
        rw [firstOption_pad_iff hpad.symm]
        constructor
        · rintro ⟨q, rfl, hq⟩
          obtain ⟨q', rfl, hq'⟩ := (firstOption_pad_iff hpad.symm).mp hq
          exact ⟨q', rfl, hq'⟩
        · rintro ⟨q, rfl, hq⟩
          exact ⟨q + 1, rfl, .pad hq⟩
      rw [optionFindFrom_next hs (by decide) hpad.symm, findCorrectFrom_shift rfl hshift,
        searchComplete_skip_iff (by decide) hpad.symm]
      exact ih (drop_next_of_drop_eq_cons hs) (by simp at hn ⊢; omega)
  | @skip c len rest notPad notStop notCode _ ih =>
      obtain ⟨n, rfl⟩ : ∃ n', n = n' + 1 := ⟨n - 1, by simp at hn; omega⟩
      rw [optionFindFrom_next hs notStop notCode,
        findCorrectFrom_shift rfl
          fun p => firstOption_skip_iff notPad notStop notCode,
        searchComplete_skip_iff notStop notCode]
      exact ih (drop_next_of_drop_eq_cons hs) (by simp at hn ⊢; omega)

/-- Where the PADs come in pairs, the search is the one of RFC 2132 exactly when
the area is complete. -/
theorem optionFindCorrect_iff_of_padsPaired (hpad : option ≠ 0) (hstop : option ≠ 255)
    (hpaired : PadsPaired option area) :
    OptionFindCorrect area option ↔ SearchComplete option area :=
  optionFindCorrect_iff.trans
    (findCorrectFrom_iff hpad hstop hpaired rfl le_rfl)

end Search

theorem optionFindCorrect_iff_of_padsPaired_pairs :
    PadsPaired 53 [0, 0, 53, 1, 3, 255] ∧
      (OptionFindCorrect [0, 0, 53, 1, 3, 255] 53 ↔
        SearchComplete 53 [0, 0, 53, 1, 3, 255]) :=
  ⟨.pads (.found 1 [3, 255]), optionFindCorrect_iff_of_padsPaired (by decide) (by decide)
    (.pads (.found 1 [3, 255]))⟩

/-! ## Options behind a single PAD -/

/-- The option stands behind a PAD that the loop meets. -/
inductive HiddenByPad (option : UInt8) : Bytes → Prop
  | here (rest : Bytes) : HiddenByPad option (0 :: option :: rest)
  | pads {rest : Bytes} (tail : HiddenByPad option rest) :
      HiddenByPad option (0 :: 0 :: rest)
  | skip {c n : UInt8} {rest : Bytes} (notPad : c ≠ 0) (notStop : c ≠ 255)
      (notCode : c ≠ option) (tail : HiddenByPad option (rest.drop n.toNat)) :
      HiddenByPad option (c :: n :: rest)

section Hidden

variable {area s : Bytes} {option : UInt8} {n buf p : ℕ}

theorem optionFindFrom_ne_of_hidden (hpad : option ≠ 0) (hhidden : HiddenByPad option s)
    (hs : area.drop buf = s) (hp : FirstOption 0 255 option s p) :
    optionFindFrom area option n buf ≠ .ok (some (buf + p)) := by
  induction hhidden generalizing n buf p with
  | here rest =>
      obtain ⟨q, rfl, hq⟩ := (firstOption_pad_iff hpad.symm).mp hp
      cases n with
      | zero => simp [optionFindFrom]
      | succ n =>
          rw [optionFindFrom_next hs (by decide) hpad.symm]
          intro h
          have hle := le_of_optionFindFrom h
          match rest, hq with
          | [], hq => exact not_firstOption_lone hpad hq
          | m :: rest, hq =>
              obtain ⟨rfl, -⟩ := (firstOption_here_iff hpad).mp hq
              omega
  | @pads rest _ ih =>
      obtain ⟨q, rfl, hq⟩ := (firstOption_pad_iff hpad.symm).mp hp
      obtain ⟨q', rfl, hq'⟩ := (firstOption_pad_iff hpad.symm).mp hq
      cases n with
      | zero => simp [optionFindFrom]
      | succ n =>
          rw [optionFindFrom_next hs (by decide) hpad.symm,
            show buf + (q' + 1 + 1) = buf + ((0 : UInt8).toNat + 2) + q' by
              simp only [UInt8.toNat_zero]; omega]
          exact ih (drop_next_of_drop_eq_cons hs) hq'
  | @skip c len rest notPad notStop notCode _ ih =>
      obtain ⟨q, rfl, hq⟩ := (firstOption_skip_iff notPad notStop notCode).mp hp
      cases n with
      | zero => simp [optionFindFrom]
      | succ n =>
          rw [optionFindFrom_next hs notStop notCode,
            show buf + (q + (len.toNat + 2)) = buf + (len.toNat + 2) + q by omega]
          exact ih (drop_next_of_drop_eq_cons hs) hq

/-- An option behind a single PAD is never found. -/
theorem not_optionFindCorrect_of_hidden (hpad : option ≠ 0)
    (hhidden : HiddenByPad option area) (hp : FirstOption 0 255 option area p) :
    ¬ OptionFindCorrect area option := by
  rintro ⟨r, hr, hfirst, -⟩
  obtain rfl := (hfirst p).mpr hp
  have hne := optionFindFrom_ne_of_hidden (n := area.length) hpad hhidden
    (List.drop_zero : area.drop 0 = area) hp
  rw [Nat.zero_add] at hne
  exact hne hr

end Hidden

/-- A message whose options start with a PAD, in the buffer of 1500 bytes. -/
theorem not_optionFindCorrect_pad :
    ¬ OptionFindCorrect ([0, 53, 1, 1, 255] ++ List.replicate 1255 0) 53 := by
  apply not_optionFindCorrect_of_hidden (by decide) (.here _)
  apply FirstOption.pad
  apply FirstOption.here
  exact Nat.le_add_left 1 _

end RtpMulticast
