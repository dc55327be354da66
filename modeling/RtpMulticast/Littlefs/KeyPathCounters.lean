import RtpMulticast.Littlefs.KeyPath

/-!
# The counters of a key path

`gen_kv_key_path` counts in `int32_t` and compares with `buf_len - 1`, a `size_t`.
For paths below 2^31 bytes the counters are natural numbers.  A buffer length of 0
wraps around and is taken for the longest one.
-/

namespace RtpMulticast

open ByteBuffer CStrings

/-! ## The function with its counters -/

/-- The first loop with `i` and `j`; the additions are those of two's complement
numbers. -/
def keyPathLen32 : Int32 → Int32 → Bytes → Int32 × Int32
  | i, j, [] => (i, j)
  | i, j, c :: path =>
      if c = 0x7D ∨ c = 0x2F then keyPathLen32 (i + 2) (j + 1) path
      else keyPathLen32 (i + 1) (j + 1) path

/-- `gen_kv_key_path`.  As an offset of a 32-bit address a counter is the natural
number with its bits, and the second loop runs while `j` is below `path_len`. -/
def genKvKeyPath32 (buf : Bytes) (bufLen : UInt32) (pre path : CText) :
    Except Fault (Int32 × Bytes) := do
  let prefixLen := Int32.ofNat pre.1.length
  let counts := keyPathLen32 (prefixLen + 1) 0 path.1
  if bufLen - 1 < counts.1.toUInt32 then
    return (counts.1, buf)
  let base := prefixLen.toUInt32.toNat
  let buf ← copyIn buf 0 (pre.1.take base)
  let buf ← storeU8 buf base 0x2F
  let (i, buf) ← writeKey (base + 1) 0 (path.1.take counts.2.toInt.toNat) buf
  let buf ← storeU8 buf (base + 1 + i) 0
  return (prefixLen + 1 + Int32.ofNat i, buf)

theorem keyPathLen32_eq (i j : ℕ) (path : Bytes) :
    keyPathLen32 (Int32.ofNat i) (Int32.ofNat j) path =
      (Int32.ofNat (keyPathLen i path), Int32.ofNat (j + path.length)) := by
  induction path generalizing i j with
  | nil => rfl
  | cons c path ih =>
      have hj : Int32.ofNat j + 1 = Int32.ofNat (j + 1) := (Int32.ofNat_add j 1).symm
      rw [keyPathLen32, keyPathLen, List.length_cons, Nat.add_comm path.length, hj]
      by_cases h : c = 0x7D ∨ c = 0x2F
      · have hi : Int32.ofNat i + 2 = Int32.ofNat (i + 2) :=
          (Int32.ofNat_add i 2).symm
        rw [if_pos h, if_pos h, hi, ih, Nat.add_assoc]
      · have hi : Int32.ofNat i + 1 = Int32.ofNat (i + 1) :=
          (Int32.ofNat_add i 1).symm
        rw [if_neg h, if_neg h, hi, ih, Nat.add_assoc]

/-- Below 2^31 bytes the counters count. -/
theorem genKvKeyPath32_eq (buf : Bytes) (bufLen : UInt32) {pre path : CText}
    (h : (keyPath pre.1 path.1).length < 2 ^ 31) :
    genKvKeyPath32 buf bufLen pre path =
      (fun r => (Int32.ofNat r.1, r.2)) <$> genKvKeyPath buf bufLen pre path := by
  have hlength := length_keyPath pre.1 path.1
  have hcount := keyPathLen_eq (pre.1.length + 1) path.1
  have hpath := keyCode.length_le_encode path.1
  have hword {n : ℕ} (hn : n < 2 ^ 31) : (UInt32.ofNat n).toNat = n :=
    UInt32.toNat_ofNat_of_lt' (Nat.lt_trans hn (by decide))
  have hcounts : keyPathLen32 (Int32.ofNat pre.1.length + 1) 0 path.1 =
      (Int32.ofNat (keyPathLen (pre.1.length + 1) path.1),
        Int32.ofNat path.1.length) := by
    have hstart := keyPathLen32_eq (pre.1.length + 1) 0 path.1
    rwa [Int32.ofNat_add, Nat.zero_add] at hstart
  have hbase : (Int32.ofNat pre.1.length).toUInt32.toNat = pre.1.length := by
    rw [Int32.toUInt32_ofNat', hword (by omega)]
  have hpathLen : (Int32.ofNat path.1.length).toInt.toNat = path.1.length := by
    rw [Int32.toInt_ofNat_of_lt (by omega), Int.toNat_natCast]
  have hcompare : bufLen - 1 <
      (Int32.ofNat (keyPathLen (pre.1.length + 1) path.1)).toUInt32 ↔
        (bufLen - 1).toNat < keyPathLen (pre.1.length + 1) path.1 := by
    rw [Int32.toUInt32_ofNat', UInt32.lt_iff_toNat_lt, hword (by omega)]
  rw [genKvKeyPath32, genKvKeyPath, hcounts]
  simp only [hbase, hpathLen, hcompare, List.take_length]
  split_ifs
  · rfl
  · simp only [map_bind, map_pure, Int32.ofNat_add]
    rfl

/-! ## Correct calls -/

/-- The call for a key returns the length of its path.  A path that fits is written
with its terminator and nothing behind it, and one that does not fit is not
written. -/
def WritesKeyPath (bufLen : UInt32) (pre path : CText) : Prop :=
  ∀ buf : Bytes, bufLen.toNat ≤ buf.length → ∃ ret buf',
    genKvKeyPath32 buf bufLen pre path = .ok (ret, buf') ∧
      ret.toInt = (keyPath pre.1 path.1).length ∧
      ((keyPath pre.1 path.1).length < bufLen.toNat →
        buf' = keyPath pre.1 path.1 ++
          0 :: buf.drop ((keyPath pre.1 path.1).length + 1)) ∧
      (bufLen.toNat ≤ (keyPath pre.1 path.1).length → buf' = buf)

/-- The calls for two keys: what is written for a key has no slash behind the one of
the namespace, and different keys have different paths. -/
structure KeyPathsCorrect (bufLen : UInt32) (pre path path' : CText) : Prop where
  writes : WritesKeyPath bufLen pre path
  writes_other : WritesKeyPath bufLen pre path'
  noSlash : 0x2F ∉ keyCode.encode path.1
  distinct : path ≠ path' →
    ∀ buf ret out buf' ret' out',
      bufLen.toNat ≤ buf.length → bufLen.toNat ≤ buf'.length →
      (keyPath pre.1 path.1).length < bufLen.toNat →
      (keyPath pre.1 path'.1).length < bufLen.toNat →
      genKvKeyPath32 buf bufLen pre path = .ok (ret, out) →
      genKvKeyPath32 buf' bufLen pre path' = .ok (ret', out') →
        stringOf out ≠ stringOf out'

section Calls

variable {bufLen : UInt32} {pre path path' : CText}

/-- A buffer of length 0 passes the check, and the slash is written behind it. -/
theorem genKvKeyPath32_zero (pre path : CText) (r : Int32 × Bytes) :
    genKvKeyPath32 [] 0 pre path ≠ .ok r := by
  intro h
  rw [genKvKeyPath32] at h
  simp only [pure_eq_ok] at h
  split at h
  · next hover =>
      have hlast : ((0 : UInt32) - 1).toNat = 2 ^ 32 - 1 := by decide
      have hcount := UInt32.toNat_lt
        (keyPathLen32 (Int32.ofNat pre.1.length + 1) 0 path.1).1.toUInt32
      rw [UInt32.lt_iff_toNat_lt, hlast] at hover
      omega
  · obtain ⟨buf₁, hcopy, h⟩ := bind_eq_ok.mp h
    obtain ⟨buf₂, hslash, -⟩ := bind_eq_ok.mp h
    have hnil : buf₁ = [] := List.eq_nil_of_length_eq_zero (length_of_copyIn hcopy)
    rw [hnil, storeU8, List.length_nil, if_neg (Nat.not_lt_zero _)] at hslash
    cases hslash

theorem pos_of_writesKeyPath (h : WritesKeyPath bufLen pre path) :
    0 < bufLen.toNat := by
  by_contra hzero
  have hbufLen : bufLen = 0 := UInt32.toNat_inj.mp (Nat.eq_zero_of_not_pos hzero)
  subst hbufLen
  obtain ⟨ret, buf', hret, -⟩ := h [] le_rfl
  exact genKvKeyPath32_zero pre path (ret, buf') hret

/-- The result is an `int32_t`. -/
theorem length_lt_of_writesKeyPath (h : WritesKeyPath bufLen pre path) :
    (keyPath pre.1 path.1).length < 2 ^ 31 := by
  obtain ⟨ret, buf', -, hret, -⟩ :=
    h (List.replicate bufLen.toNat 0) List.length_replicate.ge
  have hlt := ret.toInt_lt
  omega

theorem writesKeyPath_of_lt (hpos : 0 < bufLen.toNat)
    (hlt : (keyPath pre.1 path.1).length < 2 ^ 31) :
    WritesKeyPath bufLen pre path := by
  intro buf hbuf
  rw [genKvKeyPath32_eq buf bufLen hlt]
  have hret := Int32.toInt_ofNat_of_lt hlt
  by_cases hfits : (keyPath pre.1 path.1).length < bufLen.toNat
  · rw [genKvKeyPath_of_lt pre path hbuf hfits]
    exact ⟨_, _, rfl, hret, fun _ => rfl, fun hle => absurd hfits hle.not_gt⟩
  · rw [genKvKeyPath_of_le buf pre path hpos (not_lt.mp hfits)]
    exact ⟨_, _, rfl, hret, fun h => absurd h hfits, fun _ => rfl⟩

/-- The C string in the buffer behind the call. -/
theorem stringOf_of_writesKeyPath (h : WritesKeyPath bufLen pre path)
    {buf out : Bytes} {ret : Int32} (hbuf : bufLen.toNat ≤ buf.length)
    (hfits : (keyPath pre.1 path.1).length < bufLen.toNat)
    (hcall : genKvKeyPath32 buf bufLen pre path = .ok (ret, out)) :
    stringOf out = keyPath pre.1 path.1 := by
  obtain ⟨ret', buf', hcall', -, hwritten, -⟩ := h buf hbuf
  obtain ⟨-, rfl⟩ := Prod.mk.inj (Except.ok.inj (hcall.symm.trans hcall'))
  rw [hwritten hfits, stringOf_append (keyPath_noZero pre.2 path.2)]
  exact List.append_nil _

/-- The paths are correct exactly when the buffer has a length and the paths are
below 2^31 bytes. -/
theorem keyPathsCorrect_iff :
    KeyPathsCorrect bufLen pre path path' ↔
      0 < bufLen.toNat ∧ (keyPath pre.1 path.1).length < 2 ^ 31 ∧
        (keyPath pre.1 path'.1).length < 2 ^ 31 := by
  constructor
  · intro h
    exact ⟨pos_of_writesKeyPath h.writes, length_lt_of_writesKeyPath h.writes,
      length_lt_of_writesKeyPath h.writes_other⟩
  · rintro ⟨hpos, hlt, hlt'⟩
    have hwrites := writesKeyPath_of_lt hpos hlt
    have hwrites' := writesKeyPath_of_lt hpos hlt'
    refine ⟨hwrites, hwrites', encode_noSlash path.1, ?_⟩
    intro hne buf ret out buf' ret' out' hbuf hbuf' hfits hfits' hcall hcall' hsame
    rw [stringOf_of_writesKeyPath hwrites hbuf hfits hcall,
      stringOf_of_writesKeyPath hwrites' hbuf' hfits' hcall'] at hsame
    exact hne (Subtype.ext (keyPath_injective pre.1 hsame))

end Calls

/-- With a length of 0 the path of a key is written all the same. -/
theorem not_keyPathsCorrect_zero :
    ¬ ∀ bufLen pre path path', KeyPathsCorrect bufLen pre path path' := by
  intro h
  have hcorrect := h 0 ⟨[0x2F], by decide⟩ ⟨[0x6B], by decide⟩ ⟨[0x6B], by decide⟩
  exact absurd (pos_of_writesKeyPath hcorrect.writes) (by decide)

end RtpMulticast
