import RtpMulticast.Support.CString
import RtpMulticast.Support.Escape

/-!
# The file of a key

`gen_kv_key_path` makes the path of the file that holds the value of a key: the
namespace, a slash and the key with its slashes and closing braces escaped.  One
loop counts the bytes, a second one writes them.
-/

namespace RtpMulticast

open ByteBuffer CStrings

/-! ## The two loops -/

/-- The first loop. -/
def keyPathLen : ℕ → Bytes → ℕ
  | i, [] => i
  | i, c :: path =>
      if c = 0x7D ∨ c = 0x2F then keyPathLen (i + 2) path
      else keyPathLen (i + 1) path

/-- The second loop, on the bytes from `base` on. -/
def writeKey (base : ℕ) : ℕ → Bytes → Bytes → Except Fault (ℕ × Bytes)
  | i, [], buf => .ok (i, buf)
  | i, c :: path, buf =>
      if c = 0x7D ∨ c = 0x2F then do
        let buf ← storeU8 buf (base + i) 0x7D
        let buf ← storeU8 buf (base + (i + 1)) (c ^^^ 0x20)
        writeKey base (i + 2) path buf
      else do
        let buf ← storeU8 buf (base + i) c
        writeKey base (i + 1) path buf

/-- `gen_kv_key_path`: its result and the buffer.  The counters are `int32_t`; a key
that makes them overflow does not fit into the memory. -/
def genKvKeyPath (buf : Bytes) (bufLen : UInt32) (pre path : CText) :
    Except Fault (ℕ × Bytes) := do
  let prefixLen := pre.1.length
  let i := keyPathLen (prefixLen + 1) path.1
  if (bufLen - 1).toNat < i then
    return (i, buf)
  let buf ← copyIn buf 0 pre.1
  let buf ← storeU8 buf prefixLen 0x2F
  let (i, buf) ← writeKey (prefixLen + 1) 0 path.1 buf
  let buf ← storeU8 buf (prefixLen + 1 + i) 0
  return (prefixLen + 1 + i, buf)

/-! ## The escape code -/

/-- A closing brace in front of a symbol with bit 5 changed. -/
def keyCode : Escape.Code UInt8 where
  special c := c = 0x7D ∨ c = 0x2F
  mark := 0x7D
  change c := c ^^^ 0x20
  special_mark := by decide
  change_change c _ := by rw [UInt8.xor_assoc, UInt8.xor_self, UInt8.xor_zero]

/-- The path of a key. -/
def keyPath (pre path : Bytes) : Bytes := pre ++ 0x2F :: keyCode.encode path

theorem length_keyPath (pre path : Bytes) :
    (keyPath pre path).length = pre.length + 1 + (keyCode.encode path).length := by
  rw [keyPath, List.length_append, List.length_cons]
  omega

theorem keyPath_injective (pre : Bytes) : Function.Injective (keyPath pre) := by
  intro path path' h
  have hcode := List.cons.inj (List.append_cancel_left h)
  exact keyCode.encode_injective hcode.2

/-- The changed symbols are the closing bracket and a control character. -/
theorem keyCode_change {c : UInt8} (h : keyCode.special c) :
    keyCode.change c = 0x5D ∨ keyCode.change c = 0x0F := by
  rcases of_decide_eq_true h with rfl | rfl
  · exact Or.inl rfl
  · exact Or.inr rfl

theorem keyCode_ne_change {b c : UInt8} (hbracket : b ≠ 0x5D) (hcontrol : b ≠ 0x0F)
    (h : keyCode.special c) : b ≠ keyCode.change c := by
  rintro rfl
  exact (keyCode_change h).elim hbracket hcontrol

theorem keyPath_noZero {pre path : Bytes} (hpre : 0 ∉ pre) (hpath : 0 ∉ path) :
    0 ∉ keyPath pre path := by
  rw [keyPath, List.mem_append, List.mem_cons, not_or, not_or]
  refine ⟨hpre, by decide, ?_⟩
  apply Escape.Code.not_mem_encode (by decide)
  · exact fun c => keyCode_ne_change (by decide) (by decide)
  · exact fun hin => absurd hin hpath

/-- The escaped key is one name of a directory. -/
theorem encode_noSlash (path : Bytes) : 0x2F ∉ keyCode.encode path := by
  apply Escape.Code.not_mem_encode (by decide)
  · exact fun c => keyCode_ne_change (by decide) (by decide)
  · exact fun _ => rfl

/-! ## What the function writes -/

theorem length_of_writeKey {base i ret : ℕ} {path buf buf' : Bytes}
    (h : writeKey base i path buf = .ok (ret, buf')) :
    buf'.length = buf.length := by
  induction path generalizing i buf with
  | nil => exact congrArg (fun r => r.2.length) (Except.ok.inj h).symm
  | cons c path ih =>
      rw [writeKey] at h
      split at h
      · obtain ⟨buf₁, hmark, h⟩ := bind_eq_ok.mp h
        obtain ⟨buf₂, hchange, h⟩ := bind_eq_ok.mp h
        rw [ih h, length_of_storeU8 hchange, length_of_storeU8 hmark]
      · obtain ⟨buf₁, hbyte, h⟩ := bind_eq_ok.mp h
        rw [ih h, length_of_storeU8 hbyte]

theorem keyCode_symbol (c : UInt8) :
    keyCode.symbol c =
      if c = 0x7D ∨ c = 0x2F then [0x7D, c ^^^ 0x20] else [c] := by
  by_cases h : c = 0x7D ∨ c = 0x2F
  · rw [if_pos h]
    exact Escape.Code.symbol_of_special (decide_eq_true h)
  · rw [if_neg h]
    exact Escape.Code.symbol_of_not_special (by simpa [keyCode] using h)

theorem keyPathLen_eq (i : ℕ) (path : Bytes) :
    keyPathLen i path = i + (keyCode.encode path).length := by
  induction path generalizing i with
  | nil => rfl
  | cons c path ih =>
      rw [keyPathLen, Escape.Code.encode_cons, keyCode_symbol, List.length_append]
      by_cases h : c = 0x7D ∨ c = 0x2F
      · rw [if_pos h, if_pos h, ih]
        exact Nat.add_assoc i 2 _
      · rw [if_neg h, if_neg h, ih]
        exact Nat.add_assoc i 1 _

/-- A byte behind the front that is written so far. -/
theorem storeU8_front {front : Bytes} {n : ℕ} (h : front.length = n) (v old : UInt8)
    (rest : Bytes) :
    storeU8 (front ++ old :: rest) n v = .ok (front ++ [v] ++ rest) := by
  rw [← h, storeU8_append, List.append_assoc, List.singleton_append]

theorem exists_append_of_le {n : ℕ} {buf : Bytes} (h : n ≤ buf.length) :
    ∃ front rest, buf = front ++ rest ∧ front.length = n :=
  ⟨buf.take n, buf.drop n, (List.take_append_drop n buf).symm,
    List.length_take_of_le h⟩

/-- One round of the second loop. -/
theorem writeKey_cons {base i : ℕ} {front old : Bytes}
    (hfront : front.length = base + i) (c : UInt8) (path rest : Bytes)
    (hold : old.length = (keyCode.symbol c).length) :
    writeKey base i (c :: path) (front ++ (old ++ rest)) =
      writeKey base (i + (keyCode.symbol c).length) path
        (front ++ keyCode.symbol c ++ rest) := by
  rw [keyCode_symbol] at hold ⊢
  by_cases h : c = 0x7D ∨ c = 0x2F
  · rw [if_pos h] at hold ⊢
    obtain ⟨o₀, o₁, rfl⟩ := List.length_eq_two.mp hold
    have hmark : (front ++ [0x7D]).length = base + (i + 1) := by
      rw [List.length_append, hfront]
      rfl
    rw [writeKey, if_pos h, List.cons_append, List.singleton_append,
      storeU8_front hfront, ok_bind, storeU8_front hmark, ok_bind,
      List.append_assoc front]
    rfl
  · rw [if_neg h] at hold ⊢
    obtain ⟨o₀, rfl⟩ := List.length_eq_one_iff.mp hold
    rw [writeKey, if_neg h, List.singleton_append, storeU8_front hfront, ok_bind]
    rfl

/-- The second loop replaces as many bytes as it writes. -/
theorem writeKey_eq {base i : ℕ} {front : Bytes} (hfront : front.length = base + i)
    (path : Bytes) {old : Bytes}
    (hold : old.length = (keyCode.encode path).length) (rest : Bytes) :
    writeKey base i path (front ++ (old ++ rest)) =
      .ok (i + (keyCode.encode path).length,
        front ++ (keyCode.encode path ++ rest)) := by
  induction path generalizing i front old with
  | nil =>
      obtain rfl := List.eq_nil_of_length_eq_zero hold
      rfl
  | cons c path ih =>
      rw [Escape.Code.encode_cons, List.length_append] at hold
      obtain ⟨oldSymbol, oldRest, rfl, hsymbol⟩ :=
        exists_append_of_le (by omega : (keyCode.symbol c).length ≤ old.length)
      rw [List.length_append, hsymbol] at hold
      have hnext : (front ++ keyCode.symbol c).length =
          base + (i + (keyCode.symbol c).length) := by
        rw [List.length_append, hfront, Nat.add_assoc]
      rw [List.append_assoc oldSymbol, writeKey_cons hfront c path _ hsymbol,
        ih hnext (Nat.add_left_cancel hold), Escape.Code.encode_cons,
        List.length_append, Nat.add_assoc]
      simp only [List.append_assoc]

/-- The function writes inside the buffer. -/
theorem length_of_genKvKeyPath {buf buf' : Bytes} {bufLen : UInt32} {pre path : CText}
    {ret : ℕ} (h : genKvKeyPath buf bufLen pre path = .ok (ret, buf')) :
    buf'.length = buf.length := by
  simp only [genKvKeyPath, pure_eq_ok] at h
  split at h
  · exact congrArg (fun r => r.2.length) (Except.ok.inj h).symm
  · obtain ⟨buf₁, hcopy, h⟩ := bind_eq_ok.mp h
    obtain ⟨buf₂, hslash, h⟩ := bind_eq_ok.mp h
    obtain ⟨⟨i, buf₃⟩, hkey, h⟩ := bind_eq_ok.mp h
    obtain ⟨buf₄, hzero, h⟩ := bind_eq_ok.mp h
    have hresult : buf₄ = buf' := congrArg Prod.snd (Except.ok.inj h)
    rw [← hresult, length_of_storeU8 hzero, length_of_writeKey hkey,
      length_of_storeU8 hslash, length_of_copyIn hcopy]

/-- A path that does not fit is counted and not written. -/
theorem genKvKeyPath_of_le (buf : Bytes) {bufLen : UInt32} (pre path : CText)
    (hpos : 0 < bufLen.toNat)
    (h : bufLen.toNat ≤ (keyPath pre.1 path.1).length) :
    genKvKeyPath buf bufLen pre path =
      .ok ((keyPath pre.1 path.1).length, buf) := by
  have hlast : (bufLen - 1).toNat = bufLen.toNat - 1 :=
    UInt32.toNat_sub_of_le bufLen 1 (by rw [UInt32.le_iff_toNat_le]; exact hpos)
  have hlong : (bufLen - 1).toNat < (keyPath pre.1 path.1).length := by omega
  have hlen : keyPathLen (pre.1.length + 1) path.1 =
      (keyPath pre.1 path.1).length := by
    rw [keyPathLen_eq, length_keyPath]
  rw [genKvKeyPath]
  simp only [hlen, if_pos hlong, pure_eq_ok]

/-- The places of a path in a buffer: the prefix, the slash, the key, the
terminator and what follows. -/
theorem exists_places {buf : Bytes} {n m : ℕ} (h : n + 1 + m + 1 ≤ buf.length) :
    ∃ oldPrefix oldSlash oldKey oldZero rest,
      buf = oldPrefix ++ oldSlash :: (oldKey ++ oldZero :: rest) ∧
        oldPrefix.length = n ∧ oldKey.length = m := by
  obtain ⟨oldPrefix, tail, rfl, hprefix⟩ :=
    exists_append_of_le (by omega : n ≤ buf.length)
  rw [List.length_append] at h
  obtain ⟨oldSlash, tail, rfl⟩ :=
    List.exists_cons_of_length_pos (by omega : 0 < tail.length)
  rw [List.length_cons] at h
  obtain ⟨oldKey, tail, rfl, hkey⟩ :=
    exists_append_of_le (by omega : m ≤ tail.length)
  rw [List.length_append] at h
  obtain ⟨oldZero, rest, rfl⟩ :=
    List.exists_cons_of_length_pos (by omega : 0 < tail.length)
  exact ⟨oldPrefix, oldSlash, oldKey, oldZero, rest, rfl, hprefix, hkey⟩

/-- A path that fits is written with its terminator; what follows in the buffer
stays. -/
theorem genKvKeyPath_of_lt {buf : Bytes} {bufLen : UInt32} (pre path : CText)
    (hbuf : bufLen.toNat ≤ buf.length)
    (h : (keyPath pre.1 path.1).length < bufLen.toNat) :
    genKvKeyPath buf bufLen pre path =
      .ok ((keyPath pre.1 path.1).length,
        keyPath pre.1 path.1 ++
          0 :: buf.drop ((keyPath pre.1 path.1).length + 1)) := by
  have hlast : (bufLen - 1).toNat = bufLen.toNat - 1 :=
    UInt32.toNat_sub_of_le bufLen 1 (by
      rw [UInt32.le_iff_toNat_le]
      exact Nat.succ_le_of_lt (Nat.zero_lt_of_lt h))
  have hlen : keyPathLen (pre.1.length + 1) path.1 =
      (keyPath pre.1 path.1).length := by
    rw [keyPathLen_eq, length_keyPath]
  have hshort : ¬ (bufLen - 1).toNat < (keyPath pre.1 path.1).length := by
    omega
  have hlength := length_keyPath pre.1 path.1
  obtain ⟨oldPrefix, oldSlash, oldKey, oldZero, rest, rfl, hprefix, hkey⟩ :=
    exists_places (by omega :
      pre.1.length + 1 + (keyCode.encode path.1).length + 1 ≤ buf.length)
  have hcopy : copyIn (oldPrefix ++ oldSlash :: (oldKey ++ oldZero :: rest)) 0
      pre.1 = .ok (pre.1 ++ oldSlash :: (oldKey ++ oldZero :: rest)) :=
    copyIn_append [] oldPrefix _ pre.1 hprefix.symm
  have hslash : (pre.1 ++ [0x2F]).length = pre.1.length + 1 + 0 := by
    rw [List.length_append]
    rfl
  have hall : (pre.1 ++ [0x2F] ++ keyCode.encode path.1).length =
      pre.1.length + 1 + (0 + (keyCode.encode path.1).length) := by
    rw [List.length_append, hslash, Nat.add_assoc]
  have hwrite := writeKey_eq hslash path.1 hkey (oldZero :: rest)
  have hzero := storeU8_front hall 0 oldZero rest
  have hresult : pre.1.length + 1 + (0 + (keyCode.encode path.1).length) =
      (keyPath pre.1 path.1).length := by omega
  rw [List.append_assoc (pre.1 ++ [0x2F]), hresult] at hzero
  have hdrop : (oldPrefix ++ oldSlash :: (oldKey ++ oldZero :: rest)).drop
      ((keyPath pre.1 path.1).length + 1) = rest := by
    have hplaces : (oldPrefix ++ oldSlash :: (oldKey ++ [oldZero])).length =
        (keyPath pre.1 path.1).length + 1 := by
      rw [List.length_append, List.length_cons, List.length_append,
        List.length_singleton]
      omega
    have hsplit : oldPrefix ++ oldSlash :: (oldKey ++ oldZero :: rest) =
        oldPrefix ++ oldSlash :: (oldKey ++ [oldZero]) ++ rest := by
      simp only [List.append_assoc, List.cons_append, List.nil_append]
    rw [hsplit, ← hplaces, List.drop_left]
  rw [genKvKeyPath]
  simp only [hlen, if_neg hshort, hcopy, ok_bind, storeU8_front rfl, hwrite,
    hzero, pure_eq_ok, hresult, hdrop]
  simp only [keyPath, List.append_assoc, List.cons_append, List.nil_append]

end RtpMulticast
