import Mathlib.Data.List.Basic
import Mathlib.Tactic.Ring

/-!
# Byte buffers with checked access

A buffer is the list of its bytes and a pointer into it is an index.  Every
read and write is checked against the length of the buffer, so a program
written with these operations either stays inside its objects or ends in a
`Fault`.  Multi-byte words are stored with the least significant byte first;
`bswap16` and `bswap32` convert between that order and the network order of
`beU16` and `beU32`.
-/

namespace ByteBuffer

abbrev Bytes := List UInt8

/-- What ends a computation that leaves the objects it was given. -/
inductive Fault where
  /-- A read or a write outside the buffer. -/
  | outOfBounds
  /-- A size computation with an unsigned result below zero. -/
  | sizeUnderflow
  | divisionByZero
  deriving DecidableEq, Repr

/-! ## Sequencing -/

section Sequencing

variable {ε α β : Type}

@[simp] theorem ok_bind (a : α) (f : α → Except ε β) :
    (Except.ok a >>= f) = f a := rfl

@[simp] theorem error_bind (e : ε) (f : α → Except ε β) :
    (Except.error e >>= f) = Except.error e := rfl

@[simp] theorem pure_eq_ok (a : α) : (pure a : Except ε α) = Except.ok a := rfl

theorem bind_eq_ok {x : Except ε α} {f : α → Except ε β} {b : β} :
    (x >>= f) = Except.ok b ↔ ∃ a, x = Except.ok a ∧ f a = Except.ok b := by
  cases x with
  | error e => simp
  | ok a => simp

end Sequencing

/-! ## Bytes -/

/-- A statement about all bytes is one about all bit vectors of width 8, which
can be decided. -/
theorem forall_byte {P : UInt8 → Prop} (h : ∀ v : BitVec 8, P (UInt8.ofBitVec v))
    (b : UInt8) : P b :=
  h b.toBitVec

/-! ## Words and their bytes -/

/-- Byte number `k` of a word, counted from the least significant one. -/
def byteOf (v k : ℕ) : UInt8 := UInt8.ofNat (v / 256 ^ k)

def u16OfBytes (b₀ b₁ : UInt8) : UInt16 :=
  UInt16.ofNat (b₀.toNat + 256 * b₁.toNat)

def u32OfBytes (b₀ b₁ b₂ b₃ : UInt8) : UInt32 :=
  UInt32.ofNat
    (b₀.toNat + 256 * b₁.toNat + 65536 * b₂.toNat + 16777216 * b₃.toNat)

def bswap16 (v : UInt16) : UInt16 :=
  u16OfBytes (byteOf v.toNat 1) (byteOf v.toNat 0)

def bswap32 (v : UInt32) : UInt32 :=
  u32OfBytes (byteOf v.toNat 3) (byteOf v.toNat 2)
    (byteOf v.toNat 1) (byteOf v.toNat 0)

/-- Memory image of a 16-bit word. -/
def leU16 (v : UInt16) : Bytes := [byteOf v.toNat 0, byteOf v.toNat 1]

/-- Memory image of a 32-bit word. -/
def leU32 (v : UInt32) : Bytes :=
  [byteOf v.toNat 0, byteOf v.toNat 1, byteOf v.toNat 2, byteOf v.toNat 3]

/-- Network order of a 16-bit word. -/
def beU16 (v : UInt16) : Bytes := [byteOf v.toNat 1, byteOf v.toNat 0]

/-- Network order of a 32-bit word. -/
def beU32 (v : UInt32) : Bytes :=
  [byteOf v.toNat 3, byteOf v.toNat 2, byteOf v.toNat 1, byteOf v.toNat 0]

theorem toNat_byteOf (v k : ℕ) : (byteOf v k).toNat = v / 256 ^ k % 256 := by
  simp [byteOf]

theorem and_255 (n : ℕ) : n &&& 255 = n % 256 :=
  Nat.and_two_pow_sub_one_eq_mod n 8

/-- The lowest byte of a half word. -/
theorem toUInt8_mask16 (v : UInt16) :
    (v &&& 0xFF).toUInt8 = byteOf v.toNat 0 := by
  rw [← UInt8.toNat_inj, toNat_byteOf]
  simp [and_255]

/-- A byte that is shifted to the bottom of a half word. -/
theorem toUInt8_shift_mask16 (v : UInt16) {n : UInt16} {k : ℕ}
    (hn : n.toNat = 8 * k) (hk : k < 2) :
    ((v >>> n) &&& 0xFF).toUInt8 = byteOf v.toNat k := by
  have hmod : n.toNat % 16 = 8 * k := by omega
  rw [← UInt8.toNat_inj, toNat_byteOf]
  simp [Nat.shiftRight_eq_div_pow, and_255, hmod, Nat.pow_mul]

/-- The lowest byte of a word. -/
theorem toUInt8_mask32 (v : UInt32) :
    (v &&& 0xFF).toUInt8 = byteOf v.toNat 0 := by
  rw [← UInt8.toNat_inj, toNat_byteOf]
  simp [and_255]

/-- A byte that is shifted to the bottom of a word. -/
theorem toUInt8_shift_mask32 (v : UInt32) {n : UInt32} {k : ℕ}
    (hn : n.toNat = 8 * k) (hk : k < 4) :
    ((v >>> n) &&& 0xFF).toUInt8 = byteOf v.toNat k := by
  have hmod : n.toNat % 32 = 8 * k := by omega
  rw [← UInt8.toNat_inj, toNat_byteOf]
  simp [Nat.shiftRight_eq_div_pow, and_255, hmod, Nat.pow_mul]

theorem toNat_u16OfBytes (b₀ b₁ : UInt8) :
    (u16OfBytes b₀ b₁).toNat = b₀.toNat + 256 * b₁.toNat := by
  have h₀ := b₀.toNat_lt
  have h₁ := b₁.toNat_lt
  simp only [u16OfBytes, UInt16.toNat_ofNat']
  omega

theorem toNat_u32OfBytes (b₀ b₁ b₂ b₃ : UInt8) :
    (u32OfBytes b₀ b₁ b₂ b₃).toNat =
      b₀.toNat + 256 * b₁.toNat + 65536 * b₂.toNat + 16777216 * b₃.toNat := by
  have h₀ := b₀.toNat_lt
  have h₁ := b₁.toNat_lt
  have h₂ := b₂.toNat_lt
  have h₃ := b₃.toNat_lt
  simp only [u32OfBytes, UInt32.toNat_ofNat']
  omega

/-- A word counts on as long as it does not wrap around. -/
theorem toNat_add_one {v : UInt32} (h : v.toNat + 1 < 2 ^ 32) :
    (v + 1).toNat = v.toNat + 1 := by
  rw [UInt32.toNat_add]
  exact Nat.mod_eq_of_lt h

/-- A number that fits into a half word. -/
theorem toNat_ofNat16 {n : ℕ} (h : n < 65536) : (UInt16.ofNat n).toNat = n :=
  UInt16.toNat_ofNat_of_lt' h

@[simp] theorem u16OfBytes_byteOf (v : UInt16) :
    u16OfBytes (byteOf v.toNat 0) (byteOf v.toNat 1) = v := by
  apply UInt16.toNat_inj.mp
  have hv := v.toNat_lt
  simp only [toNat_u16OfBytes, toNat_byteOf]
  omega

@[simp] theorem u32OfBytes_byteOf (v : UInt32) :
    u32OfBytes (byteOf v.toNat 0) (byteOf v.toNat 1)
      (byteOf v.toNat 2) (byteOf v.toNat 3) = v := by
  apply UInt32.toNat_inj.mp
  have hv := v.toNat_lt
  simp only [toNat_u32OfBytes, toNat_byteOf]
  omega

@[simp] theorem byteOf_u16OfBytes_zero (b₀ b₁ : UInt8) :
    byteOf (u16OfBytes b₀ b₁).toNat 0 = b₀ := by
  apply UInt8.toNat_inj.mp
  have h₀ := b₀.toNat_lt
  simp only [toNat_byteOf, toNat_u16OfBytes]
  omega

@[simp] theorem byteOf_u16OfBytes_one (b₀ b₁ : UInt8) :
    byteOf (u16OfBytes b₀ b₁).toNat 1 = b₁ := by
  apply UInt8.toNat_inj.mp
  have h₀ := b₀.toNat_lt
  have h₁ := b₁.toNat_lt
  simp only [toNat_byteOf, toNat_u16OfBytes]
  omega

/-- The four bytes of a word assembled from four bytes. -/
@[simp] theorem byteOf_u32OfBytes (b₀ b₁ b₂ b₃ : UInt8) :
    byteOf (u32OfBytes b₀ b₁ b₂ b₃).toNat 0 = b₀ ∧
      byteOf (u32OfBytes b₀ b₁ b₂ b₃).toNat 1 = b₁ ∧
      byteOf (u32OfBytes b₀ b₁ b₂ b₃).toNat 2 = b₂ ∧
      byteOf (u32OfBytes b₀ b₁ b₂ b₃).toNat 3 = b₃ := by
  have h₀ := b₀.toNat_lt
  have h₁ := b₁.toNat_lt
  have h₂ := b₂.toNat_lt
  have h₃ := b₃.toNat_lt
  refine ⟨?_, ?_, ?_, ?_⟩
  all_goals
    apply UInt8.toNat_inj.mp
    simp only [toNat_byteOf, toNat_u32OfBytes]
    omega

@[simp] theorem bswap16_u16OfBytes (b₀ b₁ : UInt8) :
    bswap16 (u16OfBytes b₀ b₁) = u16OfBytes b₁ b₀ := by
  simp [bswap16]

@[simp] theorem bswap32_u32OfBytes (b₀ b₁ b₂ b₃ : UInt8) :
    bswap32 (u32OfBytes b₀ b₁ b₂ b₃) = u32OfBytes b₃ b₂ b₁ b₀ := by
  simp [bswap32]

/-- The memory image of a swapped word is the word in network order. -/
@[simp] theorem leU16_bswap16 (v : UInt16) : leU16 (bswap16 v) = beU16 v := by
  simp [leU16, bswap16, beU16]

@[simp] theorem leU32_bswap32 (v : UInt32) : leU32 (bswap32 v) = beU32 v := by
  simp [leU32, bswap32, beU32]

@[simp] theorem length_beU16 (v : UInt16) : (beU16 v).length = 2 := rfl

@[simp] theorem length_beU32 (v : UInt32) : (beU32 v).length = 4 := rfl

/-! ## Checked reads and writes -/

def loadU8 (buf : Bytes) (i : ℕ) : Except Fault UInt8 :=
  match buf[i]? with
  | some b => .ok b
  | none => .error .outOfBounds

def storeU8 (buf : Bytes) (i : ℕ) (b : UInt8) : Except Fault Bytes :=
  if i < buf.length then .ok (buf.set i b) else .error .outOfBounds

def loadU16 (buf : Bytes) (i : ℕ) : Except Fault UInt16 := do
  let b₀ ← loadU8 buf i
  let b₁ ← loadU8 buf (i + 1)
  return u16OfBytes b₀ b₁

def storeU16 (buf : Bytes) (i : ℕ) (v : UInt16) : Except Fault Bytes := do
  let buf ← storeU8 buf i (byteOf v.toNat 0)
  storeU8 buf (i + 1) (byteOf v.toNat 1)

def loadU32 (buf : Bytes) (i : ℕ) : Except Fault UInt32 := do
  let b₀ ← loadU8 buf i
  let b₁ ← loadU8 buf (i + 1)
  let b₂ ← loadU8 buf (i + 2)
  let b₃ ← loadU8 buf (i + 3)
  return u32OfBytes b₀ b₁ b₂ b₃

def storeU32 (buf : Bytes) (i : ℕ) (v : UInt32) : Except Fault Bytes := do
  let buf ← storeU8 buf i (byteOf v.toNat 0)
  let buf ← storeU8 buf (i + 1) (byteOf v.toNat 1)
  let buf ← storeU8 buf (i + 2) (byteOf v.toNat 2)
  storeU8 buf (i + 3) (byteOf v.toNat 3)

/-- Reverse the byte order of the 16-bit word at `i`, in place. -/
def swapU16 (buf : Bytes) (i : ℕ) : Except Fault Bytes := do
  let v ← loadU16 buf i
  storeU16 buf i (bswap16 v)

/-- Reverse the byte order of the 32-bit word at `i`, in place. -/
def swapU32 (buf : Bytes) (i : ℕ) : Except Fault Bytes := do
  let v ← loadU32 buf i
  storeU32 buf i (bswap32 v)

/-- The `n` bytes from `i` on. -/
def copyOut (buf : Bytes) (i n : ℕ) : Except Fault Bytes :=
  if i + n ≤ buf.length then .ok ((buf.drop i).take n)
  else .error .outOfBounds

/-- Overwrite the bytes from `i` on with `data`. -/
def copyIn (buf : Bytes) (i : ℕ) (data : Bytes) : Except Fault Bytes :=
  if i + data.length ≤ buf.length then
    .ok (buf.take i ++ data ++ buf.drop (i + data.length))
  else .error .outOfBounds

/-- Unsigned subtraction that must not wrap. -/
def subSize (a b : ℕ) : Except Fault ℕ :=
  if b ≤ a then .ok (a - b) else .error .sizeUnderflow

def divSize (a b : ℕ) : Except Fault ℕ :=
  if b = 0 then .error .divisionByZero else .ok (a / b)

def modSize (a b : ℕ) : Except Fault ℕ :=
  if b = 0 then .error .divisionByZero else .ok (a % b)

/-! ## Access inside an explicit buffer -/

theorem loadU8_of_lt {buf : Bytes} {i : ℕ} (h : i < buf.length) :
    loadU8 buf i = .ok buf[i] := by
  simp [loadU8, h]

theorem loadU8_of_le {buf : Bytes} {i : ℕ} (h : buf.length ≤ i) :
    loadU8 buf i = .error .outOfBounds := by
  simp [loadU8, h]

theorem loadU8_append_right (pre buf : Bytes) (k : ℕ) :
    loadU8 (pre ++ buf) (pre.length + k) = loadU8 buf k := by
  simp [loadU8, List.getElem?_append_right]

theorem loadU8_drop (buf : Bytes) (i k : ℕ) :
    loadU8 (buf.drop i) k = loadU8 buf (i + k) := by
  simp [loadU8]

/-- Overwriting `old` in the middle of a buffer. -/
theorem copyIn_append (pre old post data : Bytes)
    (hlen : data.length = old.length) :
    copyIn (pre ++ old ++ post) pre.length data =
      .ok (pre ++ data ++ post) := by
  have hfit : pre.length + data.length ≤ (pre ++ old ++ post).length := by
    simp only [List.length_append]
    omega
  have hdrop : (pre ++ old ++ post).drop (pre.length + data.length) = post := by
    rw [hlen, ← List.length_append, List.drop_left]
  have htake : (pre ++ old ++ post).take pre.length = pre := by
    rw [List.append_assoc, List.take_left]
  rw [copyIn, if_pos hfit, hdrop, htake]

/-- Overwriting the start of what follows in a buffer. -/
theorem copyIn_tail (front old data : Bytes) (h : data.length ≤ old.length) :
    copyIn (front ++ old) front.length data =
      .ok (front ++ data ++ old.drop data.length) := by
  have hsplit : front ++ old = front ++ old.take data.length ++ old.drop data.length := by
    rw [List.append_assoc, List.take_append_drop]
  rw [hsplit]
  exact copyIn_append _ _ _ _ (List.length_take_of_le h).symm

theorem loadU8_append_left {pre : Bytes} {k : ℕ} (h : k < pre.length) (buf : Bytes) :
    loadU8 (pre ++ buf) k = loadU8 pre k := by
  rw [loadU8, List.getElem?_append_left h, loadU8]

/-- Overwriting the start of a zeroed tail. -/
theorem copyIn_replicate (pre data : Bytes) {m : ℕ} (hm : data.length ≤ m) :
    copyIn (pre ++ List.replicate m 0) pre.length data =
      .ok (pre ++ data ++ List.replicate (m - data.length) 0) := by
  have hsplit : List.replicate m (0 : UInt8) =
      List.replicate data.length 0 ++ List.replicate (m - data.length) 0 := by
    rw [List.replicate_append_replicate, Nat.add_sub_cancel' hm]
  rw [hsplit, ← List.append_assoc]
  exact copyIn_append _ _ _ _ (by simp)

theorem length_of_storeU8 {buf buf' : Bytes} {i : ℕ} {v : UInt8}
    (h : storeU8 buf i v = .ok buf') : buf'.length = buf.length := by
  rw [storeU8] at h
  split at h
  · rw [← Except.ok.inj h, List.length_set]
  · nomatch h

theorem length_of_copyIn {buf buf' data : Bytes} {i : ℕ}
    (h : copyIn buf i data = .ok buf') : buf'.length = buf.length := by
  rw [copyIn] at h
  split at h
  · rw [← Except.ok.inj h, List.length_append, List.length_append,
      List.length_take, List.length_drop]
    omega
  · nomatch h

theorem storeU8_append (pre : Bytes) (b : UInt8) (post : Bytes) (v : UInt8) :
    storeU8 (pre ++ b :: post) pre.length v = .ok (pre ++ v :: post) := by
  rw [storeU8, if_pos (by simp)]
  simp

theorem copyOut_append (pre mid post : Bytes) :
    copyOut (pre ++ mid ++ post) pre.length mid.length = .ok mid := by
  have hfit : pre.length + mid.length ≤ (pre ++ mid ++ post).length := by
    simp only [List.length_append]
    omega
  rw [copyOut, if_pos hfit, List.append_assoc, List.drop_left, List.take_left]

@[simp] theorem copyOut_all (buf : Bytes) :
    copyOut buf 0 buf.length = .ok buf := by
  simp [copyOut]

theorem copyOut_of_le (buf : Bytes) (i n : ℕ) (h : i + n ≤ buf.length) :
    copyOut buf i n = .ok ((buf.drop i).take n) :=
  if_pos h

/-- Bytes inside the middle of a buffer. -/
theorem copyOut_middle (front mid rest : Bytes) {i n : ℕ} (h : i + n ≤ mid.length) :
    copyOut (front ++ (mid ++ rest)) (front.length + i) n = .ok ((mid.drop i).take n) := by
  have hfit : front.length + i + n ≤ (front ++ (mid ++ rest)).length := by
    simp only [List.length_append]
    omega
  have hn : n ≤ (mid.drop i).length := by
    rw [List.length_drop]
    omega
  rw [copyOut_of_le _ _ _ hfit, List.drop_length_add_append,
    List.drop_append_of_le_length (by omega), List.take_append_of_le_length hn]

/-! ## Words at an offset

The value and the effect of an access that stays inside the buffer, without
the check. -/

/-- Memory value of the 32-bit word at `i`. -/
def leWord (buf : Bytes) (i : ℕ) : UInt32 :=
  u32OfBytes (buf.getD i 0) (buf.getD (i + 1) 0)
    (buf.getD (i + 2) 0) (buf.getD (i + 3) 0)

/-- Network value of the 32-bit word at `i`. -/
def beWord (buf : Bytes) (i : ℕ) : UInt32 :=
  u32OfBytes (buf.getD (i + 3) 0) (buf.getD (i + 2) 0)
    (buf.getD (i + 1) 0) (buf.getD i 0)

/-- Memory value of the 16-bit word at `i`. -/
def leHalf (buf : Bytes) (i : ℕ) : UInt16 :=
  u16OfBytes (buf.getD i 0) (buf.getD (i + 1) 0)

/-- Network value of the 16-bit word at `i`. -/
def beHalf (buf : Bytes) (i : ℕ) : UInt16 :=
  u16OfBytes (buf.getD (i + 1) 0) (buf.getD i 0)

def swapWord (buf : Bytes) (i : ℕ) : Bytes :=
  (((buf.set i (buf.getD (i + 3) 0)).set (i + 1) (buf.getD (i + 2) 0)).set
    (i + 2) (buf.getD (i + 1) 0)).set (i + 3) (buf.getD i 0)

def swapHalf (buf : Bytes) (i : ℕ) : Bytes :=
  (buf.set i (buf.getD (i + 1) 0)).set (i + 1) (buf.getD i 0)

/-- Two buffers of one length that agree outside the bytes from `lo` up to
`hi`. -/
structure SameOutside (buf buf' : Bytes) (lo hi : ℕ) : Prop where
  length_eq : buf'.length = buf.length
  getD_eq : ∀ j, j < lo ∨ hi ≤ j → buf'.getD j 0 = buf.getD j 0

theorem SameOutside.refl (buf : Bytes) (lo hi : ℕ) :
    SameOutside buf buf lo hi :=
  ⟨rfl, fun _ _ => rfl⟩

theorem SameOutside.trans {buf₁ buf₂ buf₃ : Bytes} {lo hi : ℕ}
    (h₁₂ : SameOutside buf₁ buf₂ lo hi) (h₂₃ : SameOutside buf₂ buf₃ lo hi) :
    SameOutside buf₁ buf₃ lo hi := by
  refine ⟨h₂₃.length_eq.trans h₁₂.length_eq, ?_⟩
  intro j hj
  exact (h₂₃.getD_eq j hj).trans (h₁₂.getD_eq j hj)

theorem SameOutside.mono {buf buf' : Bytes} {lo hi lo' hi' : ℕ}
    (h : SameOutside buf buf' lo hi) (hlo : lo' ≤ lo) (hhi : hi ≤ hi') :
    SameOutside buf buf' lo' hi' := by
  refine ⟨h.length_eq, ?_⟩
  intro j hj
  apply h.getD_eq
  omega

theorem SameOutside.drop_eq {buf buf' : Bytes} {lo hi n : ℕ}
    (h : SameOutside buf buf' lo hi) (hn : hi ≤ n) :
    buf'.drop n = buf.drop n := by
  apply List.ext_getElem
  · rw [List.length_drop, List.length_drop, h.length_eq]
  · intro k hk' hk
    have hlt : n + k < buf.length := by
      rw [List.length_drop] at hk
      omega
    have hlt' : n + k < buf'.length := by
      rw [h.length_eq]
      exact hlt
    have hsame := h.getD_eq (n + k) (Or.inr (by omega))
    simp only [List.getD_eq_getElem?_getD, List.getElem?_eq_getElem hlt',
      List.getElem?_eq_getElem hlt, Option.getD_some] at hsame
    rw [List.getElem_drop, List.getElem_drop]
    exact hsame

theorem SameOutside.beWord_eq {buf buf' : Bytes} {lo hi j : ℕ}
    (h : SameOutside buf buf' lo hi) (hj : j + 4 ≤ lo ∨ hi ≤ j) :
    beWord buf' j = beWord buf j := by
  simp only [beWord]
  rw [h.getD_eq j (by omega), h.getD_eq (j + 1) (by omega),
    h.getD_eq (j + 2) (by omega), h.getD_eq (j + 3) (by omega)]

theorem SameOutside.leWord_eq {buf buf' : Bytes} {lo hi j : ℕ}
    (h : SameOutside buf buf' lo hi) (hj : j + 4 ≤ lo ∨ hi ≤ j) :
    leWord buf' j = leWord buf j := by
  simp only [leWord]
  rw [h.getD_eq j (by omega), h.getD_eq (j + 1) (by omega),
    h.getD_eq (j + 2) (by omega), h.getD_eq (j + 3) (by omega)]

theorem getD_append_right (pre buf : Bytes) {j : ℕ} (h : pre.length ≤ j) :
    (pre ++ buf).getD j 0 = buf.getD (j - pre.length) 0 := by
  simp only [List.getD_eq_getElem?_getD, List.getElem?_append_right h]

theorem getD_append_left (pre buf : Bytes) {j : ℕ} (h : j < pre.length) :
    (pre ++ buf).getD j 0 = pre.getD j 0 := by
  simp only [List.getD_eq_getElem?_getD, List.getElem?_append_left h]

theorem beWord_append_right (pre buf : Bytes) (k : ℕ) :
    beWord (pre ++ buf) (pre.length + k) = beWord buf k := by
  simp only [beWord, Nat.add_assoc]
  simp only [getD_append_right pre buf (Nat.le_add_right _ _),
    Nat.add_sub_cancel_left]

theorem leWord_append_right (pre buf : Bytes) (k : ℕ) :
    leWord (pre ++ buf) (pre.length + k) = leWord buf k := by
  simp only [leWord, Nat.add_assoc]
  simp only [getD_append_right pre buf (Nat.le_add_right _ _),
    Nat.add_sub_cancel_left]

theorem beHalf_append_right (pre buf : Bytes) (k : ℕ) :
    beHalf (pre ++ buf) (pre.length + k) = beHalf buf k := by
  simp only [beHalf, Nat.add_assoc]
  simp only [getD_append_right pre buf (Nat.le_add_right _ _),
    Nat.add_sub_cancel_left]

theorem leWord_append_left (pre buf : Bytes) {i : ℕ} (h : i + 4 ≤ pre.length) :
    leWord (pre ++ buf) i = leWord pre i := by
  simp only [leWord, getD_append_left pre buf (show i < _ by omega),
    getD_append_left pre buf (show i + 1 < _ by omega),
    getD_append_left pre buf (show i + 2 < _ by omega),
    getD_append_left pre buf (show i + 3 < _ by omega)]

theorem getD_set (buf : Bytes) (i j : ℕ) (b : UInt8) :
    (buf.set i b).getD j 0 =
      if i = j ∧ j < buf.length then b else buf.getD j 0 := by
  simp only [List.getD_eq_getElem?_getD, List.getElem?_set]
  by_cases hij : i = j
  · by_cases hj : j < buf.length
    · simp [hij, hj]
    · simp [hij, hj]
  · simp [hij]

theorem set_append_right (pre buf : Bytes) (k : ℕ) (b : UInt8) :
    (pre ++ buf).set (pre.length + k) b = pre ++ buf.set k b := by
  rw [List.set_append_right _ _ (Nat.le_add_right _ _),
    Nat.add_sub_cancel_left]

theorem swapHalf_append_right (pre buf : Bytes) (k : ℕ) :
    swapHalf (pre ++ buf) (pre.length + k) = pre ++ swapHalf buf k := by
  simp only [swapHalf, Nat.add_assoc, set_append_right,
    getD_append_right pre buf (Nat.le_add_right _ _), Nat.add_sub_cancel_left]

theorem swapWord_append_right (pre buf : Bytes) (k : ℕ) :
    swapWord (pre ++ buf) (pre.length + k) = pre ++ swapWord buf k := by
  simp only [swapWord, Nat.add_assoc, set_append_right,
    getD_append_right pre buf (Nat.le_add_right _ _), Nat.add_sub_cancel_left]

theorem swapWord_beU32_append (v : UInt32) (post : Bytes) :
    swapWord (beU32 v ++ post) 0 = leU32 v ++ post := rfl

theorem leWord_leU32 (v : UInt32) : leWord (leU32 v) 0 = v :=
  u32OfBytes_byteOf v

@[simp] theorem length_swapWord (buf : Bytes) (i : ℕ) :
    (swapWord buf i).length = buf.length := by
  simp [swapWord]

@[simp] theorem length_swapHalf (buf : Bytes) (i : ℕ) :
    (swapHalf buf i).length = buf.length := by
  simp [swapHalf]

theorem swapWord_sameOutside (buf : Bytes) (i : ℕ) :
    SameOutside buf (swapWord buf i) i (i + 4) := by
  refine ⟨length_swapWord buf i, ?_⟩
  intro j hj
  simp only [swapWord, getD_set]
  rw [if_neg (by omega), if_neg (by omega), if_neg (by omega),
    if_neg (by omega)]

theorem swapHalf_sameOutside (buf : Bytes) (i : ℕ) :
    SameOutside buf (swapHalf buf i) i (i + 2) := by
  refine ⟨length_swapHalf buf i, ?_⟩
  intro j hj
  simp only [swapHalf, getD_set]
  rw [if_neg (by omega), if_neg (by omega)]

/-- After the swap the memory value is the network value from before. -/
theorem leWord_swapWord {buf : Bytes} {i : ℕ} (h : i + 4 ≤ buf.length) :
    leWord (swapWord buf i) i = beWord buf i := by
  have h₀ : i < buf.length := by omega
  have h₁ : i + 1 < buf.length := by omega
  have h₂ : i + 2 < buf.length := by omega
  have h₃ : i + 3 < buf.length := by omega
  simp [leWord, beWord, swapWord, h₀, h₁, h₂, h₃]

theorem leHalf_swapHalf {buf : Bytes} {i : ℕ} (h : i + 2 ≤ buf.length) :
    leHalf (swapHalf buf i) i = beHalf buf i := by
  have h₀ : i < buf.length := by omega
  have h₁ : i + 1 < buf.length := by omega
  simp [leHalf, beHalf, swapHalf, h₀, h₁]

theorem leWord_swapWord_of_disjoint {buf : Bytes} {i j : ℕ}
    (h : j + 4 ≤ i ∨ i + 4 ≤ j) : leWord (swapWord buf i) j = leWord buf j :=
  (swapWord_sameOutside buf i).leWord_eq h

theorem beWord_swapWord_of_disjoint {buf : Bytes} {i j : ℕ}
    (h : j + 4 ≤ i ∨ i + 4 ≤ j) : beWord (swapWord buf i) j = beWord buf j :=
  (swapWord_sameOutside buf i).beWord_eq h

theorem loadU8_eq {buf : Bytes} {i : ℕ} (h : i < buf.length) :
    loadU8 buf i = .ok (buf.getD i 0) := by
  simp [loadU8, h]

theorem loadU16_eq {buf : Bytes} {i : ℕ} (h : i + 2 ≤ buf.length) :
    loadU16 buf i = .ok (leHalf buf i) := by
  simp only [loadU16, loadU8_eq (show i < buf.length by omega),
    loadU8_eq (show i + 1 < buf.length by omega), ok_bind, pure_eq_ok, leHalf]

theorem loadU32_eq {buf : Bytes} {i : ℕ} (h : i + 4 ≤ buf.length) :
    loadU32 buf i = .ok (leWord buf i) := by
  simp only [loadU32, loadU8_eq (show i < buf.length by omega),
    loadU8_eq (show i + 1 < buf.length by omega),
    loadU8_eq (show i + 2 < buf.length by omega),
    loadU8_eq (show i + 3 < buf.length by omega), ok_bind, pure_eq_ok, leWord]

theorem swapU16_eq {buf : Bytes} {i : ℕ} (h : i + 2 ≤ buf.length) :
    swapU16 buf i = .ok (swapHalf buf i) := by
  have h₀ : i < buf.length := by omega
  have h₁ : i + 1 < buf.length := by omega
  simp only [swapU16, loadU16_eq h, ok_bind, storeU16, storeU8, h₀, if_true,
    List.length_set, h₁, leHalf, bswap16_u16OfBytes, byteOf_u16OfBytes_zero,
    byteOf_u16OfBytes_one, swapHalf]

theorem swapU32_eq {buf : Bytes} {i : ℕ} (h : i + 4 ≤ buf.length) :
    swapU32 buf i = .ok (swapWord buf i) := by
  have h₀ : i < buf.length := by omega
  have h₁ : i + 1 < buf.length := by omega
  have h₂ : i + 2 < buf.length := by omega
  have h₃ : i + 3 < buf.length := by omega
  simp only [swapU32, loadU32_eq h, ok_bind, storeU32, storeU8, h₀, if_true,
    List.length_set, h₁, h₂, h₃, leWord, bswap32_u32OfBytes,
    byteOf_u32OfBytes, swapWord]

theorem loadU8_cases (buf : Bytes) (i : ℕ) :
    (∃ b, loadU8 buf i = .ok b) ∨ loadU8 buf i = .error .outOfBounds := by
  by_cases h : i < buf.length
  · exact Or.inl ⟨_, loadU8_eq h⟩
  · exact Or.inr (loadU8_of_le (by omega))

/-- A swap that does not fit is a fault: the load of its last byte is one. -/
theorem swapU32_of_lt {buf : Bytes} {i : ℕ} (h : buf.length < i + 4) :
    swapU32 buf i = .error .outOfBounds := by
  have hlast : loadU8 buf (i + 3) = .error .outOfBounds :=
    loadU8_of_le (by omega)
  rw [swapU32, loadU32, hlast]
  rcases loadU8_cases buf i with ⟨_, h₀⟩ | h₀
  · rcases loadU8_cases buf (i + 1) with ⟨_, h₁⟩ | h₁
    · rcases loadU8_cases buf (i + 2) with ⟨_, h₂⟩ | h₂
      · simp [h₀, h₁, h₂]
      · simp [h₀, h₁, h₂]
    · simp [h₀, h₁]
  · simp [h₀]

end ByteBuffer
