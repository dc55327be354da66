import RtpMulticast.Support.ByteBuffer
import Mathlib.Data.Set.Function

/-!
# Memory behind a pointer

A pointer that a program follows further than the object it was given is
modelled by the bytes from that address on, as a function of the offset.  A
received message copied into a larger buffer shows three regions: the message,
the bytes that were in the buffer before, and what follows the buffer.
-/

namespace ByteMemory

open ByteBuffer

abbrev Memory := ℕ → UInt8

/-- The `n` bytes from offset `a` on. -/
def slice (m : Memory) (a n : ℕ) : Bytes := (List.range n).map fun i => m (a + i)

/-- The bytes `b` written at offset `a`. -/
def store (m : Memory) (a : ℕ) (b : Bytes) : Memory := fun i =>
  if a ≤ i ∧ i < a + b.length then b.getD (i - a) 0 else m i

/-- The word at offset `a`, in network order. -/
def loadBe32 (m : Memory) (a : ℕ) : UInt32 :=
  u32OfBytes (m (a + 3)) (m (a + 2)) (m (a + 1)) (m a)

/-- A buffer of `size` bytes that `b` was copied into: `stale` is what the buffer
held before, `beyond` what follows it. -/
def filled (b : Bytes) (size : ℕ) (stale beyond : Memory) : Memory := fun i =>
  if h : i < b.length then b[i] else if i < size then stale i else beyond i

section Slice

variable {m m' : Memory} {a n : ℕ}

@[simp] theorem length_slice (m : Memory) (a n : ℕ) : (slice m a n).length = n := by
  simp [slice]

theorem slice_add (m : Memory) (a n k : ℕ) :
    slice m a (n + k) = slice m a n ++ slice m (a + n) k := by
  simp only [slice, List.range_add, List.map_append, List.map_map]
  refine congrArg _ (List.map_congr_left fun i _ => ?_)
  rw [Function.comp_apply, Nat.add_assoc]

theorem slice_prefix_slice {k : ℕ} (m : Memory) (a : ℕ) (h : n ≤ k) :
    slice m a n <+: slice m a k := by
  obtain ⟨rest, rfl⟩ := Nat.exists_eq_add_of_le h
  rw [slice_add]
  exact List.prefix_append _ _

theorem slice_congr (h : Set.EqOn m m' {i | a ≤ i ∧ i < a + n}) :
    slice m a n = slice m' a n := by
  refine List.map_congr_left fun i hi => h ?_
  have := List.mem_range.mp hi
  constructor <;> omega

theorem loadBe32_congr (h : ∀ k < 4, m (a + k) = m' (a + k)) :
    loadBe32 m a = loadBe32 m' a := by
  unfold loadBe32
  rw [h 3 (by decide), h 2 (by decide), h 1 (by decide), ← Nat.add_zero a,
    h 0 (by decide)]

theorem beU32_loadBe32 (m : Memory) (a : ℕ) :
    beU32 (loadBe32 m a) = [m a, m (a + 1), m (a + 2), m (a + 3)] := by
  simp [loadBe32, beU32]

/-- A word is known by its bytes. -/
theorem loadBe32_eq_iff {v : UInt32} :
    loadBe32 m a = v ↔ ∀ k < 4, m (a + k) = (beU32 v).getD k 0 := by
  constructor
  · rintro rfl k hk
    rw [beU32_loadBe32]
    match k, hk with
    | 0, _ => rfl
    | 1, _ => rfl
    | 2, _ => rfl
    | 3, _ => rfl
  · intro h
    have h₀ := h 0 (by decide)
    rw [Nat.add_zero] at h₀
    rw [loadBe32, h₀, h 1 (by decide), h 2 (by decide), h 3 (by decide)]
    simp [beU32]

theorem getD_slice {i : ℕ} (h : i < n) : (slice m a n).getD i 0 = m (a + i) := by
  simp [slice, List.getD_eq_getElem?_getD, h]

end Slice

section Store

variable {m : Memory} {a : ℕ} {b : Bytes}

theorem store_of_lt {i : ℕ} (h : i < a) : store m a b i = m i := by
  unfold store
  rw [if_neg]
  omega

theorem store_at {k : ℕ} (h : k < b.length) : store m a b (a + k) = b[k] := by
  unfold store
  rw [if_pos (by omega), Nat.add_sub_cancel_left,
    List.getD_eq_getElem?_getD, List.getElem?_eq_getElem h, Option.getD_some]

theorem store_congr {m' : Memory} {i : ℕ} (h : m i = m' i) :
    store m a b i = store m' a b i := by
  unfold store
  split_ifs
  · rfl
  · exact h

theorem loadBe32_store (m : Memory) (a : ℕ) (v : UInt32) :
    loadBe32 (store m a (beU32 v)) a = v := by
  have hk (k : ℕ) (hk : k < (beU32 v).length) :
      store m a (beU32 v) (a + k) = (beU32 v)[k] := store_at hk
  have h₀ := hk 0 (by simp [beU32])
  unfold loadBe32
  rw [hk 3 (by simp [beU32]), hk 2 (by simp [beU32]), hk 1 (by simp [beU32])]
  rw [Nat.add_zero] at h₀
  rw [h₀]
  simp [beU32]

end Store

section Filled

variable {b : Bytes} {size : ℕ} {stale beyond : Memory}

theorem filled_received {i : ℕ} (h : i < b.length) :
    filled b size stale beyond i = b[i] := by
  unfold filled
  rw [dif_pos h]

theorem filled_getD {i : ℕ} (h : i < b.length) :
    filled b size stale beyond i = b.getD i 0 := by
  rw [filled_received h, List.getD_eq_getElem?_getD, List.getElem?_eq_getElem h,
    Option.getD_some]

theorem filled_stale {i : ℕ} (h : b.length ≤ i) (hi : i < size) :
    filled b size stale beyond i = stale i := by
  unfold filled
  rw [dif_neg (Nat.not_lt.mpr h), if_pos hi]

theorem filled_beyond {i : ℕ} (h : b.length ≤ i) (hi : size ≤ i) :
    filled b size stale beyond i = beyond i := by
  unfold filled
  rw [dif_neg (Nat.not_lt.mpr h), if_neg (Nat.not_lt.mpr hi)]

/-- Outside its stale part the buffer does not depend on what it held before. -/
theorem filled_congr {stale' : Memory} {i : ℕ} (h : i < b.length ∨ size ≤ i) :
    filled b size stale beyond i = filled b size stale' beyond i := by
  unfold filled
  split_ifs with hb hs
  · rfl
  · omega
  · rfl

end Filled

end ByteMemory
