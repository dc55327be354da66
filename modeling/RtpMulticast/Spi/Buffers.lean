import RtpMulticast.Support.ByteMemory

/-!
# Buffers of the SPI bus

A `spi_buffer` is a block of memory with a descriptor in front of it.  The data of a
message start behind a reserve, into which `spi_buffer_push` puts the header.  The
block is a multiple of four bytes long, since the bus moves whole words.
-/

namespace RtpMulticast

open ByteBuffer ByteMemory

/-! ## The header of a message -/

/-- `SPI_XFER_MTU_BYTES`. -/
def spiXferMtuBytes : ℕ := 1520

/-- `SPI_HEADER_MAGIC_CODE`. -/
def spiHeaderMagicCode : UInt16 := 0x55AA

/-- `sizeof(struct spi_header)`. -/
def spiHeaderSize : ℕ := 8

/-- `struct spi_header`. -/
structure SpiHeader where
  magic : UInt16
  len : UInt16
  version : BitVec 2
  rxStall : BitVec 1
  flags : BitVec 5
  type : UInt8
  rsvd : UInt16
  deriving DecidableEq, Repr

/-- `SPI_HEADER_INIT`. -/
def SpiHeader.init (type : UInt8) (len : UInt16) : SpiHeader where
  magic := spiHeaderMagicCode
  len := len
  version := 0
  rxStall := 0
  flags := 0
  type := type
  rsvd := 0

/-- The peer has no room for a message. -/
def SpiHeader.stalled (h : SpiHeader) : Bool := h.rxStall ≠ 0

/-- The memory image; the first bit field takes the lowest bits. -/
def SpiHeader.bytes (h : SpiHeader) : Bytes :=
  leU16 h.magic ++ leU16 h.len ++
    [UInt8.ofBitVec (h.flags ++ h.rxStall ++ h.version), h.type] ++ leU16 h.rsvd

/-- The header at the front of a buffer. -/
def loadSpiHeader (buf : Bytes) : Except Fault SpiHeader := do
  let magic ← loadU16 buf 0
  let len ← loadU16 buf 2
  let bits ← loadU8 buf 4
  let type ← loadU8 buf 5
  let rsvd ← loadU16 buf 6
  return {
    magic := magic
    len := len
    version := bits.toBitVec.extractLsb' 0 2
    rxStall := bits.toBitVec.extractLsb' 2 1
    flags := bits.toBitVec.extractLsb' 3 5
    type := type
    rsvd := rsvd }

theorem SpiHeader.length_bytes (h : SpiHeader) : h.bytes.length = spiHeaderSize := rfl

theorem bitFields_append (version : BitVec 2) (rxStall : BitVec 1) (flags : BitVec 5) :
    (flags ++ rxStall ++ version).extractLsb' 0 2 = version ∧
      (flags ++ rxStall ++ version).extractLsb' 2 1 = rxStall ∧
      (flags ++ rxStall ++ version).extractLsb' 3 5 = flags := by
  decide +revert

/-- A header is read as it was written. -/
theorem loadSpiHeader_bytes (h : SpiHeader) (rest : Bytes) :
    loadSpiHeader (h.bytes ++ rest) = .ok h := by
  obtain ⟨hversion, hstall, hflags⟩ := bitFields_append h.version h.rxStall h.flags
  simp [loadSpiHeader, SpiHeader.bytes, leU16, loadU16, loadU8, hversion, hstall, hflags]

theorem loadSpiHeader_append {front : Bytes} (h : spiHeaderSize ≤ front.length)
    (rest : Bytes) : loadSpiHeader (front ++ rest) = loadSpiHeader front := by
  have hbyte (k : ℕ) (hk : k < 8) : loadU8 (front ++ rest) k = loadU8 front k :=
    loadU8_append_left (Nat.lt_of_lt_of_le hk h) rest
  simp only [loadSpiHeader, loadU16, hbyte _ (by decide : 0 < 8),
    hbyte _ (by decide : 0 + 1 < 8), hbyte _ (by decide : 2 < 8),
    hbyte _ (by decide : 2 + 1 < 8), hbyte _ (by decide : 4 < 8),
    hbyte _ (by decide : 5 < 8), hbyte _ (by decide : 6 < 8),
    hbyte _ (by decide : 6 + 1 < 8)]

theorem exists_loadSpiHeader {buf : Bytes} (h : spiHeaderSize ≤ buf.length) :
    ∃ header, loadSpiHeader buf = .ok header := by
  have hlen : 8 ≤ buf.length := h
  rw [loadSpiHeader, loadU16_eq (by omega), ok_bind, loadU16_eq (by omega), ok_bind,
    loadU8_eq (by omega), ok_bind, loadU8_eq (by omega), ok_bind,
    loadU16_eq (by omega), ok_bind]
  exact ⟨_, rfl⟩

/-- `spi_header_validate`. -/
def spiHeaderValidate (h : SpiHeader) : Bool :=
  h.magic = spiHeaderMagicCode ∧ h.len.toNat ≤ spiXferMtuBytes

/-! ## Buffers -/

/-- `(n + SPI_BUF_ALIGN_MASK) & ~SPI_BUF_ALIGN_MASK`. -/
def spiAlign (n : ℕ) : ℕ := (n + 3) / 4 * 4

theorem le_spiAlign (n : ℕ) : n ≤ spiAlign n := by
  rw [spiAlign]
  omega

theorem spiAlign_lt (n : ℕ) : spiAlign n < n + 4 := by
  rw [spiAlign]
  omega

theorem spiAlign_mono {n m : ℕ} (h : n ≤ m) : spiAlign n ≤ spiAlign m := by
  rw [spiAlign, spiAlign]
  omega

/-- `struct spi_buffer`.  The `cap` bytes behind the descriptor are `block`, `data` is
the place in them that the data pointer names, and `cb[0]` is the traffic type. -/
structure SpiBuffer where
  addr : ℕ
  block : Bytes
  data : ℕ
  len : UInt16
  type : UInt8
  deriving DecidableEq, Repr

/-- `spi_buffer_alloc`, for a block at `addr` whose memory held `stale` before.  The
bytes behind the data get the debug pattern. -/
def spiBufferAlloc (addr : ℕ) (stale : Memory) (size reserve : ℕ) : SpiBuffer where
  addr := addr
  block := slice stale 0 (size + reserve) ++
    List.replicate (spiAlign (size + reserve) - (size + reserve)) 0x88
  data := reserve
  len := UInt16.ofNat size
  type := 0

/-- `spi_buffer_push`. -/
def spiBufferPush (buf : SpiBuffer) (size : ℕ) : Option SpiBuffer :=
  if size = 0 then some buf
  else if buf.data < size then none
  else some { buf with data := buf.data - size, len := buf.len + UInt16.ofNat size }

/-- `spi_buffer_pull`. -/
def spiBufferPull (buf : SpiBuffer) (size : ℕ) : Option SpiBuffer :=
  if size = 0 then some buf
  else if buf.block.length < buf.data + size then none
  else some { buf with data := buf.data + size, len := buf.len - UInt16.ofNat size }

theorem length_spiBufferAlloc (addr : ℕ) (stale : Memory) (size reserve : ℕ) :
    (spiBufferAlloc addr stale size reserve).block.length =
      spiAlign (size + reserve) := by
  have hle := le_spiAlign (size + reserve)
  rw [spiBufferAlloc, List.length_append, length_slice, List.length_replicate]
  omega

/-- Data that is copied behind the reserve. -/
theorem spiBufferAlloc_fill (addr : ℕ) (stale : Memory) (data : Bytes) (reserve : ℕ) :
    ∃ block, copyIn (spiBufferAlloc addr stale data.length reserve).block reserve data =
        .ok block ∧
      block.length = spiAlign (data.length + reserve) ∧ data <+: block.drop reserve := by
  have hfront : (slice stale 0 reserve).length = reserve := length_slice _ _ _
  have hcap := length_spiBufferAlloc addr stale data.length reserve
  have hblock : (spiBufferAlloc addr stale data.length reserve).block =
      slice stale 0 reserve ++ (slice stale (0 + reserve) data.length ++
        List.replicate (spiAlign (data.length + reserve) - (data.length + reserve)) 0x88) := by
    rw [spiBufferAlloc, Nat.add_comm data.length, slice_add, List.append_assoc]
  have hle : data.length ≤ (slice stale (0 + reserve) data.length ++
      List.replicate (spiAlign (data.length + reserve) - (data.length + reserve))
        (0x88 : UInt8)).length := by
    rw [List.length_append, length_slice]
    exact Nat.le_add_right _ _
  have hcopy := copyIn_tail (slice stale 0 reserve) _ data hle
  rw [← hblock, hfront] at hcopy
  refine ⟨_, hcopy, (length_of_copyIn hcopy).trans hcap, ?_⟩
  rw [List.append_assoc, List.drop_left' hfront]
  exact List.prefix_append _ _

end RtpMulticast
