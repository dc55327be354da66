import RtpMulticast.Spi.Delivery

/-!
# Buffers that are written to the SPI bus

The caller of `spi_write` may also fill a buffer of its own, which it got from
`spi_tx_buffer_alloc`.  In this mode `spi_write` checks `data_len`, which stands beside
the buffer in the message and has no meaning here, and not the length of the buffer.  A
buffer that fits into a transfer goes the way of all messages; an exchange of a longer
one writes behind the receive buffer, which is as long as a transfer.
-/

namespace RtpMulticast

open ByteBuffer ByteMemory SpiBus

/-- `spi_tx_buffer_alloc`. -/
def spiTxBufferAlloc (addr : ℕ) (stale : Memory) (size : ℕ) : SpiBuffer :=
  spiBufferAlloc addr stale size spiHeaderSize

/-- `spi_write` of a buffer, with `data_len` as it stands in the message: the result, the
engine, and the buffer if it is still the caller's. -/
def spiWriteBuffer (dataLen : ℕ) (type : UInt8) (buf : SpiBuffer) (engine : SpiEngine) :
    ℤ × SpiEngine × Option SpiBuffer :=
  if spiXferMtuBytes < dataLen then (-3, engine, some buf)
  else
    let dataLen := buf.len
    let buf := { buf with type := type }
    match spiBufferPush buf spiHeaderSize with
    | none => (-4, engine, some buf)
    | some pushed =>
        if engine.txq.length < spiTxqLen then
          (dataLen.toNat, { engine with txq := engine.txq ++ [pushed] }, none)
        else (-5, engine, some pushed)

/-- A buffer of the caller with its data in it. -/
structure SpiBuffer.Prepared (buf : SpiBuffer) (payload : Bytes) : Prop where
  data : buf.data = spiHeaderSize
  len : buf.len = UInt16.ofNat payload.length
  cap : buf.block.length = spiAlign (payload.length + spiHeaderSize)
  filled : payload <+: buf.block.drop spiHeaderSize

theorem spiTxBufferAlloc_prepared (addr : ℕ) (stale : Memory) (data : Bytes) :
    ∃ block, copyIn (spiTxBufferAlloc addr stale data.length).block spiHeaderSize data =
        .ok block ∧
      { spiTxBufferAlloc addr stale data.length with block := block }.Prepared data := by
  obtain ⟨block, hcopy, hcap, hprefix⟩ := spiBufferAlloc_fill addr stale data spiHeaderSize
  exact ⟨block, hcopy, rfl, rfl, hcap, hprefix⟩

section Write

variable {dataLen : ℕ} {type : UInt8} {buf : SpiBuffer} {data : Bytes} {engine : SpiEngine}

/-- The buffer with room for the header and the traffic type of the message. -/
def SpiBuffer.pushed (buf : SpiBuffer) (type : UInt8) : SpiBuffer :=
  { buf with data := 0, len := buf.len + UInt16.ofNat spiHeaderSize, type := type }

theorem spiBufferPush_prepared (hbuf : buf.Prepared data) :
    spiBufferPush { buf with type := type } spiHeaderSize = some (buf.pushed type) := by
  rw [spiBufferPush, if_neg (by decide), hbuf.data, if_neg (Nat.lt_irrefl _)]
  rfl

theorem spiWriteBuffer_queued (hbuf : buf.Prepared data) (hlen : dataLen ≤ spiXferMtuBytes)
    (hroom : engine.txq.length < spiTxqLen) :
    spiWriteBuffer dataLen type buf engine =
      ((buf.len.toNat : ℤ), { engine with txq := engine.txq ++ [buf.pushed type] }, none) := by
  rw [spiWriteBuffer, if_neg (Nat.not_lt.mpr hlen)]
  dsimp only
  rw [spiBufferPush_prepared hbuf]
  dsimp only
  rw [if_pos hroom]

/-- A buffer that found the queue full has lost the room for its header, and can not be
written again. -/
theorem spiWriteBuffer_full (hbuf : buf.Prepared data) (hlen : dataLen ≤ spiXferMtuBytes)
    (hfull : spiTxqLen ≤ engine.txq.length) :
    spiWriteBuffer dataLen type buf engine = (-5, engine, some (buf.pushed type)) ∧
      ∀ engine', (spiWriteBuffer dataLen type (buf.pushed type) engine').1 = -4 := by
  have hdata : (buf.pushed type).data = 0 := rfl
  constructor
  · rw [spiWriteBuffer, if_neg (Nat.not_lt.mpr hlen)]
    dsimp only
    rw [spiBufferPush_prepared hbuf]
    dsimp only
    rw [if_neg (Nat.not_lt.mpr hfull)]
  · intro engine'
    rw [spiWriteBuffer, if_neg (Nat.not_lt.mpr hlen)]
    dsimp only
    rw [spiBufferPush, if_neg (by decide), hdata, if_pos (by decide)]

theorem toNat_len_pushed (type : UInt8) (hbuf : buf.Prepared data)
    (hdata : data.length < 65528) :
    (buf.pushed type).len.toNat = spiHeaderSize + data.length := by
  rw [SpiBuffer.pushed, hbuf.len, ← UInt16.ofNat_add, Nat.add_comm]
  exact toNat_ofNat16 (by rw [spiHeaderSize]; omega)

/-- A buffer that is not longer than a transfer holds its message. -/
theorem holds_pushed (hbuf : buf.Prepared data) (hfits : SpiMessage.Fits ⟨type, data⟩) :
    (buf.pushed type).Holds ⟨type, data⟩ := by
  have hle := hfits.le_mtu
  rw [spiXferMtuBytes] at hle
  refine ⟨hfits, rfl, toNat_len_pushed type hbuf (by omega), rfl, ?_, hbuf.filled⟩
  exact hbuf.cap.trans (congrArg spiAlign (Nat.add_comm _ _))

end Write

/-! ## The exchange -/

section Exchange

variable {next : ℕ} {type : UInt8} {buf : SpiBuffer} {data : Bytes} {engine : SpiEngine}

/-- The first part of an exchange, for a buffer of any length. -/
theorem spiFirstPart_pushed (type : UInt8) (hbuf : buf.Prepared data)
    (hdata : data.length ≤ 65524) :
    ∃ txbuf mosi xferSize,
      spiFirstPart false (some (buf.pushed type)) = .ok (txbuf, mosi, xferSize) ∧
        xferSize.toNat = spiAlign (spiHeaderSize + data.length) := by
  have hlen := toNat_len_pushed type hbuf (by omega)
  have hcap : (buf.pushed type).block.length = spiAlign (spiHeaderSize + data.length) :=
    hbuf.cap.trans (congrArg spiAlign (Nat.add_comm _ _))
  have hsize : (UInt16.ofNat (spiAlign (buf.pushed type).len.toNat)).toNat =
      spiAlign (spiHeaderSize + data.length) := by
    rw [hlen]
    refine toNat_ofNat16 ?_
    rw [spiAlign, spiHeaderSize]
    omega
  have hheader := le_spiAlign (spiHeaderSize + data.length)
  obtain ⟨block, hcopy⟩ : ∃ block, copyIn (buf.pushed type).block 0
      (SpiHeader.init type ((buf.pushed type).len - UInt16.ofNat spiHeaderSize)).bytes =
        .ok block := by
    refine ⟨_, if_pos ?_⟩
    rw [SpiHeader.length_bytes, hcap]
    omega
  have hroom : 0 + spiAlign (spiHeaderSize + data.length) ≤ block.length := by
    rw [length_of_copyIn hcopy, hcap, Nat.zero_add]
  refine ⟨some { buf.pushed type with block := block },
    (block.drop 0).take (spiAlign (spiHeaderSize + data.length)), _, ?_, hsize⟩
  rw [spiFirstPart, if_neg Bool.false_ne_true]
  dsimp only
  have hstart : (buf.pushed type).data = 0 := rfl
  have htype : (buf.pushed type).type = type := rfl
  rw [hstart, htype, hcopy, ok_bind, hsize, copyOut_of_le _ _ _ hroom, ok_bind]
  rfl

/-- A first transaction that is longer than the receive buffer overruns it. -/
theorem spiXferOne_overrun {txbuf : Option SpiBuffer} {mosi : Bytes} {xferSize : UInt16}
    (hfirst : spiFirstPart engine.rxStall engine.txbuf = .ok (txbuf, mosi, xferSize))
    (hlong : spiXferMtuBytes + spiHeaderSize < xferSize.toNat) :
    spiXferOne next false idlePeer engine = .error .outOfBounds := by
  have hne : xferSize.toNat ≠ 0 := Nat.ne_zero_of_lt hlong
  have hret : spiTransaction idlePeer.first xferSize.toNat engine.stat =
      (0, engine.stat) := by
    have hdone : ¬ (spiDmaXferSizeThreshold < xferSize.toNat ∧ ¬ idlePeer.first.done) :=
      fun hdma => hdma.2 rfl
    have hstarted : ¬ ¬ idlePeer.first.started := not_not_intro rfl
    rw [spiTransaction, if_neg hne, if_neg hstarted, if_neg hdone]
  have hheap : idlePeer.heap = some fun _ => 0 := rfl
  rw [spiXferOne, Bool.false_and, if_neg Bool.false_ne_true, hheap]
  dsimp only
  generalize hrxbuf : spiBufferAlloc next _ (spiXferMtuBytes + spiHeaderSize) 0 = rxbuf
  have hcap : rxbuf.block.length = spiXferMtuBytes + spiHeaderSize :=
    hrxbuf ▸ length_spiBufferAlloc _ _ _ _
  have hcopy : copyIn rxbuf.block rxbuf.data (slice idlePeer.miso 0 xferSize.toNat) =
      .error .outOfBounds := by
    refine if_neg ?_
    rw [length_slice, hcap]
    omega
  rw [hfirst, ok_bind]
  dsimp only
  rw [hret]
  dsimp only
  rw [if_neg (not_not_intro rfl), hcopy]
  rfl

/-- A buffer that is written stays inside the receive buffer, whatever the hardware and the
peer answer, exactly if it is not longer than a transfer. -/
theorem bufferWrite_inBounds_iff {dataLen : ℕ} (hbuf : buf.Prepared data)
    (hpos : 0 < data.length) (hdata : data.length ≤ 65524) (hlen : dataLen ≤ spiXferMtuBytes)
    (hstall : engine.rxStall = false) (hidle : engine.txbuf = none)
    (hempty : engine.txq = []) :
    (∀ waitTxnRdy a, ∃ r, spiXferOne next waitTxnRdy a
        (spiGetTxbuf (spiWriteBuffer dataLen type buf engine).2.1) = .ok r) ↔
      data.length ≤ spiXferMtuBytes := by
  have hroom : engine.txq.length < spiTxqLen := by
    rw [hempty]
    decide
  rw [spiWriteBuffer_queued hbuf hlen hroom]
  dsimp only
  rw [hempty, List.nil_append]
  generalize hloaded : spiGetTxbuf _ = loaded
  have htxbuf : loaded.txbuf = some (buf.pushed type) := by
    rw [← hloaded, spiGetTxbuf, hidle]
  have hstalled : loaded.rxStall = false := by
    rw [← hloaded, spiGetTxbuf, hidle]
    exact hstall
  constructor
  · intro hall
    by_contra hlong
    rw [Nat.not_le] at hlong
    obtain ⟨txbuf, mosi, xferSize, hfirst, hsize⟩ :=
      spiFirstPart_pushed type hbuf hdata
    obtain ⟨r, hr⟩ := hall false idlePeer
    rw [← hstalled, ← htxbuf] at hfirst
    have hle := le_spiAlign (spiHeaderSize + data.length)
    rw [spiXferOne_overrun hfirst (by omega)] at hr
    cases hr
  · intro hle waitTxnRdy a
    have hholds : (buf.pushed type).Holds ⟨type, data⟩ := holds_pushed hbuf ⟨hpos, hle⟩
    have hslot : Option.Rel SpiBuffer.Holds loaded.txbuf (some ⟨type, data⟩) := by
      rw [htxbuf]
      exact .some hholds
    obtain ⟨r, hr, -⟩ := spiXferOne_outcome next waitTxnRdy a hslot
    exact ⟨r, hr⟩

end Exchange

/-- A buffer of 2000 bytes. -/
theorem bufferWrite_inBounds_long :
    ∃ buf : SpiBuffer, buf.Prepared (List.replicate 2000 7) ∧
      ((∀ waitTxnRdy a, ∃ r, spiXferOne 1 waitTxnRdy a
          (spiGetTxbuf (spiWriteBuffer 0 0 buf (SpiBus.initial true).engine).2.1) = .ok r) ↔
        (List.replicate 2000 (7 : UInt8)).length ≤ spiXferMtuBytes) := by
  obtain ⟨block, -, hbuf⟩ := spiTxBufferAlloc_prepared 0 (fun _ => 0) (List.replicate 2000 7)
  refine ⟨_, hbuf, bufferWrite_inBounds_iff hbuf ?_ ?_ (Nat.zero_le _) rfl rfl rfl⟩
  · rw [List.length_replicate]
    decide
  · rw [List.length_replicate]
    decide

end RtpMulticast
