import RtpMulticast.Spi.Buffers

/-!
# One exchange on the SPI bus

`spi_xfer_one` sends a message and receives one at the same time.  The first
transaction is as long as what the host has to send; the header that comes in tells
whether a second one has to fetch the rest.  A peer that cannot take a message says so
in its header, and the host keeps its buffer.
-/

namespace RtpMulticast

open ByteBuffer ByteMemory

/-! ## The engine -/

/-- `SPI_MSG_CTRL_TRAFFIC_TYPE_MAX`. -/
def spiTrafficTypeMax : ℕ := 5

/-- `SPI_TXQ_LEN`. -/
def spiTxqLen : ℕ := 8

/-- `struct spi_stat`. -/
structure SpiStat where
  txPkts : UInt64 := 0
  txBytes : UInt64 := 0
  rxPkts : UInt64 := 0
  rxBytes : UInt64 := 0
  rxDrop : UInt64 := 0
  ioErr : UInt64 := 0
  hdrErr : UInt64 := 0
  waitTxnTimeouts : UInt64 := 0
  waitMsgXferTimeouts : UInt64 := 0
  waitHdrAckTimeouts : UInt64 := 0
  memErr : UInt64 := 0
  rxStall : UInt64 := 0
  deriving DecidableEq, Repr

/-- `struct spi_xfer_engine`.  A receive queue that is not bound is `none`; the others
come with their sizes. -/
structure SpiEngine where
  rxStall : Bool
  txbuf : Option SpiBuffer
  txq : List SpiBuffer
  rxq : ℕ → Option (ℕ × List SpiBuffer)
  stat : SpiStat

/-- A traffic type with a receive queue. -/
def SpiEngine.Bound (engine : SpiEngine) (type : UInt8) : Prop :=
  type.toNat < spiTrafficTypeMax ∧ (engine.rxq type.toNat).isSome

instance (engine : SpiEngine) : DecidablePred engine.Bound :=
  fun _ => inferInstanceAs (Decidable (_ ∧ _))

/-- `spi_get_txbuf`. -/
def spiGetTxbuf (engine : SpiEngine) : SpiEngine :=
  match engine.txbuf, engine.txq with
  | some _, _ => engine
  | none, [] => engine
  | none, buf :: txq =>
      { engine with
        txbuf := some buf
        txq := txq
        stat := { engine.stat with
          txPkts := engine.stat.txPkts + 1
          txBytes := engine.stat.txBytes + buf.len.toUInt64 } }

/-- `spi_get_stats`, when the task does not run in the middle of the copy. -/
def spiGetStats (engine : SpiEngine) : SpiStat := engine.stat

/-! ## Transactions -/

/-- `SPI_DMA_XFER_SIZE_THRESHOLD`. -/
def spiDmaXferSizeThreshold : ℕ := 8

/-- `spi_port_transfer` or `spi_port_transfer_dma` returns 0, and in the second case
`SPI_EVT_HW_XFER_DONE` comes in time. -/
structure SpiPortAnswer where
  started : Bool
  done : Bool
  deriving DecidableEq, Repr

/-- The result of `spi_txrx` and `spi_rx` for `len` bytes, and the statistics. -/
def spiTransaction (a : SpiPortAnswer) (len : ℕ) (stat : SpiStat) : ℤ × SpiStat :=
  if len = 0 then (0, stat)
  else if ¬ a.started then (-2, { stat with ioErr := stat.ioErr + 1 })
  else if spiDmaXferSizeThreshold < len ∧ ¬ a.done then
    (-3, { stat with waitMsgXferTimeouts := stat.waitMsgXferTimeouts + 1 })
  else (0, stat)

/-- What is sent in the first transaction: the buffer with its header, or a header
alone when there is no buffer or the peer is stalled. -/
def spiFirstPart (rxStall : Bool) :
    Option SpiBuffer → Except Fault (Option SpiBuffer × Bytes × UInt16)
  | none => .ok (none, (SpiHeader.init 0 0).bytes, UInt16.ofNat spiHeaderSize)
  | some buf =>
      if rxStall then
        .ok (some buf, (SpiHeader.init 0 0).bytes, UInt16.ofNat spiHeaderSize)
      else do
        let msglen := buf.len - UInt16.ofNat spiHeaderSize
        let block ← copyIn buf.block buf.data (SpiHeader.init buf.type msglen).bytes
        let xferSize := UInt16.ofNat (spiAlign buf.len.toNat)
        let mosi ← copyOut block buf.data xferSize.toNat
        return (some { buf with block := block }, mosi, xferSize)

/-! ## The exchange -/

/-- What the hardware, the allocator and the peer answer in one exchange: whether
`SPI_EVT_TXN_RDY` comes in time, the old memory of the two blocks that may be
allocated, the two transactions, and the bytes that the peer sends. -/
structure SpiAnswers where
  txnRdy : Bool
  heap : Option Memory
  first : SpiPortAnswer
  miso : Memory
  second : SpiPortAnswer
  resized : Option Memory

/-- The result of an exchange: the bytes sent to the peer, the header that was accepted
from it, the buffer for the receive queue of a traffic type, and the allocations and
frees. -/
structure SpiExchange where
  engine : SpiEngine
  ret : ℤ
  mosi : Bytes
  header : Option SpiHeader
  received : Option (ℕ × SpiBuffer)
  allocs : ℕ
  frees : List ℕ

/-- The buffer for the receive queue: a short message moves to a block of its size. -/
def spiResize (addr : ℕ) (resized : Option Memory) (rxbuf : SpiBuffer) (len : UInt16)
    (stat : SpiStat) : Except Fault (SpiBuffer × SpiStat × ℕ × List ℕ) :=
  if len.toNat < 256 then
    match resized with
    | none => .ok (rxbuf, { stat with memErr := stat.memErr + 1 }, 0, [])
    | some stale => do
        let small := spiBufferAlloc addr stale len.toNat 0
        let data ← copyOut rxbuf.block rxbuf.data len.toNat
        let block ← copyIn small.block small.data data
        return ({ small with block := block }, stat, 1, [rxbuf.addr])
  else .ok (rxbuf, stat, 0, [])

/-- The message in the buffer goes to the queue of its type, or is dropped. -/
def spiReceived (next : ℕ) (resized : Option Memory) (psh : SpiHeader)
    (rxbuf : SpiBuffer) (engine : SpiEngine) :
    Except Fault (SpiEngine × Option (ℕ × SpiBuffer) × ℕ × List ℕ) :=
  if 0 < psh.len.toNat then do
    let stat := { engine.stat with
      rxPkts := engine.stat.rxPkts + 1
      rxBytes := engine.stat.rxBytes + psh.len.toUInt64 }
    let pulled := (spiBufferPull rxbuf spiHeaderSize).getD rxbuf
    let rxbuf := { pulled with len := psh.len, type := psh.type }
    if engine.Bound psh.type then
      let (rxbuf, stat, allocs, frees) ← spiResize next resized rxbuf psh.len stat
      return ({ engine with stat := stat }, some (psh.type.toNat, rxbuf), allocs, frees)
    else
      return ({ engine with stat := { stat with rxDrop := stat.rxDrop + 1 } }, none, 0,
        [rxbuf.addr])
  else .ok (engine, none, 0, [rxbuf.addr])

/-- The second transaction fetches what the first one left of the peer's message. -/
def spiFetchRest (a : SpiAnswers) (psh : SpiHeader) (xferSize : UInt16)
    (rxbuf : SpiBuffer) (stat : SpiStat) : Except Fault (ℤ × SpiStat × SpiBuffer) :=
  if xferSize.toNat < psh.len.toNat + spiHeaderSize then
    let remain := UInt16.ofNat (psh.len.toNat + spiHeaderSize - xferSize.toNat)
    let remain := UInt16.ofNat (spiAlign remain.toNat)
    let (ret, stat) := spiTransaction a.second remain.toNat stat
    if ret ≠ 0 then .ok (ret, stat, rxbuf)
    else do
      let block ← copyIn rxbuf.block (rxbuf.data + xferSize.toNat)
        (slice a.miso xferSize.toNat remain.toNat)
      return (0, stat, { rxbuf with block := block })
  else .ok (0, stat, rxbuf)

/-- The exchange behind the first transaction, once the header of the peer is
accepted; the blocks that are allocated here have numbers from `next` on. -/
def spiSecondPart (next : ℕ) (a : SpiAnswers) (psh : SpiHeader) (mosi : Bytes)
    (xferSize : UInt16) (rxbuf : SpiBuffer) (engine : SpiEngine) :
    Except Fault SpiExchange := do
  let rxRestore := engine.rxStall && !psh.stalled
  let stat := if !engine.rxStall && psh.stalled then
    { engine.stat with rxStall := engine.stat.rxStall + 1 } else engine.stat
  let (ret, stat, rxbuf) ← spiFetchRest a psh xferSize rxbuf stat
  let engine := { engine with rxStall := psh.stalled, stat := stat }
  if ret ≠ 0 then return ⟨engine, -1, mosi, some psh, none, 1, [rxbuf.addr]⟩
  else
    -- The peer has taken the message that was sent.
    let taken := !psh.stalled && !rxRestore
    let sent := if taken then engine.txbuf.toList.map SpiBuffer.addr else []
    let engine := if taken then { engine with txbuf := none } else engine
    let (engine, received, allocs, frees) ← spiReceived next a.resized psh rxbuf engine
    return ⟨engine, 0, mosi, some psh, received, 1 + allocs, sent ++ frees⟩

/-- `spi_xfer_one` up to the send to the receive queue; `next` numbers the blocks that
are allocated. -/
def spiXferOne (next : ℕ) (waitTxnRdy : Bool) (a : SpiAnswers) (engine : SpiEngine) :
    Except Fault SpiExchange :=
  if waitTxnRdy && !a.txnRdy then
    let stat := { engine.stat with waitTxnTimeouts := engine.stat.waitTxnTimeouts + 1 }
    .ok ⟨{ engine with stat := stat }, -1, [], none, none, 0, []⟩
  else match a.heap with
  | none =>
      let stat := { engine.stat with memErr := engine.stat.memErr + 1 }
      .ok ⟨{ engine with stat := stat }, -1, [], none, none, 0, []⟩
  | some stale => do
      let rxbuf := spiBufferAlloc next stale (spiXferMtuBytes + spiHeaderSize) 0
      let (txbuf, mosi, xferSize) ← spiFirstPart engine.rxStall engine.txbuf
      let (ret, stat) := spiTransaction a.first xferSize.toNat engine.stat
      let engine := { engine with txbuf := txbuf, stat := stat }
      if ret ≠ 0 then return ⟨engine, -1, mosi, none, none, 1, [next]⟩
      else
        let block ← copyIn rxbuf.block rxbuf.data (slice a.miso 0 xferSize.toNat)
        let psh ← loadSpiHeader (block.drop rxbuf.data)
        if spiHeaderValidate psh then
          spiSecondPart (next + 1) a psh mosi xferSize { rxbuf with block := block } engine
        else
          let stat := { stat with hdrErr := stat.hdrErr + 1 }
          return ⟨{ engine with stat := stat }, -1, mosi, none, none, 1, [next]⟩

end RtpMulticast
