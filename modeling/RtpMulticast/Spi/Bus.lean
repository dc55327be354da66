import RtpMulticast.Spi.Outcomes
import RtpMulticast.Support.Machine
import Mathlib.Logic.Function.Basic

/-!
# The SPI bus

Tasks of the application write messages into the transmit queue and read from the
receive queues.  `spi_xfer_engine_task` sleeps until an event wakes it, and then makes
exchanges until it has nothing to send and the ready line of the peer is low.

A writer sets `SPI_EVT_TXN_PENDING` after its message is in the queue, and an interrupt
sets `SPI_EVT_TXN_RDY` after the ready line rises; in both cases other tasks may run in
between.
-/

namespace RtpMulticast

open ByteBuffer ByteMemory

/-! ## The functions of the other tasks -/

/-- `SPI_RXQ_LEN`. -/
def spiRxqLen : ℕ := 8

/-- `spi_write` of data, as `BusIo_SPI_SendData` calls it: the result, the engine, and
the allocations and frees. -/
def spiWrite (next : ℕ) (heap : Option Memory) (type : UInt8) (data : Bytes)
    (engine : SpiEngine) : Except Fault (ℤ × SpiEngine × ℕ × List ℕ) :=
  if spiXferMtuBytes < data.length then .ok (-3, engine, 0, [])
  else if data.length = 0 then .ok (-1, engine, 0, [])
  else match heap with
  | none => .ok (-3, engine, 0, [])
  | some stale => do
      let buf := spiBufferAlloc next stale data.length spiHeaderSize
      let block ← copyIn buf.block buf.data data
      match spiBufferPush { buf with block := block, type := type } spiHeaderSize with
      | none => return (-4, engine, 1, [next])
      | some buf =>
          if engine.txq.length < spiTxqLen then
            return (data.length, { engine with txq := engine.txq ++ [buf] }, 1, [])
          else return (-5, engine, 1, [next])

/-- The buffer that `spi_read` takes from the queue of a traffic type. -/
def spiRxqReceive (type : UInt8) (engine : SpiEngine) : Except ℤ (SpiBuffer × SpiEngine) :=
  if spiTrafficTypeMax ≤ type.toNat then .error (-3)
  else match engine.rxq type.toNat with
  | none => .error (-3)
  | some (_, []) => .error (-4)
  | some (size, buf :: rxq) =>
      .ok (buf, { engine with
        rxq := Function.update engine.rxq type.toNat (some (size, rxq)) })

/-- `spi_read` into a buffer of `room` bytes: the result, whether
`SPI_MSG_F_TRUNCATED` is set, and what was copied. -/
def spiReadData (room : ℕ) (buf : SpiBuffer) : Except Fault (ℤ × Bool × Bytes) := do
  let (dataLen, truncated) :=
    if buf.len.toNat ≤ room then (buf.len.toNat, false) else (room, true)
  let data ← copyOut buf.block buf.data dataLen
  return (dataLen, truncated, data)

/-- `spi_bind`; `created` is the answer of `xQueueCreate`. -/
def spiBind (type : UInt8) (rxqSize : ℤ) (created : Bool) (engine : SpiEngine) :
    ℤ × SpiEngine :=
  let rxqSize := if rxqSize ≤ 0 then spiRxqLen else rxqSize.toNat
  if spiTrafficTypeMax ≤ type.toNat then (-2, engine)
  else if (engine.rxq type.toNat).isSome then (-3, engine)
  else if ¬ created then (-4, engine)
  else (0, { engine with
    rxq := Function.update engine.rxq type.toNat (some (rxqSize, [])) })

/-! ## States -/

/-- Where `spi_xfer_engine_task` is.  In `spi_do_xfer` it asks for a buffer, looks at
the ready line, and makes an exchange; `skip` is `SPI_XFER_F_SKIP_FIRST_TXN_WAIT`. -/
inductive SpiPc where
  | waiting
  | polling (skip : Bool)
  | polled (skip : Bool)
  | transferring (waitTxnRdy : Bool)
  | delivering (type : ℕ) (buf : SpiBuffer)
  | acking
  deriving DecidableEq, Repr

/-- What a reader got: the bytes that were copied into its room and whether they were
marked as truncated, or a buffer and with it all of its data. -/
inductive SpiRead where
  | copied (room : ℕ) (data : Bytes) (truncated : Bool)
  | buffer (data : Bytes)
  deriving DecidableEq, Repr

/-- The engine and its surroundings.  `notifying` counts the writers that have not set
`pending` yet, and `edge` is a rising edge of the line whose interrupt has not run.
The last four fields are the history: the messages that were written, that the peer
took, and that it sent in a complete exchange (with whether their type was bound), and
what the readers of each type got. -/
structure SpiBus where
  engine : SpiEngine
  pc : SpiPc
  pending : Bool
  rdy : Bool
  notifying : ℕ
  level : Bool
  edge : Bool
  next : ℕ
  frees : List ℕ
  lent : List SpiBuffer
  written : List SpiMessage
  taken : List SpiMessage
  sent : List (SpiMessage × Bool)
  read : ℕ → List SpiRead

/-- What `spi_transaction_init` leaves behind. -/
def SpiBus.initial (level : Bool) : SpiBus where
  engine := ⟨false, none, [], fun _ => none, {}⟩
  pc := .waiting
  pending := false
  rdy := level
  notifying := 0
  level := level
  edge := false
  next := 0
  frees := []
  lent := []
  written := []
  taken := []
  sent := []
  read := fun _ => []

inductive SpiAction where
  | write (heap : Option Memory) (type : UInt8) (data : Bytes)
  | notify
  | readData (type : UInt8) (room : ℕ)
  | readPtr (type : UInt8)
  | release (i : ℕ)
  | bind (type : UInt8) (rxqSize : ℤ) (created : Bool)
  | raise
  | lower
  | interrupt
  | wake
  | getTxbuf
  | poll
  | exchange (a : SpiAnswers) (takes : Bool)
  | deliver
  | headerAck (acked : Bool)

/-! ## Steps -/

namespace SpiBus

def stepWrite (s : SpiBus) (heap : Option Memory) (type : UInt8) (data : Bytes) :
    Option SpiBus :=
  match spiWrite s.next heap type data s.engine with
  | .error _ => none
  | .ok (ret, engine, allocs, frees) =>
      let s := { s with
        engine := engine
        next := s.next + allocs
        frees := s.frees ++ frees }
      if 0 ≤ ret then
        some { s with
          notifying := s.notifying + 1
          written := s.written ++ [⟨type, data⟩] }
      else some s

/-- The reader copies the data, as far as it has room, and frees the buffer. -/
def stepReadData (s : SpiBus) (type : UInt8) (room : ℕ) : Option SpiBus :=
  if room = 0 then some s
  else match spiRxqReceive type s.engine with
  | .error _ => some s
  | .ok (buf, engine) =>
      match spiReadData room buf with
      | .error _ => none
      | .ok (_, truncated, data) =>
          some { s with
            engine := engine
            frees := s.frees ++ [buf.addr]
            read := Function.update s.read type.toNat
              (s.read type.toNat ++ [.copied room data truncated]) }

/-- The reader takes the buffer itself. -/
def stepReadPtr (s : SpiBus) (type : UInt8) : SpiBus :=
  match spiRxqReceive type s.engine with
  | .error _ => s
  | .ok (buf, engine) =>
      { s with
        engine := engine
        lent := s.lent ++ [buf]
        read := Function.update s.read type.toNat
          (s.read type.toNat ++ [.buffer buf.contents]) }

/-- `BusIo_SPI_Free` of a buffer that was lent. -/
def stepRelease (s : SpiBus) (i : ℕ) : Option SpiBus :=
  match s.lent[i]? with
  | none => none
  | some buf =>
      some { s with
        lent := s.lent.eraseIdx i
        frees := s.frees ++ [buf.addr] }

/-- The state behind an exchange; the wait for `SPI_EVT_TXN_RDY` clears the event. -/
def exchanged (s : SpiBus) (waitTxnRdy : Bool) (a : SpiAnswers) (takes : Bool)
    (r : SpiExchange) : SpiBus :=
  { s with
    engine := r.engine
    pc :=
      match r.received with
      | some (type, buf) => .delivering type buf
      | none => if r.ret = 0 then .acking else .polling false
    rdy := if waitTxnRdy then false else s.rdy
    next := s.next + r.allocs
    frees := s.frees ++ r.frees
    taken := s.taken ++ if takes then (readSpiMessage r.mosi).toList else []
    sent := s.sent ++ if r.ret = 0 then
      a.message.toList.map fun msg => (msg, decide (s.engine.Bound msg.type)) else [] }

/-- An exchange that waits for `SPI_EVT_TXN_RDY` sees what the event is. -/
def stepExchange (s : SpiBus) (a : SpiAnswers) (takes : Bool) : Option SpiBus :=
  match s.pc with
  | .transferring waitTxnRdy =>
      if waitTxnRdy = true ∧ a.txnRdy ≠ s.rdy then none
      else match spiXferOne s.next waitTxnRdy a s.engine with
      | .error _ => none
      | .ok r => some (s.exchanged waitTxnRdy a takes r)
  | _ => none

/-- `xQueueSend` with `portMAX_DELAY` waits for room. -/
def stepDeliver (s : SpiBus) : Option SpiBus :=
  match s.pc with
  | .delivering type buf =>
      match s.engine.rxq type with
      | none => none
      | some (size, rxq) =>
          if rxq.length < size then
            some { s with
              engine := { s.engine with
                rxq := Function.update s.engine.rxq type (some (size, rxq ++ [buf])) }
              pc := .acking }
          else none
  | _ => none

/-- The end of the wait for `SPI_EVT_HDR_ACKED`, or another round of it. -/
def stepHeaderAck (s : SpiBus) (acked : Bool) : Option SpiBus :=
  if s.pc = .acking then
    if acked ∨ s.level = false then some { s with pc := .polling false }
    else
      let stat := s.engine.stat
      some { s with
        engine := { s.engine with
          stat := { stat with waitHdrAckTimeouts := stat.waitHdrAckTimeouts + 1 } } }
  else none

def step (s : SpiBus) : SpiAction → Option SpiBus
  | .write heap type data => s.stepWrite heap type data
  | .notify =>
      if 0 < s.notifying then
        some { s with pending := true, notifying := s.notifying - 1 }
      else none
  | .readData type room => s.stepReadData type room
  | .readPtr type => some (s.stepReadPtr type)
  | .release i => s.stepRelease i
  | .bind type rxqSize created =>
      some { s with engine := (spiBind type rxqSize created s.engine).2 }
  | .raise => if s.level then none else some { s with level := true, edge := true }
  | .lower => some { s with level := false }
  | .interrupt => if s.edge then some { s with edge := false, rdy := true } else none
  | .wake =>
      if s.pc = .waiting ∧ (s.pending = true ∨ s.rdy = true) then
        some { s with pc := .polling s.rdy, pending := false, rdy := false }
      else none
  | .getTxbuf =>
      match s.pc with
      | .polling skip => some { s with engine := spiGetTxbuf s.engine, pc := .polled skip }
      | _ => none
  | .poll =>
      match s.pc with
      | .polled skip =>
          some { s with
            pc :=
              if s.engine.txbuf.isSome ∨ s.level = true then .transferring !skip
              else .waiting }
      | _ => none
  | .exchange a takes => s.stepExchange a takes
  | .deliver => s.stepDeliver
  | .headerAck acked => s.stepHeaderAck acked

end SpiBus

def spiBus : Machine SpiBus SpiAction where
  init s := ∃ level, s = SpiBus.initial level
  step := SpiBus.step

end RtpMulticast
