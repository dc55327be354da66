import RtpMulticast.Spi.Exchange

/-!
# The outcomes of an exchange

An exchange whose transmit buffer holds a message stays inside its blocks, whatever the
peer sends.  It ends before anything is sent, breaks off behind the first transaction,
behind the header or in the second transaction, or is complete.  In a complete exchange
the message of the peer arrives unchanged, however it is split.
-/

namespace RtpMulticast

open ByteBuffer ByteMemory

/-! ## Messages -/

structure SpiMessage where
  type : UInt8
  payload : Bytes
  deriving DecidableEq, Repr

/-- The message in what is sent during an exchange; a length of 0 announces none. -/
def readSpiMessage (wire : Bytes) : Option SpiMessage :=
  match loadSpiHeader wire with
  | .error _ => none
  | .ok h =>
      if spiHeaderValidate h ∧ 0 < h.len.toNat ∧
          spiHeaderSize + h.len.toNat ≤ wire.length then
        some ⟨h.type, (wire.drop spiHeaderSize).take h.len.toNat⟩
      else none

/-- The messages that fit into an exchange. -/
structure SpiMessage.Fits (msg : SpiMessage) : Prop where
  pos : 0 < msg.payload.length
  le_mtu : msg.payload.length ≤ spiXferMtuBytes

/-- The bytes of a header that announces the message. -/
def SpiMessage.header (msg : SpiMessage) : SpiHeader :=
  SpiHeader.init msg.type (UInt16.ofNat msg.payload.length)

section Message

variable {msg : SpiMessage}

theorem SpiMessage.Fits.toNat_len (h : msg.Fits) :
    msg.header.len.toNat = msg.payload.length := by
  have hle := h.le_mtu
  rw [spiXferMtuBytes] at hle
  exact toNat_ofNat16 (by omega)

/-- A message is read as it was written, whatever pads it. -/
theorem readSpiMessage_bytes (h : msg.Fits) (pad : Bytes) :
    readSpiMessage (msg.header.bytes ++ (msg.payload ++ pad)) = some msg := by
  have hlen := h.toNat_len
  have hvalid : spiHeaderValidate msg.header = true :=
    decide_eq_true ⟨rfl, hlen.trans_le h.le_mtu⟩
  have hroom : spiHeaderSize + msg.header.len.toNat ≤
      (msg.header.bytes ++ (msg.payload ++ pad)).length := by
    rw [List.length_append, List.length_append, msg.header.length_bytes, hlen]
    omega
  rw [readSpiMessage, loadSpiHeader_bytes]
  simp only [hvalid, hlen ▸ h.pos, hroom, and_self, if_true]
  rw [← msg.header.length_bytes, List.drop_left, hlen, List.take_left]
  rfl

theorem readSpiMessage_empty : readSpiMessage (SpiHeader.init 0 0).bytes = none := by
  decide

end Message

/-! ## What is sent -/

/-- The buffer holds the message behind the place of its header. -/
structure SpiBuffer.Holds (buf : SpiBuffer) (msg : SpiMessage) : Prop where
  fits : msg.Fits
  data : buf.data = 0
  len : buf.len.toNat = spiHeaderSize + msg.payload.length
  type : buf.type = msg.type
  cap : buf.block.length = spiAlign (spiHeaderSize + msg.payload.length)
  payload : msg.payload <+: buf.block.drop spiHeaderSize

/-- What a buffer for the peer holds. -/
def SpiBuffer.message (buf : SpiBuffer) : SpiMessage where
  type := buf.type
  payload := (buf.block.drop spiHeaderSize).take (buf.len.toNat - spiHeaderSize)

theorem SpiBuffer.Holds.message_eq {buf : SpiBuffer} {msg : SpiMessage}
    (h : buf.Holds msg) : buf.message = msg := by
  obtain ⟨-, -, hlen, htype, -, hpayload⟩ := h
  rw [SpiBuffer.message, htype, hlen, Nat.add_sub_cancel_left,
    ← List.prefix_iff_eq_take.mp hpayload]

/-- The first part of an exchange for a buffer with a message. -/
structure SentFirst (rxStall : Bool) (txbuf : Option SpiBuffer) (msg : Option SpiMessage)
    (txbuf' : Option SpiBuffer) (mosi : Bytes) (xferSize : UInt16) : Prop where
  holds : Option.Rel SpiBuffer.Holds txbuf' msg
  addr : txbuf'.map SpiBuffer.addr = txbuf.map SpiBuffer.addr
  sends : readSpiMessage mosi = if rxStall then none else msg
  header_le : spiHeaderSize ≤ xferSize.toNat
  le_cap : xferSize.toNat ≤ spiXferMtuBytes + spiHeaderSize
  aligned : 4 ∣ xferSize.toNat

theorem spiFirstPart_message {buf : SpiBuffer} {msg : SpiMessage} (h : buf.Holds msg) :
    ∃ txbuf mosi xferSize, spiFirstPart false (some buf) = .ok (txbuf, mosi, xferSize) ∧
      SentFirst false (some buf) (some msg) txbuf mosi xferSize := by
  obtain ⟨hfits, hdata, hlen, htype, hcap, pad, hpad⟩ := h
  have hmtu := hfits.le_mtu
  rw [spiXferMtuBytes] at hmtu
  have halign : spiAlign (spiHeaderSize + msg.payload.length) ≤ 1528 :=
    spiAlign_mono (by rw [spiHeaderSize]; omega : _ ≤ 1528)
  have hle := le_spiAlign (spiHeaderSize + msg.payload.length)
  have hmsglen : buf.len - UInt16.ofNat spiHeaderSize =
      UInt16.ofNat msg.payload.length := by
    have hbuf : buf.len = UInt16.ofNat (msg.payload.length + spiHeaderSize) := by
      rw [← UInt16.toNat_inj, hlen, Nat.add_comm,
        toNat_ofNat16 (by rw [spiHeaderSize]; omega)]
    rw [hbuf, UInt16.ofNat_add, UInt16.add_sub_cancel]
  have hheader : SpiHeader.init buf.type (buf.len - UInt16.ofNat spiHeaderSize) =
      msg.header := by
    rw [hmsglen, htype]
    rfl
  have hblock : buf.block = buf.block.take spiHeaderSize ++ (msg.payload ++ pad) := by
    rw [hpad, List.take_append_drop]
  have hfront : (buf.block.take spiHeaderSize).length = spiHeaderSize :=
    List.length_take_of_le (by omega)
  have hcopy : copyIn buf.block buf.data msg.header.bytes =
      .ok (msg.header.bytes ++ (msg.payload ++ pad)) := by
    rw [hdata, hblock]
    exact copyIn_append [] (buf.block.take spiHeaderSize) (msg.payload ++ pad) _ hfront.symm
  have hsize : (UInt16.ofNat (spiAlign buf.len.toNat)).toNat =
      spiAlign (spiHeaderSize + msg.payload.length) := by
    rw [hlen]
    exact toNat_ofNat16 (by omega)
  have hwhole : (msg.header.bytes ++ (msg.payload ++ pad)).length =
      spiAlign (spiHeaderSize + msg.payload.length) := by
    rw [← hcap, congrArg List.length hblock, List.length_append,
      @List.length_append _ (buf.block.take spiHeaderSize), hfront]
    rfl
  have hout : copyOut (msg.header.bytes ++ (msg.payload ++ pad)) buf.data
      (spiAlign (spiHeaderSize + msg.payload.length)) =
        .ok (msg.header.bytes ++ (msg.payload ++ pad)) := by
    rw [hdata, copyOut_of_le _ _ _ (by omega), List.drop_zero,
      List.take_of_length_le hwhole.le]
  refine ⟨some { buf with block := msg.header.bytes ++ (msg.payload ++ pad) },
    msg.header.bytes ++ (msg.payload ++ pad), UInt16.ofNat (spiAlign buf.len.toNat), ?_, ?_⟩
  · simp only [spiFirstPart, hheader, hcopy, ok_bind, hsize, hout, pure_eq_ok]
    rfl
  · refine ⟨.some ⟨hfits, hdata, hlen, htype, hwhole, pad, rfl⟩, rfl,
      readSpiMessage_bytes hfits pad, ?_, ?_, ?_⟩
    · omega
    · rw [hsize]
      exact halign
    · rw [hsize]
      exact Nat.dvd_mul_left 4 _

theorem spiFirstPart_spec {txbuf : Option SpiBuffer} {msg : Option SpiMessage}
    (h : Option.Rel SpiBuffer.Holds txbuf msg) (rxStall : Bool) :
    ∃ txbuf' mosi xferSize, spiFirstPart rxStall txbuf = .ok (txbuf', mosi, xferSize) ∧
      SentFirst rxStall txbuf msg txbuf' mosi xferSize := by
  have hheader : spiHeaderSize ≤ (UInt16.ofNat spiHeaderSize).toNat ∧
      (UInt16.ofNat spiHeaderSize).toNat ≤ spiXferMtuBytes + spiHeaderSize ∧
        4 ∣ (UInt16.ofNat spiHeaderSize).toNat := by decide
  cases h with
  | none =>
      refine ⟨_, _, _, rfl, .none, rfl, ?_, hheader.1, hheader.2.1, hheader.2.2⟩
      rw [readSpiMessage_empty, ite_self]
  | some hbuf =>
      cases rxStall with
      | false => exact spiFirstPart_message hbuf
      | true =>
          exact ⟨_, _, _, rfl, .some hbuf, rfl, readSpiMessage_empty, hheader.1,
            hheader.2.1, hheader.2.2⟩

/-! ## What is received -/

/-- The data of a buffer. -/
def SpiBuffer.contents (buf : SpiBuffer) : Bytes :=
  (buf.block.drop buf.data).take buf.len.toNat

/-- A received message with its data inside the block. -/
structure SpiBuffer.Carries (buf : SpiBuffer) (payload : Bytes) : Prop where
  pos : 0 < payload.length
  len : buf.len.toNat = payload.length
  contents : buf.contents = payload

/-- The message that the peer sends in an exchange. -/
def SpiAnswers.message (a : SpiAnswers) : Option SpiMessage :=
  readSpiMessage (slice a.miso 0 (spiHeaderSize + spiXferMtuBytes))

/-- The counters that follow the messages. -/
@[ext] structure SpiCounts where
  txPkts : UInt64
  txBytes : UInt64
  rxPkts : UInt64
  rxBytes : UInt64
  rxDrop : UInt64
  deriving DecidableEq, Repr

def SpiStat.counts (stat : SpiStat) : SpiCounts where
  txPkts := stat.txPkts
  txBytes := stat.txBytes
  rxPkts := stat.rxPkts
  rxBytes := stat.rxBytes
  rxDrop := stat.rxDrop

/-- A message of `n` bytes was received, and `drop` of it dropped. -/
def SpiCounts.received (counts : SpiCounts) (n drop : ℕ) : SpiCounts :=
  { counts with
    rxPkts := counts.rxPkts + 1
    rxBytes := counts.rxBytes + .ofNat n
    rxDrop := counts.rxDrop + .ofNat drop }

theorem SpiCounts.received_zero (counts : SpiCounts) (len : UInt16) :
    counts.received len.toNat 0 = { counts with
      rxPkts := counts.rxPkts + 1
      rxBytes := counts.rxBytes + len.toUInt64 } := by
  have hdrop : counts.rxDrop + .ofNat 0 = counts.rxDrop := UInt64.add_zero _
  rw [received, UInt64.ofNat_uInt16ToNat, hdrop]

/-- The ways of the peer's message: `addr` is the block that it was received into, and
`next` the one that it may be moved to. -/
inductive ReceivedOutcome (next addr : ℕ) (engine : SpiEngine) :
    Option SpiMessage → SpiEngine × Option (ℕ × SpiBuffer) × ℕ × List ℕ → Prop
  | nothing : ReceivedOutcome next addr engine none (engine, none, 0, [addr])
  | dropped {msg : SpiMessage} {stat : SpiStat} :
      ¬ engine.Bound msg.type →
      stat.counts = engine.stat.counts.received msg.payload.length 1 →
      ReceivedOutcome next addr engine (some msg)
        ({ engine with stat := stat }, none, 0, [addr])
  | kept {msg : SpiMessage} {stat : SpiStat} {buf : SpiBuffer} :
      engine.Bound msg.type → buf.Carries msg.payload → buf.addr = addr →
      stat.counts = engine.stat.counts.received msg.payload.length 0 →
      ReceivedOutcome next addr engine (some msg)
        ({ engine with stat := stat }, some (msg.type.toNat, buf), 0, [])
  | moved {msg : SpiMessage} {stat : SpiStat} {buf : SpiBuffer} :
      engine.Bound msg.type → buf.Carries msg.payload → buf.addr = next →
      stat.counts = engine.stat.counts.received msg.payload.length 0 →
      ReceivedOutcome next addr engine (some msg)
        ({ engine with stat := stat }, some (msg.type.toNat, buf), 1, [addr])

theorem ReceivedOutcome.engine_eq {next addr : ℕ} {engine : SpiEngine}
    {msg : Option SpiMessage} {r : SpiEngine × Option (ℕ × SpiBuffer) × ℕ × List ℕ}
    (h : ReceivedOutcome next addr engine msg r) :
    r.1 = { engine with stat := r.1.stat } := by
  cases h <;> rfl

section Receive

variable {a : SpiAnswers} {psh : SpiHeader}

theorem message_of_header (hload : loadSpiHeader (slice a.miso 0 spiHeaderSize) = .ok psh)
    (hvalid : spiHeaderValidate psh = true) :
    a.message = if 0 < psh.len.toNat then
      some ⟨psh.type, slice a.miso spiHeaderSize psh.len.toNat⟩ else none := by
  have hlen : psh.len.toNat ≤ spiXferMtuBytes := (of_decide_eq_true hvalid).2
  have hrest : spiXferMtuBytes = psh.len.toNat + (spiXferMtuBytes - psh.len.toNat) := by
    omega
  have hfront : (slice a.miso 0 spiHeaderSize).length = spiHeaderSize := length_slice _ _ _
  have hdata : (slice a.miso (0 + spiHeaderSize) psh.len.toNat).length = psh.len.toNat :=
    length_slice _ _ _
  rw [SpiAnswers.message, slice_add, readSpiMessage, loadSpiHeader_append hfront.ge, hload]
  simp only [hvalid, true_and, List.length_append, length_slice,
    Nat.add_le_add_iff_left, hlen, and_true]
  rw [List.drop_left' hfront, hrest, slice_add, List.take_left' hdata, Nat.zero_add]

/-- The buffer behind both transactions: as much as the header announces is there. -/
structure FilledRx (miso : Memory) (rxbuf : SpiBuffer) (len : UInt16) : Prop where
  data : rxbuf.data = 0
  cap : rxbuf.block.length = spiHeaderSize + spiXferMtuBytes
  received : slice miso 0 (spiHeaderSize + len.toNat) <+: rxbuf.block

theorem FilledRx.payload {miso : Memory} {rxbuf : SpiBuffer} {len : UInt16}
    (h : FilledRx miso rxbuf len) :
    (rxbuf.block.drop spiHeaderSize).take len.toNat = slice miso spiHeaderSize len.toNat := by
  obtain ⟨rest, hrest⟩ := h.received
  have hfront : (slice miso 0 spiHeaderSize).length = spiHeaderSize := length_slice _ _ _
  have hdata : (slice miso (0 + spiHeaderSize) len.toNat).length = len.toNat :=
    length_slice _ _ _
  rw [← hrest, slice_add, List.append_assoc, List.drop_left' hfront, List.take_left' hdata,
    Nat.zero_add]

theorem spiResize_spec (addr : ℕ) (resized : Option Memory) {rxbuf : SpiBuffer}
    {len : UInt16} (stat : SpiStat) (hlen : rxbuf.len = len)
    (hroom : rxbuf.data + len.toNat ≤ rxbuf.block.length) :
    ∃ buf stat' allocs frees,
      spiResize addr resized rxbuf len stat = .ok (buf, stat', allocs, frees) ∧
        buf.contents = rxbuf.contents ∧ buf.len = rxbuf.len ∧ stat'.counts = stat.counts ∧
        (buf.addr = rxbuf.addr ∧ allocs = 0 ∧ frees = [] ∨
          buf.addr = addr ∧ allocs = 1 ∧ frees = [rxbuf.addr]) := by
  by_cases hshort : len.toNat < 256
  · cases resized with
    | none =>
        refine ⟨rxbuf, { stat with memErr := stat.memErr + 1 }, 0, [], ?_, rfl, rfl, rfl,
          Or.inl ⟨rfl, rfl, rfl⟩⟩
        rw [spiResize, if_pos hshort]
    | some stale =>
        have hdata : rxbuf.contents.length = len.toNat := by
          rw [SpiBuffer.contents, hlen, List.length_take, List.length_drop]
          omega
        obtain ⟨block, hcopy, -, hprefix⟩ := spiBufferAlloc_fill addr stale rxbuf.contents 0
        rw [hdata] at hcopy
        refine ⟨{ spiBufferAlloc addr stale len.toNat 0 with block := block }, stat, 1,
          [rxbuf.addr], ?_, ?_, ?_, rfl, Or.inr ⟨rfl, rfl, rfl⟩⟩
        · have hout : copyOut rxbuf.block rxbuf.data len.toNat = .ok rxbuf.contents := by
            rw [copyOut_of_le _ _ _ hroom, SpiBuffer.contents, hlen]
          have hstart : (spiBufferAlloc addr stale len.toNat 0).data = 0 := rfl
          rw [spiResize, if_pos hshort, hout, ok_bind, hstart, hcopy]
          rfl
        · have hofNat : (UInt16.ofNat len.toNat).toNat = rxbuf.contents.length := by
            rw [UInt16.ofNat_toNat, hdata]
          have htake : (block.drop 0).take (UInt16.ofNat len.toNat).toNat =
              rxbuf.contents := by
            rw [hofNat]
            exact (List.prefix_iff_eq_take.mp hprefix).symm
          exact htake
        · exact (UInt16.ofNat_toNat).trans hlen.symm
  · refine ⟨rxbuf, stat, 0, [], ?_, rfl, rfl, rfl, Or.inl ⟨rfl, rfl, rfl⟩⟩
    rw [spiResize.eq_def, if_neg hshort]

/-- The message of the peer reaches the queue of its type unchanged, or is counted as
dropped. -/
theorem spiReceived_spec (next : ℕ) (resized : Option Memory) (engine : SpiEngine)
    {rxbuf : SpiBuffer} (hload : loadSpiHeader (slice a.miso 0 spiHeaderSize) = .ok psh)
    (hvalid : spiHeaderValidate psh = true) (hfill : FilledRx a.miso rxbuf psh.len) :
    ∃ r, spiReceived next resized psh rxbuf engine = .ok r ∧
      ReceivedOutcome next rxbuf.addr engine a.message r := by
  rw [message_of_header hload hvalid]
  by_cases hpos : 0 < psh.len.toNat
  · have hlen : psh.len.toNat ≤ spiXferMtuBytes := (of_decide_eq_true hvalid).2
    have hcap : ¬ rxbuf.block.length < rxbuf.data + spiHeaderSize := by
      rw [hfill.cap, hfill.data]
      omega
    have hpull : ∃ len, spiBufferPull rxbuf spiHeaderSize =
        some { rxbuf with data := spiHeaderSize, len := len } := by
      rw [spiBufferPull, if_neg (by decide), if_neg hcap, hfill.data, Nat.zero_add]
      exact ⟨_, rfl⟩
    obtain ⟨len, hpull⟩ := hpull
    have hcount : (slice a.miso spiHeaderSize psh.len.toNat).length = psh.len.toNat :=
      length_slice _ _ _
    rw [if_pos hpos]
    simp only [spiReceived, if_pos hpos, hpull, Option.getD_some]
    by_cases hbound : engine.Bound psh.type
    · have hroom : spiHeaderSize + psh.len.toNat ≤ rxbuf.block.length := by
        rw [hfill.cap]
        exact Nat.add_le_add_left hlen _
      obtain ⟨buf, stat, allocs, frees, hresize, hcontents, hbuflen, hstat, hcases⟩ :=
        @spiResize_spec next resized
          { rxbuf with data := spiHeaderSize, len := psh.len, type := psh.type } psh.len
          { engine.stat with
            rxPkts := engine.stat.rxPkts + 1
            rxBytes := engine.stat.rxBytes + psh.len.toUInt64 } rfl hroom
      have hdata : buf.Carries (slice a.miso spiHeaderSize psh.len.toNat) := by
        refine ⟨hpos.trans_eq hcount.symm, ?_, hcontents.trans hfill.payload⟩
        rw [hbuflen, hcount]
      have hcounts : stat.counts = engine.stat.counts.received
          (slice a.miso spiHeaderSize psh.len.toNat).length 0 := by
        rw [hstat, hcount, SpiCounts.received_zero]
        rfl
      rw [if_pos hbound, hresize]
      refine ⟨_, rfl, ?_⟩
      rcases hcases with ⟨haddr, rfl, rfl⟩ | ⟨haddr, rfl, rfl⟩
      · exact .kept hbound hdata haddr hcounts
      · exact .moved hbound hdata haddr hcounts
    · rw [if_neg hbound]
      refine ⟨_, rfl, .dropped hbound ?_⟩
      rw [hcount, SpiCounts.received, UInt64.ofNat_uInt16ToNat]
      rfl
  · rw [if_neg hpos]
    refine ⟨_, ?_, .nothing⟩
    rw [spiReceived, if_neg hpos]

end Receive

/-! ## The whole exchange -/

theorem counts_spiTransaction (a : SpiPortAnswer) (len : ℕ) (stat : SpiStat) :
    (spiTransaction a len stat).2.counts = stat.counts := by
  unfold spiTransaction
  split_ifs <;> rfl

/-- How an exchange of an engine ends whose transmit buffer is `slot`: before anything
is sent, broken off, or complete. -/
inductive SpiOutcome (next : ℕ) (a : SpiAnswers) (engine : SpiEngine)
    (slot : Option SpiMessage) : SpiExchange → Prop
  | early {stat : SpiStat} :
      stat.counts = engine.stat.counts →
      SpiOutcome next a engine slot ⟨{ engine with stat := stat }, -1, [], none, none, 0, []⟩
  | broken {txbuf : Option SpiBuffer} {mosi : Bytes} {xferSize : UInt16}
      {header : Option SpiHeader} {rxStall : Bool} {stat : SpiStat} :
      SentFirst engine.rxStall engine.txbuf slot txbuf mosi xferSize →
      stat.counts = engine.stat.counts →
      SpiOutcome next a engine slot
        ⟨{ engine with txbuf := txbuf, rxStall := rxStall, stat := stat }, -1, mosi, header,
          none, 1, [next]⟩
  | complete {txbuf : Option SpiBuffer} {mosi : Bytes} {xferSize : UInt16}
      {psh : SpiHeader} {taken : Bool} {stat : SpiStat}
      {r : SpiEngine × Option (ℕ × SpiBuffer) × ℕ × List ℕ} :
      SentFirst engine.rxStall engine.txbuf slot txbuf mosi xferSize →
      taken = (!psh.stalled && !engine.rxStall) →
      stat.counts = engine.stat.counts →
      ReceivedOutcome (next + 1) next
        { engine with
          txbuf := if taken then none else txbuf
          rxStall := psh.stalled
          stat := stat } a.message r →
      SpiOutcome next a engine slot
        ⟨r.1, 0, mosi, some psh, r.2.1, 1 + r.2.2.1,
          (if taken then engine.txbuf.toList.map SpiBuffer.addr else []) ++ r.2.2.2⟩

section Exchange

variable {next : ℕ} {a : SpiAnswers} {engine : SpiEngine} {slot : Option SpiMessage}

/-- The buffer behind the first transaction. -/
structure FilledFirst (miso : Memory) (rxbuf : SpiBuffer) (xferSize : UInt16) : Prop where
  data : rxbuf.data = 0
  header_le : spiHeaderSize ≤ xferSize.toNat
  le_cap : xferSize.toNat ≤ spiXferMtuBytes + spiHeaderSize
  aligned : 4 ∣ xferSize.toNat
  cap : rxbuf.block.length = spiHeaderSize + spiXferMtuBytes
  received : slice miso 0 xferSize.toNat <+: rxbuf.block

theorem spiFetchRest_spec {psh : SpiHeader} {xferSize : UInt16} {rxbuf : SpiBuffer}
    (stat : SpiStat) (hlen : psh.len.toNat ≤ spiXferMtuBytes)
    (h : FilledFirst a.miso rxbuf xferSize) :
    ∃ ret stat' rxbuf', spiFetchRest a psh xferSize rxbuf stat = .ok (ret, stat', rxbuf') ∧
      stat'.counts = stat.counts ∧ rxbuf'.addr = rxbuf.addr ∧
      (ret = 0 → FilledRx a.miso rxbuf' psh.len) := by
  obtain ⟨hdata, hheader, hle, haligned, hcap, hreceived⟩ := h
  rw [spiXferMtuBytes, spiHeaderSize] at hle
  rw [spiXferMtuBytes, spiHeaderSize] at hcap
  rw [spiXferMtuBytes] at hlen
  rw [spiFetchRest]
  by_cases hmore : xferSize.toNat < psh.len.toNat + spiHeaderSize
  · rw [if_pos hmore]
    rw [spiHeaderSize] at hmore ⊢
    dsimp only
    generalize hremain : UInt16.ofNat (spiAlign (UInt16.ofNat
      (psh.len.toNat + 8 - xferSize.toNat)).toNat) = remain
    have hrest : remain.toNat = spiAlign (psh.len.toNat + 8 - xferSize.toNat) := by
      have hlt := spiAlign_lt (psh.len.toNat + 8 - xferSize.toNat)
      rw [← hremain, toNat_ofNat16 (n := psh.len.toNat + 8 - xferSize.toNat) (by omega),
        toNat_ofNat16 (by omega)]
    -- The first transaction ends at a word, and so does the buffer.
    have hfit : xferSize.toNat + remain.toNat ≤ 1528 := by
      rw [hrest, spiAlign]
      omega
    have hall : 8 + psh.len.toNat ≤ xferSize.toNat + remain.toNat := by
      have hle := le_spiAlign (psh.len.toNat + 8 - xferSize.toNat)
      omega
    have hcounts := counts_spiTransaction a.second remain.toNat stat
    rcases hsecond : spiTransaction a.second remain.toNat stat with ⟨ret, stat'⟩
    rw [hsecond] at hcounts
    by_cases hret : ret = 0
    · have hfirst : rxbuf.block.take xferSize.toNat = slice a.miso 0 xferSize.toNat := by
        rw [List.prefix_iff_eq_take.mp hreceived, length_slice]
      have hsplit : rxbuf.block =
          slice a.miso 0 xferSize.toNat ++ rxbuf.block.drop xferSize.toNat := by
        rw [← hfirst, List.take_append_drop]
      have hroom : (slice a.miso xferSize.toNat remain.toNat).length ≤
          (rxbuf.block.drop xferSize.toNat).length := by
        rw [length_slice, List.length_drop]
        omega
      have hcopy := copyIn_tail (slice a.miso 0 xferSize.toNat) _ _ hroom
      rw [← hsplit, length_slice] at hcopy
      rw [if_neg (not_not_intro hret), hdata, Nat.zero_add, hcopy]
      refine ⟨_, _, _, rfl, hcounts, rfl, fun _ => ⟨rfl, ?_, ?_⟩⟩
      · exact (length_of_copyIn hcopy).trans hcap
      · have hjoin := slice_add a.miso 0 xferSize.toNat remain.toNat
        rw [Nat.zero_add] at hjoin
        dsimp only
        rw [← hjoin]
        exact (slice_prefix_slice _ _ hall).trans (List.prefix_append _ _)
    · rw [if_pos hret]
      exact ⟨ret, stat', rxbuf, rfl, hcounts, rfl, fun h => absurd h hret⟩
  · rw [spiHeaderSize] at hmore
    have hall : 8 + psh.len.toNat ≤ xferSize.toNat := by omega
    refine ⟨0, stat, rxbuf, if_neg hmore, rfl, rfl, fun _ => ⟨hdata, hcap, ?_⟩⟩
    exact (slice_prefix_slice _ _ hall).trans hreceived

theorem spiSecondPart_outcome {engine' : SpiEngine} {txbuf : Option SpiBuffer}
    {psh : SpiHeader} {mosi : Bytes} {xferSize : UInt16} {rxbuf : SpiBuffer}
    {stat : SpiStat} (hsent : SentFirst engine.rxStall engine.txbuf slot txbuf mosi xferSize)
    (hengine : engine' = { engine with txbuf := txbuf, stat := stat })
    (hstat : stat.counts = engine.stat.counts) (haddr : rxbuf.addr = next)
    (hload : loadSpiHeader (slice a.miso 0 spiHeaderSize) = .ok psh)
    (hvalid : spiHeaderValidate psh = true) (hfill : FilledFirst a.miso rxbuf xferSize) :
    ∃ r, spiSecondPart (next + 1) a psh mosi xferSize rxbuf engine' = .ok r ∧
      SpiOutcome next a engine slot r := by
  subst hengine haddr
  have hlen : psh.len.toNat ≤ spiXferMtuBytes := (of_decide_eq_true hvalid).2
  rw [spiSecondPart]
  dsimp only
  have hstall : (if (!engine.rxStall && psh.stalled) = true then
      { stat with rxStall := stat.rxStall + 1 } else stat).counts = engine.stat.counts := by
    rw [← hstat]
    split_ifs <;> rfl
  obtain ⟨ret, stat', rxbuf', hfetch, hcounts, haddr, hfull⟩ :=
    spiFetchRest_spec _ hlen hfill
  rw [hfetch, ok_bind]
  dsimp only
  by_cases hret : ret = 0
  · have htaken : (!psh.stalled && !(engine.rxStall && !psh.stalled)) =
        (!psh.stalled && !engine.rxStall) := by
      cases psh.stalled <;> cases engine.rxStall <;> rfl
    have haddrs : txbuf.toList.map SpiBuffer.addr =
        engine.txbuf.toList.map SpiBuffer.addr := by
      rw [← Option.toList_map, hsent.addr, Option.toList_map]
    rw [if_neg (not_not_intro hret), htaken, haddrs]
    generalize htook : (!psh.stalled && !engine.rxStall) = taken
    obtain ⟨r, hreceived, houtcome⟩ := spiReceived_spec (rxbuf.addr + 1) a.resized
      { engine with
        txbuf := if taken then none else txbuf
        rxStall := psh.stalled
        stat := stat' } hload hvalid (hfull hret)
    rw [haddr] at houtcome
    refine ⟨_, ?_, .complete hsent htook.symm (hcounts.trans hstall) houtcome⟩
    cases taken
    · exact (congrArg (· >>= _) hreceived).trans rfl
    · exact (congrArg (· >>= _) hreceived).trans rfl
  · rw [if_pos hret, haddr]
    exact ⟨_, rfl, .broken hsent (hcounts.trans hstall)⟩

/-- No exchange leaves its blocks. -/
theorem spiXferOne_outcome (next : ℕ) (waitTxnRdy : Bool) (a : SpiAnswers)
    (hslot : Option.Rel SpiBuffer.Holds engine.txbuf slot) :
    ∃ r, spiXferOne next waitTxnRdy a engine = .ok r ∧ SpiOutcome next a engine slot r := by
  obtain ⟨txbuf, mosi, xferSize, hfirst, hsent⟩ := spiFirstPart_spec hslot engine.rxStall
  unfold spiXferOne
  by_cases hrdy : (waitTxnRdy && !a.txnRdy) = true
  · rw [if_pos hrdy]
    exact ⟨_, rfl, .early rfl⟩
  · rw [if_neg hrdy]
    cases hheap : a.heap with
    | none => exact ⟨_, rfl, .early rfl⟩
    | some stale =>
        simp only [hfirst, ok_bind]
        have hcounts := counts_spiTransaction a.first xferSize.toNat engine.stat
        rcases hfirst : spiTransaction a.first xferSize.toNat engine.stat with ⟨ret, stat⟩
        rw [hfirst] at hcounts
        by_cases hret : ret = 0
        · rw [if_neg (not_not_intro hret)]
          have hcap := length_spiBufferAlloc next stale (spiXferMtuBytes + spiHeaderSize) 0
          have hroom : (slice a.miso 0 xferSize.toNat).length ≤ (spiBufferAlloc next stale
              (spiXferMtuBytes + spiHeaderSize) 0).block.length := by
            rw [hcap, length_slice]
            exact hsent.le_cap.trans (le_spiAlign _)
          have hcopy := copyIn_tail [] _ _ hroom
          rw [List.nil_append, List.nil_append, List.length_nil] at hcopy
          have hheader : spiHeaderSize ≤ (slice a.miso 0 xferSize.toNat).length :=
            hsent.header_le.trans_eq (length_slice _ _ _).symm
          have hshort : (slice a.miso 0 spiHeaderSize).length = spiHeaderSize :=
            length_slice _ _ _
          obtain ⟨psh, hload⟩ := exists_loadSpiHeader hshort.ge
          have hfront := slice_prefix_slice a.miso 0 hsent.header_le
          obtain ⟨more, hmore⟩ := hfront
          generalize hblock : slice a.miso 0 xferSize.toNat ++ _ = block at hcopy
          have hwhole : loadSpiHeader block = .ok psh := by
            rw [← hblock, loadSpiHeader_append hheader, ← hmore,
              loadSpiHeader_append hshort.ge, hload]
          have hstart : (spiBufferAlloc next stale (spiXferMtuBytes + spiHeaderSize) 0).data =
            0 := rfl
          rw [hstart, hcopy, ok_bind, List.drop_zero, hwhole, ok_bind]
          by_cases hvalid : spiHeaderValidate psh = true
          · rw [if_pos hvalid]
            refine spiSecondPart_outcome hsent rfl hcounts rfl hload hvalid
              ⟨rfl, hsent.header_le, hsent.le_cap, hsent.aligned,
                (length_of_copyIn hcopy).trans hcap, ?_⟩
            rw [← hblock]
            exact List.prefix_append _ _
          · rw [if_neg hvalid]
            exact ⟨_, rfl, .broken hsent hcounts⟩
        · rw [if_pos hret]
          exact ⟨_, rfl, .broken hsent hcounts⟩

end Exchange

end RtpMulticast
