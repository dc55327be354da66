import RtpMulticast.Spi.Bus

/-!
# The steps of the SPI bus

Every buffer for the peer holds a message with room for its header in front, and every
received one has its data inside its block.  Under this invariant no step leaves a
block, and `SpiEffect` lists what each of them does.
-/

namespace RtpMulticast

open ByteBuffer ByteMemory

/-! ## The functions of the other tasks -/

section Functions

variable {next : ℕ} {heap : Option Memory} {type : UInt8} {data : Bytes}
  {engine : SpiEngine}

/-- A write is refused, finds the queue full, or puts the message into the queue. -/
inductive WriteOutcome (next : ℕ) (type : UInt8) (data : Bytes) (engine : SpiEngine) :
    ℤ × SpiEngine × ℕ × List ℕ → Prop
  | refused {ret : ℤ} : ret < 0 → WriteOutcome next type data engine (ret, engine, 0, [])
  | full : WriteOutcome next type data engine (-5, engine, 1, [next])
  | queued {buf : SpiBuffer} :
      engine.txq.length < spiTxqLen → buf.Holds ⟨type, data⟩ → buf.addr = next →
      WriteOutcome next type data engine
        (data.length, { engine with txq := engine.txq ++ [buf] }, 1, [])

theorem spiWrite_outcome (next : ℕ) (heap : Option Memory) (type : UInt8) (data : Bytes)
    (engine : SpiEngine) :
    ∃ r, spiWrite next heap type data engine = .ok r ∧
      WriteOutcome next type data engine r := by
  rw [spiWrite.eq_def]
  by_cases hlong : spiXferMtuBytes < data.length
  · rw [if_pos hlong]
    exact ⟨_, rfl, .refused (by decide)⟩
  · by_cases hempty : data.length = 0
    · rw [if_neg hlong, if_pos hempty]
      exact ⟨_, rfl, .refused (by decide)⟩
    · rw [if_neg hlong, if_neg hempty]
      cases heap with
      | none => exact ⟨_, rfl, .refused (by decide)⟩
      | some stale =>
          obtain ⟨block, hcopy, hcap, hprefix⟩ :=
            spiBufferAlloc_fill next stale data spiHeaderSize
          have hdata : (spiBufferAlloc next stale data.length spiHeaderSize).data =
            spiHeaderSize := rfl
          have hfits : SpiMessage.Fits ⟨type, data⟩ :=
            ⟨Nat.pos_of_ne_zero hempty, Nat.not_lt.mp hlong⟩
          have hlen : (UInt16.ofNat data.length + UInt16.ofNat spiHeaderSize).toNat =
              spiHeaderSize + data.length := by
            rw [spiXferMtuBytes] at hlong
            rw [← UInt16.ofNat_add, Nat.add_comm,
              toNat_ofNat16 (by rw [spiHeaderSize]; omega)]
          dsimp only
          rw [hdata, hcopy, ok_bind, spiBufferPush, if_neg (by decide),
            if_neg (Nat.lt_irrefl _)]
          by_cases hroom : engine.txq.length < spiTxqLen
          · dsimp only
            rw [if_pos hroom]
            refine ⟨_, rfl, .queued hroom ⟨hfits, rfl, hlen, rfl, ?_, hprefix⟩ rfl⟩
            rw [hcap, Nat.add_comm]
          · dsimp only
            rw [if_neg hroom]
            exact ⟨_, rfl, .full⟩

theorem spiRxqReceive_ok {buf : SpiBuffer} {engine' : SpiEngine}
    (h : spiRxqReceive type engine = .ok (buf, engine')) :
    ∃ size rxq, engine.rxq type.toNat = some (size, buf :: rxq) ∧
      engine' = { engine with
        rxq := Function.update engine.rxq type.toNat (some (size, rxq)) } := by
  rw [spiRxqReceive] at h
  split at h
  · cases h
  · split at h
    · cases h
    · cases h
    · next size buf rxq hrxq =>
        cases h
        exact ⟨size, rxq, hrxq, rfl⟩

/-- A message longer than the buffer of the reader is cut off. -/
theorem spiReadData_ok {room : ℕ} {buf : SpiBuffer} {payload : Bytes}
    (h : buf.Carries payload) :
    spiReadData room buf = .ok
      ((payload.take room).length, decide (room < payload.length), payload.take room) := by
  obtain ⟨hpos, hlen, hcontents⟩ := h
  have hlength := congrArg List.length hcontents
  rw [SpiBuffer.contents, List.length_take, List.length_drop] at hlength
  have hmin : (if buf.len.toNat ≤ room then (buf.len.toNat, false) else (room, true)) =
      (min room buf.len.toNat, decide (room < payload.length)) := by
    rw [← hlen]
    split_ifs with hfits
    · rw [Nat.min_eq_right hfits, decide_eq_false (Nat.not_lt.mpr hfits)]
    · rw [Nat.not_le] at hfits
      rw [Nat.min_eq_left hfits.le, decide_eq_true hfits]
  have htake : (buf.block.drop buf.data).take (min room buf.len.toNat) =
      payload.take room := by
    rw [← hcontents, SpiBuffer.contents, List.take_take]
  have hcount : (payload.take room).length = min room buf.len.toNat := by
    rw [List.length_take, hlen]
  rw [spiReadData]
  simp only [hmin]
  rw [copyOut_of_le _ _ _ (by omega), ok_bind, htake, hcount]
  rfl

/-- The queue is created when the type has none. -/
theorem spiBind_cases (type : UInt8) (rxqSize : ℤ) (created : Bool) (engine : SpiEngine) :
    (spiBind type rxqSize created engine).2 = engine ∨
      ∃ size, 0 < size ∧ type.toNat < spiTrafficTypeMax ∧ engine.rxq type.toNat = none ∧
        (spiBind type rxqSize created engine).2 =
          { engine with rxq := Function.update engine.rxq type.toNat (some (size, [])) } := by
  rw [spiBind]
  by_cases htype : spiTrafficTypeMax ≤ type.toNat
  · rw [if_pos htype]
    exact Or.inl rfl
  · rw [if_neg htype]
    cases hrxq : engine.rxq type.toNat with
    | some q => exact Or.inl rfl
    | none =>
        cases created with
        | false => exact Or.inl rfl
        | true =>
            refine Or.inr ⟨_, ?_, Nat.not_le.mp htype, rfl, rfl⟩
            split_ifs with hsize
            · decide
            · omega

theorem spiGetTxbuf_cases (engine : SpiEngine) :
    (spiGetTxbuf engine = engine ∧ (engine.txbuf = none → engine.txq = [])) ∨
      ∃ buf txq, engine.txbuf = none ∧ engine.txq = buf :: txq ∧
        spiGetTxbuf engine = { engine with
          txbuf := some buf
          txq := txq
          stat := { engine.stat with
            txPkts := engine.stat.txPkts + 1
            txBytes := engine.stat.txBytes + buf.len.toUInt64 } } := by
  rcases engine with ⟨rxStall, _ | txbuf, _ | ⟨buf, txq⟩, rxq, stat⟩
  · exact Or.inl ⟨rfl, fun _ => rfl⟩
  · exact Or.inr ⟨buf, txq, rfl, rfl, rfl⟩
  · exact Or.inl ⟨rfl, by rintro ⟨⟩⟩
  · exact Or.inl ⟨rfl, by rintro ⟨⟩⟩

end Functions

/-! ## The invariant -/

namespace SpiBus

/-- The buffers of the bus are well formed. -/
structure Ready (s : SpiBus) : Prop where
  txbuf : ∀ buf ∈ s.engine.txbuf, buf.Holds buf.message
  txq : ∀ buf ∈ s.engine.txq, buf.Holds buf.message
  rxq : ∀ type size rxq, s.engine.rxq type = some (size, rxq) →
    ∀ buf ∈ rxq, buf.Carries buf.contents
  delivering : ∀ type buf, s.pc = .delivering type buf →
    type < spiTrafficTypeMax ∧ (s.engine.rxq type).isSome ∧ buf.Carries buf.contents
  bound : ∀ type, (s.engine.rxq type).isSome → type < spiTrafficTypeMax

/-- The message that the transmit buffer holds. -/
def slot (s : SpiBus) : Option SpiMessage := s.engine.txbuf.map SpiBuffer.message

theorem Ready.rel_slot {s : SpiBus} (h : s.Ready) :
    Option.Rel SpiBuffer.Holds s.engine.txbuf s.slot := by
  rw [slot]
  cases htxbuf : s.engine.txbuf with
  | none => exact .none
  | some buf => exact .some (h.txbuf buf htxbuf)

/-- What a step does. -/
inductive Effect (s : SpiBus) : SpiAction → SpiBus → Prop
  | same (act : SpiAction) : Effect s act s
  | writeFull (heap : Option Memory) (type : UInt8) (data : Bytes) :
      Effect s (.write heap type data)
        { s with next := s.next + 1, frees := s.frees ++ [s.next] }
  | writeQueued (heap : Option Memory) (type : UInt8) (data : Bytes) {buf : SpiBuffer} :
      s.engine.txq.length < spiTxqLen → buf.Holds ⟨type, data⟩ → buf.addr = s.next →
      Effect s (.write heap type data)
        { s with
          engine := { s.engine with txq := s.engine.txq ++ [buf] }
          next := s.next + 1
          notifying := s.notifying + 1
          written := s.written ++ [⟨type, data⟩] }
  | notify :
      0 < s.notifying →
      Effect s .notify { s with pending := true, notifying := s.notifying - 1 }
  | readData (type : UInt8) (room : ℕ) {size : ℕ} {buf : SpiBuffer} {rxq : List SpiBuffer}
      {ret : ℤ} {truncated : Bool} {data : Bytes} :
      s.engine.rxq type.toNat = some (size, buf :: rxq) →
      spiReadData room buf = .ok (ret, truncated, data) →
      Effect s (.readData type room)
        { s with
          engine := { s.engine with
            rxq := Function.update s.engine.rxq type.toNat (some (size, rxq)) }
          frees := s.frees ++ [buf.addr]
          read := Function.update s.read type.toNat
            (s.read type.toNat ++ [.copied room data truncated]) }
  | readPtr (type : UInt8) {size : ℕ} {buf : SpiBuffer} {rxq : List SpiBuffer} :
      s.engine.rxq type.toNat = some (size, buf :: rxq) →
      Effect s (.readPtr type)
        { s with
          engine := { s.engine with
            rxq := Function.update s.engine.rxq type.toNat (some (size, rxq)) }
          lent := s.lent ++ [buf]
          read := Function.update s.read type.toNat
            (s.read type.toNat ++ [.buffer buf.contents]) }
  | release (i : ℕ) {buf : SpiBuffer} :
      s.lent[i]? = some buf →
      Effect s (.release i)
        { s with lent := s.lent.eraseIdx i, frees := s.frees ++ [buf.addr] }
  | bind (type : UInt8) (rxqSize : ℤ) (created : Bool) {size : ℕ} :
      0 < size → type.toNat < spiTrafficTypeMax → s.engine.rxq type.toNat = none →
      Effect s (.bind type rxqSize created)
        { s with engine := { s.engine with
            rxq := Function.update s.engine.rxq type.toNat (some (size, [])) } }
  | raise : Effect s .raise { s with level := true, edge := true }
  | lower : Effect s .lower { s with level := false }
  | interrupt : s.edge = true → Effect s .interrupt { s with edge := false, rdy := true }
  | wake :
      s.pc = .waiting → s.pending = true ∨ s.rdy = true →
      Effect s .wake { s with pc := .polling s.rdy, pending := false, rdy := false }
  | noTxbuf {skip : Bool} :
      s.pc = .polling skip → (s.engine.txbuf = none → s.engine.txq = []) →
      Effect s .getTxbuf { s with pc := .polled skip }
  | load {skip : Bool} {buf : SpiBuffer} {txq : List SpiBuffer} :
      s.pc = .polling skip → s.engine.txbuf = none → s.engine.txq = buf :: txq →
      Effect s .getTxbuf
        { s with
          engine := { s.engine with
            txbuf := some buf
            txq := txq
            stat := { s.engine.stat with
              txPkts := s.engine.stat.txPkts + 1
              txBytes := s.engine.stat.txBytes + buf.len.toUInt64 } }
          pc := .polled skip }
  | transfer {skip : Bool} :
      s.pc = .polled skip → Effect s .poll { s with pc := .transferring !skip }
  | sleep {skip : Bool} :
      s.pc = .polled skip → s.engine.txbuf = none → s.level = false →
      Effect s .poll { s with pc := .waiting }
  | exchange {waitTxnRdy : Bool} {a : SpiAnswers} (takes : Bool) {r : SpiExchange} :
      s.pc = .transferring waitTxnRdy → spiXferOne s.next waitTxnRdy a s.engine = .ok r →
      SpiOutcome s.next a s.engine s.slot r →
      Effect s (.exchange a takes) (s.exchanged waitTxnRdy a takes r)
  | deliver {type size : ℕ} {buf : SpiBuffer} {rxq : List SpiBuffer} :
      s.pc = .delivering type buf → s.engine.rxq type = some (size, rxq) →
      rxq.length < size →
      Effect s .deliver
        { s with
          engine := { s.engine with
            rxq := Function.update s.engine.rxq type (some (size, rxq ++ [buf])) }
          pc := .acking }
  | headerAck (acked : Bool) :
      s.pc = .acking → Effect s (.headerAck acked) { s with pc := .polling false }
  | ackTimeout (acked : Bool) :
      s.pc = .acking →
      Effect s (.headerAck acked)
        { s with engine := { s.engine with
            stat := { s.engine.stat with
              waitHdrAckTimeouts := s.engine.stat.waitHdrAckTimeouts + 1 } } }

section Step

variable {s s' : SpiBus}

theorem effect_write {heap : Option Memory} {type : UInt8} {data : Bytes}
    (h : s.stepWrite heap type data = some s') : Effect s (.write heap type data) s' := by
  obtain ⟨r, hwrite, houtcome⟩ := spiWrite_outcome s.next heap type data s.engine
  rw [stepWrite, hwrite] at h
  cases houtcome with
  | refused hneg =>
      have hs : s' = s := by
        dsimp only at h
        rw [if_neg (Int.not_le.mpr hneg), List.append_nil] at h
        exact (Option.some.inj h).symm
      rw [hs]
      exact .same _
  | full =>
      dsimp only at h
      rw [if_neg (by decide)] at h
      obtain rfl := Option.some.inj h
      exact .writeFull heap type data
  | queued hroom hholds haddr =>
      dsimp only at h
      rw [if_pos (Int.natCast_nonneg _), List.append_nil] at h
      obtain rfl := Option.some.inj h
      exact .writeQueued heap type data hroom hholds haddr

theorem effect_readData {type : UInt8} {room : ℕ}
    (h : s.stepReadData type room = some s') : Effect s (.readData type room) s' := by
  rw [stepReadData] at h
  split at h
  · obtain rfl := Option.some.inj h
    exact .same _
  · split at h
    · obtain rfl := Option.some.inj h
      exact .same _
    · next hreceive =>
        obtain ⟨size, rxq, hrxq, rfl⟩ := spiRxqReceive_ok hreceive
        split at h
        · cases h
        · next hread =>
            obtain rfl := Option.some.inj h
            exact .readData type room hrxq hread

theorem effect_readPtr (type : UInt8) : Effect s (.readPtr type) (s.stepReadPtr type) := by
  rw [stepReadPtr]
  split
  · exact .same _
  · next hreceive =>
      obtain ⟨size, rxq, hrxq, rfl⟩ := spiRxqReceive_ok hreceive
      exact .readPtr type hrxq

theorem effect_release {i : ℕ} (h : s.stepRelease i = some s') :
    Effect s (.release i) s' := by
  rw [stepRelease] at h
  split at h
  · cases h
  · next hlent =>
      obtain rfl := Option.some.inj h
      exact .release i hlent

theorem effect_exchange {a : SpiAnswers} {takes : Bool} (hready : s.Ready)
    (h : s.stepExchange a takes = some s') : Effect s (.exchange a takes) s' := by
  rw [stepExchange] at h
  split at h
  · next waitTxnRdy hpc =>
      split at h
      · cases h
      · obtain ⟨r, hxfer, houtcome⟩ :=
          spiXferOne_outcome s.next waitTxnRdy a hready.rel_slot
        rw [hxfer] at h
        obtain rfl := Option.some.inj h
        exact .exchange takes hpc hxfer houtcome
  · cases h

theorem effect_deliver (h : s.stepDeliver = some s') : Effect s .deliver s' := by
  rw [stepDeliver] at h
  split at h
  · next type buf hpc =>
      split at h
      · cases h
      · next size rxq hrxq =>
          split at h
          · next hroom =>
              obtain rfl := Option.some.inj h
              exact .deliver hpc hrxq hroom
          · cases h
  · cases h

theorem effect_headerAck {acked : Bool} (h : s.stepHeaderAck acked = some s') :
    Effect s (.headerAck acked) s' := by
  rw [stepHeaderAck] at h
  split at h
  · next hpc =>
      split at h
      · obtain rfl := Option.some.inj h
        exact .headerAck acked hpc
      · obtain rfl := Option.some.inj h
        exact .ackTimeout acked hpc
  · cases h

theorem effect_getTxbuf (h : s.step .getTxbuf = some s') : Effect s .getTxbuf s' := by
  rw [step] at h
  split at h
  · next skip hpc =>
      obtain rfl := Option.some.inj h
      rcases spiGetTxbuf_cases s.engine with ⟨heq, hempty⟩ | ⟨buf, txq, hnone, htxq, heq⟩
      · rw [heq]
        exact .noTxbuf hpc hempty
      · rw [heq]
        exact .load hpc hnone htxq
  · cases h

theorem effect_poll (h : s.step .poll = some s') : Effect s .poll s' := by
  rw [step] at h
  split at h
  · next skip hpc =>
      obtain rfl := Option.some.inj h
      split_ifs with hwork
      · exact .transfer hpc
      · rw [not_or, Option.not_isSome_iff_eq_none, Bool.not_eq_true] at hwork
        exact .sleep hpc hwork.1 hwork.2
  · cases h

theorem step_effect {act : SpiAction} (hready : s.Ready) (h : s.step act = some s') :
    Effect s act s' := by
  cases act with
  | write heap type data => exact effect_write h
  | notify =>
      rw [step] at h
      split at h
      · next hpos =>
          obtain rfl := Option.some.inj h
          exact .notify hpos
      · cases h
  | readData type room => exact effect_readData h
  | readPtr type =>
      obtain rfl := Option.some.inj h
      exact effect_readPtr type
  | release i => exact effect_release h
  | bind type rxqSize created =>
      obtain rfl := Option.some.inj h
      rcases spiBind_cases type rxqSize created s.engine with heq |
        ⟨size, hsize, htype, hnone, heq⟩
      · rw [heq]
        exact .same _
      · rw [heq]
        exact .bind type rxqSize created hsize htype hnone
  | raise =>
      rw [step] at h
      split at h
      · cases h
      · obtain rfl := Option.some.inj h
        exact .raise
  | lower =>
      obtain rfl := Option.some.inj h
      exact .lower
  | interrupt =>
      rw [step] at h
      split at h
      · next hedge =>
          obtain rfl := Option.some.inj h
          exact .interrupt hedge
      · cases h
  | wake =>
      rw [step] at h
      split at h
      · next hwake =>
          obtain rfl := Option.some.inj h
          exact .wake hwake.1 hwake.2
      · cases h
  | getTxbuf => exact effect_getTxbuf h
  | poll => exact effect_poll h
  | exchange a takes => exact effect_exchange hready h
  | deliver => exact effect_deliver h
  | headerAck acked => exact effect_headerAck h

/-! ## The invariant is kept -/

/-- A receive queue that changes to buffers that were received. -/
theorem Ready.update_rxq (h : s.Ready) {type size : ℕ} {rxq : List SpiBuffer}
    (htype : type < spiTrafficTypeMax) (hrxq : ∀ buf ∈ rxq, buf.Carries buf.contents)
    (hpc : ∀ t buf, s'.pc = .delivering t buf → s.pc = .delivering t buf)
    (htxbuf : s'.engine.txbuf = s.engine.txbuf) (htxq : s'.engine.txq = s.engine.txq)
    (hupdate : s'.engine.rxq = Function.update s.engine.rxq type (some (size, rxq))) :
    s'.Ready := by
  have hother {t : ℕ} (ht : t ≠ type) : s'.engine.rxq t = s.engine.rxq t := by
    rw [hupdate, Function.update_of_ne ht]
  have hself : s'.engine.rxq type = some (size, rxq) := by
    rw [hupdate, Function.update_self]
  refine ⟨htxbuf ▸ h.txbuf, htxq ▸ h.txq, ?_, ?_, ?_⟩
  · intro t n q hq
    by_cases heq : t = type
    · rw [heq, hself] at hq
      cases hq
      exact hrxq
    · exact h.rxq t n q (hother heq ▸ hq)
  · intro t buf ht
    obtain ⟨hlt, hbound, hcarries⟩ := h.delivering t buf (hpc t buf ht)
    refine ⟨hlt, ?_, hcarries⟩
    by_cases heq : t = type
    · rw [heq, hself]
      rfl
    · rwa [hother heq]
  · intro t ht
    by_cases heq : t = type
    · exact heq ▸ htype
    · exact h.bound t (hother heq ▸ ht)

theorem Ready.of_engine (h : s.Ready) (htxbuf : s'.engine.txbuf = s.engine.txbuf)
    (htxq : s'.engine.txq = s.engine.txq) (hrxq : s'.engine.rxq = s.engine.rxq)
    (hpc : ∀ t buf, s'.pc = .delivering t buf → s.pc = .delivering t buf) : s'.Ready where
  txbuf := htxbuf ▸ h.txbuf
  txq := htxq ▸ h.txq
  rxq := hrxq ▸ h.rxq
  delivering t buf ht := hrxq ▸ h.delivering t buf (hpc t buf ht)
  bound := hrxq ▸ h.bound

theorem holds_of_rel {txbuf : Option SpiBuffer} {msg : Option SpiMessage}
    (h : Option.Rel SpiBuffer.Holds txbuf msg) :
    txbuf.map SpiBuffer.message = msg ∧ ∀ buf ∈ txbuf, buf.Holds buf.message := by
  cases h with
  | none => exact ⟨rfl, by rintro buf ⟨⟩⟩
  | some hholds =>
      refine ⟨congrArg some hholds.message_eq, ?_⟩
      rintro buf ⟨⟩
      rw [hholds.message_eq]
      exact hholds

theorem Ready.exchanged {waitTxnRdy takes : Bool} {a : SpiAnswers} {r : SpiExchange}
    (h : s.Ready) (hout : SpiOutcome s.next a s.engine s.slot r) :
    (s.exchanged waitTxnRdy a takes r).Ready := by
  cases hout with
  | early => exact h.of_engine rfl rfl rfl (by rintro t buf ⟨⟩)
  | broken hsent =>
      refine ⟨(holds_of_rel hsent.holds).2, h.txq, h.rxq, ?_, h.bound⟩
      rintro t buf ⟨⟩
  | @complete txbuf _ _ _ taken _ _ hsent htaken hstat hreceived =>
      have htxbuf : ∀ buf ∈ (if taken then none else txbuf), buf.Holds buf.message := by
        cases taken with
        | true => rintro buf ⟨⟩
        | false => exact (holds_of_rel hsent.holds).2
      generalize a.message = msg at hreceived
      cases hreceived with
      | nothing => exact ⟨htxbuf, h.txq, h.rxq, by rintro t buf ⟨⟩, h.bound⟩
      | dropped => exact ⟨htxbuf, h.txq, h.rxq, by rintro t buf ⟨⟩, h.bound⟩
      | kept hbound hcarries =>
          refine ⟨htxbuf, h.txq, h.rxq, ?_, h.bound⟩
          rintro t buf ⟨⟩
          exact ⟨hbound.1, hbound.2, hcarries.contents.symm ▸ hcarries⟩
      | moved hbound hcarries =>
          refine ⟨htxbuf, h.txq, h.rxq, ?_, h.bound⟩
          rintro t buf ⟨⟩
          exact ⟨hbound.1, hbound.2, hcarries.contents.symm ▸ hcarries⟩

theorem Effect.ready {act : SpiAction} (he : Effect s act s') (h : s.Ready) : s'.Ready := by
  cases he with
  | same => exact h
  | writeQueued heap type data hroom hholds haddr =>
      refine ⟨h.txbuf, ?_, h.rxq, h.delivering, h.bound⟩
      intro buf hbuf
      rcases List.mem_append.mp hbuf with hbuf | hbuf
      · exact h.txq buf hbuf
      · obtain rfl := List.mem_singleton.mp hbuf
        rw [hholds.message_eq]
        exact hholds
  | readData type room hrxq hread =>
      have hbuf := h.rxq _ _ _ hrxq
      exact h.update_rxq (h.bound _ (hrxq ▸ rfl)) (fun buf hmem => hbuf buf (.tail _ hmem))
        (fun _ _ ht => ht) rfl rfl rfl
  | readPtr type hrxq =>
      have hbuf := h.rxq _ _ _ hrxq
      exact h.update_rxq (h.bound _ (hrxq ▸ rfl)) (fun buf hmem => hbuf buf (.tail _ hmem))
        (fun _ _ ht => ht) rfl rfl rfl
  | bind type rxqSize created hsize htype hnone =>
      exact h.update_rxq htype (fun _ hmem => absurd hmem List.not_mem_nil)
        (fun _ _ ht => ht) rfl rfl rfl
  | load hpc hnone htxq =>
      refine ⟨?_, ?_, h.rxq, by rintro t buf ⟨⟩, h.bound⟩
      · rintro buf ⟨⟩
        exact h.txq _ (htxq ▸ List.mem_cons_self)
      · intro buf hbuf
        exact h.txq _ (htxq ▸ List.mem_cons_of_mem _ hbuf)
  | exchange takes hpc hxfer hout => exact h.exchanged hout
  | deliver hpc hrxq hroom =>
      obtain ⟨htype, hbound, hcarries⟩ := h.delivering _ _ hpc
      refine h.update_rxq htype ?_ (by rintro t buf ⟨⟩) rfl rfl rfl
      intro buf hbuf
      rcases List.mem_append.mp hbuf with hbuf | hbuf
      · exact h.rxq _ _ _ hrxq buf hbuf
      · obtain rfl := List.mem_singleton.mp hbuf
        exact hcarries
  | ackTimeout acked hpc => exact h.of_engine rfl rfl rfl fun _ _ ht => ht
  | writeFull | notify | release | raise | lower | interrupt =>
      exact h.of_engine rfl rfl rfl fun _ _ ht => ht
  | wake | noTxbuf | transfer | sleep | headerAck =>
      exact h.of_engine rfl rfl rfl (by rintro t buf ⟨⟩)

end Step

theorem ready_of_reachable {guard : SpiBus → SpiAction → Prop} {s : SpiBus}
    (h : spiBus.ReachableVia guard s) : s.Ready := by
  refine h.invariant ?_ ?_
  rotate_left
  · intro s a s' hready _ hs
    exact (step_effect hready hs).ready hready
  rintro s ⟨level, rfl⟩
  exact ⟨by rintro buf ⟨⟩, by rintro buf ⟨⟩, by rintro t n q ⟨⟩, by rintro t buf ⟨⟩,
    by rintro t ⟨⟩⟩

end SpiBus

end RtpMulticast
