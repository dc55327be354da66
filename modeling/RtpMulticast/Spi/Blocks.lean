import RtpMulticast.Spi.BusSteps
import Mathlib.Algebra.Order.BigOperators.Group.Finset
import Mathlib.Data.Multiset.Range
import Mathlib.Tactic.Abel

/-!
# The blocks of the SPI bus

Blocks are numbered in the order of their allocation.  Each of them is in one place of
the bus (the transmit buffer, a queue, on its way to a receive queue, or lent to a
reader) or was freed once.
-/

namespace RtpMulticast

open ByteBuffer ByteMemory

/-! ## Places -/

/-- The blocks of a list of buffers. -/
def blocksOf (bufs : List SpiBuffer) : Multiset ℕ := (bufs.map SpiBuffer.addr : List ℕ)

@[simp] theorem blocksOf_nil : blocksOf [] = 0 := rfl

theorem blocksOf_append (xs ys : List SpiBuffer) :
    blocksOf (xs ++ ys) = blocksOf xs + blocksOf ys := by
  rw [blocksOf, List.map_append, ← Multiset.coe_add]
  rfl

@[simp] theorem blocksOf_singleton (buf : SpiBuffer) : blocksOf [buf] = {buf.addr} := rfl

theorem blocksOf_cons (buf : SpiBuffer) (bufs : List SpiBuffer) :
    blocksOf (buf :: bufs) = {buf.addr} + blocksOf bufs :=
  blocksOf_append [buf] bufs

theorem blocksOf_eraseIdx {bufs : List SpiBuffer} {i : ℕ} {buf : SpiBuffer}
    (h : bufs[i]? = some buf) : blocksOf bufs = {buf.addr} + blocksOf (bufs.eraseIdx i) := by
  obtain ⟨hi, rfl⟩ := List.getElem?_eq_some_iff.mp h
  rw [← blocksOf_cons]
  exact Multiset.coe_eq_coe.mpr ((List.getElem_cons_eraseIdx_perm hi).symm.map _)

/-- The blocks of a receive queue. -/
def rxqBlocks (rxq : Option (ℕ × List SpiBuffer)) : Multiset ℕ :=
  blocksOf (rxq.elim [] Prod.snd)

/-- The blocks of all receive queues. -/
def rxBlocks (rxq : ℕ → Option (ℕ × List SpiBuffer)) : Multiset ℕ :=
  ∑ type ∈ Finset.range spiTrafficTypeMax, rxqBlocks (rxq type)

theorem rxBlocks_update (rxq : ℕ → Option (ℕ × List SpiBuffer)) {type : ℕ}
    (h : type < spiTrafficTypeMax) (new : Option (ℕ × List SpiBuffer)) :
    rxBlocks (Function.update rxq type new) + rxqBlocks (rxq type) =
      rxBlocks rxq + rxqBlocks new := by
  have hmem : type ∈ Finset.range spiTrafficTypeMax := Finset.mem_range.mpr h
  have hrest : ∑ t ∈ (Finset.range spiTrafficTypeMax).erase type,
      rxqBlocks (Function.update rxq type new t) =
        ∑ t ∈ (Finset.range spiTrafficTypeMax).erase type, rxqBlocks (rxq t) :=
    Finset.sum_congr rfl fun t ht => by
      rw [Function.update_of_ne (Finset.ne_of_mem_erase ht)]
  rw [rxBlocks, rxBlocks, ← Finset.add_sum_erase _ _ hmem,
    ← Finset.add_sum_erase _ (fun t => rxqBlocks (rxq t)) hmem, hrest, Function.update_self]
  abel

section Queues

variable {rxq : ℕ → Option (ℕ × List SpiBuffer)} {type size : ℕ} {buf : SpiBuffer}
  {bufs : List SpiBuffer}

theorem rxBlocks_pop (htype : type < spiTrafficTypeMax)
    (h : rxq type = some (size, buf :: bufs)) :
    rxBlocks rxq = rxBlocks (Function.update rxq type (some (size, bufs))) + {buf.addr} := by
  have hupdate := rxBlocks_update rxq htype (some (size, bufs))
  have hold : rxqBlocks (rxq type) = {buf.addr} + blocksOf bufs := by
    rw [h]
    exact blocksOf_cons buf bufs
  rw [hold, ← add_assoc] at hupdate
  exact (add_right_cancel hupdate).symm

theorem rxBlocks_push (htype : type < spiTrafficTypeMax) (h : rxq type = some (size, bufs)) :
    rxBlocks (Function.update rxq type (some (size, bufs ++ [buf]))) =
      rxBlocks rxq + {buf.addr} := by
  have hupdate := rxBlocks_update rxq htype (some (size, bufs ++ [buf]))
  have hnew : rxqBlocks (some (size, bufs ++ [buf])) = {buf.addr} + rxqBlocks (rxq type) := by
    rw [h, add_comm]
    exact blocksOf_append bufs [buf]
  rw [hnew, ← add_assoc] at hupdate
  exact add_right_cancel hupdate

theorem rxBlocks_bind (htype : type < spiTrafficTypeMax) (h : rxq type = none) (size : ℕ) :
    rxBlocks (Function.update rxq type (some (size, []))) = rxBlocks rxq := by
  have hupdate := rxBlocks_update rxq htype (some (size, []))
  rw [h] at hupdate
  exact add_right_cancel hupdate

end Queues

namespace SpiBus

/-- The block that is on its way to a receive queue. -/
def pcBlocks (s : SpiBus) : Multiset ℕ :=
  match s.pc with
  | .delivering _ buf => {buf.addr}
  | _ => 0

/-- The blocks in all places of the bus. -/
def held (s : SpiBus) : Multiset ℕ :=
  blocksOf s.engine.txbuf.toList + blocksOf s.engine.txq + rxBlocks s.engine.rxq +
    s.pcBlocks + blocksOf s.lent

/-- Every block that was allocated is in one place or was freed once. -/
def Balanced (s : SpiBus) : Prop :=
  s.held + (s.frees : Multiset ℕ) = Multiset.range s.next

section Steps

variable {s s' : SpiBus}

theorem coe_append (xs ys : List ℕ) :
    ((xs ++ ys : List ℕ) : Multiset ℕ) = (xs : Multiset ℕ) + (ys : Multiset ℕ) :=
  (Multiset.coe_add xs ys).symm

theorem coe_singleton (b : ℕ) : (([b] : List ℕ) : Multiset ℕ) = {b} := rfl

theorem range_add_one (n : ℕ) : Multiset.range (n + 1) = {n} + Multiset.range n :=
  (Multiset.range_succ n).trans (Multiset.singleton_add _ _).symm

theorem pcBlocks_of_transferring {wait : Bool} (h : s.pc = .transferring wait) :
    s.pcBlocks = 0 := by
  rw [pcBlocks, h]

/-- The buffer that was sent is freed or kept. -/
theorem blocksOf_txbuf {txbuf : Option SpiBuffer} {slot : Option SpiMessage} {rxStall : Bool}
    (taken : Bool) {mosi : Bytes} {xferSize : UInt16}
    (h : SentFirst rxStall s.engine.txbuf slot txbuf mosi xferSize) :
    blocksOf (if taken then none else txbuf).toList +
        ((if taken then s.engine.txbuf.toList.map SpiBuffer.addr else [] : List ℕ) :
          Multiset ℕ) =
      blocksOf s.engine.txbuf.toList := by
  cases taken with
  | true => exact zero_add _
  | false =>
      have haddr : txbuf.toList.map SpiBuffer.addr =
          s.engine.txbuf.toList.map SpiBuffer.addr := by
        rw [← Option.toList_map, h.addr, Option.toList_map]
      have hblocks : blocksOf txbuf.toList = blocksOf s.engine.txbuf.toList :=
        congrArg (fun xs : List ℕ => (xs : Multiset ℕ)) haddr
      exact (add_zero _).trans hblocks

theorem balanced_exchanged {waitTxnRdy wait takes : Bool} {a : SpiAnswers}
    {r : SpiExchange} (h : s.Balanced) (hpc : s.pc = .transferring wait)
    (hout : SpiOutcome s.next a s.engine s.slot r) :
    (s.exchanged waitTxnRdy a takes r).Balanced := by
  rw [Balanced, held, pcBlocks_of_transferring hpc] at h
  cases hout with
  | early =>
      simpa [Balanced, held, pcBlocks, exchanged] using h
  | broken hsent =>
      have htxbuf := blocksOf_txbuf false hsent
      rw [← htxbuf] at h
      simp only [Balanced, held, pcBlocks, exchanged, coe_append, coe_singleton,
        range_add_one, ← h, Bool.false_eq_true, if_false, Multiset.coe_nil,
        Int.reduceNeg, Int.neg_eq_zero, one_ne_zero]
      abel
  | @complete txbuf _ _ _ taken _ _ hsent htaken hstat hreceived =>
      have htxbuf := blocksOf_txbuf taken hsent
      rw [← htxbuf] at h
      generalize a.message = msg at hreceived
      cases hreceived with
      | nothing =>
          simp only [Balanced, held, pcBlocks, exchanged, coe_append, coe_singleton,
            range_add_one, ← h, if_true]
          abel
      | dropped =>
          simp only [Balanced, held, pcBlocks, exchanged, coe_append, coe_singleton,
            range_add_one, ← h, if_true]
          abel
      | kept hbound hcarries haddr =>
          simp only [Balanced, held, pcBlocks, exchanged, coe_append, Multiset.coe_nil,
            range_add_one, haddr, ← h]
          abel
      | moved hbound hcarries haddr =>
          simp only [Balanced, held, pcBlocks, exchanged, coe_append, coe_singleton,
            ← add_assoc s.next, range_add_one, haddr, ← h]
          abel

theorem balanced_effect {act : SpiAction} (hready : s.Ready) (he : Effect s act s')
    (h : s.Balanced) : s'.Balanced := by
  rw [Balanced, held] at h
  cases he with
  | writeFull heap type data =>
      simp only [Balanced, held, pcBlocks, coe_append, coe_singleton, range_add_one, ← h]
      abel
  | writeQueued heap type data hroom hholds haddr =>
      simp only [Balanced, held, pcBlocks, blocksOf_append, blocksOf_singleton, haddr,
        range_add_one, ← h]
      abel
  | readData type room hrxq hread =>
      rw [rxBlocks_pop (hready.bound _ (hrxq ▸ rfl)) hrxq] at h
      simp only [Balanced, held, pcBlocks, coe_append, coe_singleton, ← h]
      abel
  | readPtr type hrxq =>
      rw [rxBlocks_pop (hready.bound _ (hrxq ▸ rfl)) hrxq] at h
      simp only [Balanced, held, pcBlocks, blocksOf_append, blocksOf_singleton, ← h]
      abel
  | release i hlent =>
      rw [blocksOf_eraseIdx hlent] at h
      simp only [Balanced, held, pcBlocks, coe_append, coe_singleton, ← h]
      abel
  | bind type rxqSize created hsize htype hnone =>
      rw [← rxBlocks_bind htype hnone] at h
      exact h
  | load hpc hnone htxq =>
      simp only [hnone, htxq, blocksOf_cons, pcBlocks, hpc, Option.toList_none, blocksOf_nil]
        at h
      simp only [Balanced, held, pcBlocks, Option.toList_some, blocksOf_singleton, ← h]
      abel
  | exchange takes hpc hxfer hout => exact balanced_exchanged h hpc hout
  | deliver hpc hrxq hroom =>
      simp only [pcBlocks, hpc] at h
      simp only [Balanced, held, pcBlocks, rxBlocks_push (hready.bound _ (hrxq ▸ rfl)) hrxq,
        ← h]
      abel
  | wake hpc | noTxbuf hpc | transfer hpc | sleep hpc | headerAck acked hpc =>
      rw [pcBlocks, hpc] at h
      exact h
  | _ => exact h

end Steps

/-- No block is freed twice, none is freed while the bus still has it, and none is
lost. -/
theorem blocks_held_or_freed {s : SpiBus} (h : spiBus.Reachable s) :
    s.held + (s.frees : Multiset ℕ) = Multiset.range s.next := by
  apply h.strengthen
  · rintro s ⟨level, rfl⟩
    rfl
  · intro s act s' hr hbalanced _ hs
    have hready := ready_of_reachable hr
    exact balanced_effect hready (step_effect hready hs) hbalanced

/-- The message of a writer that waits in the queue. -/
theorem blocks_held_or_freed_queued :
    ∃ s : SpiBus, s.next = 1 ∧ s.held + (s.frees : Multiset ℕ) = Multiset.range s.next := by
  obtain ⟨s, hs, hnext⟩ : ∃ s, spiBus.run (.initial false)
      [.write (some fun _ => 0) 0 [65], .notify] = some s ∧ s.next = 1 :=
    Option.map_eq_some_iff.mp (by decide +kernel)
  exact ⟨s, hnext, blocks_held_or_freed (Machine.reachable_of_run ⟨false, rfl⟩ _ hs)⟩

end SpiBus

end RtpMulticast
