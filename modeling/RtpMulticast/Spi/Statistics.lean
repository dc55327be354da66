import RtpMulticast.Spi.Delivery

/-!
# The statistics of the SPI bus

A message counts as transmitted when it leaves the queue, with its header, however often
it is sent afterwards.  A message of the peer counts when its exchange is complete, and
as dropped when its type has no queue.  The counters have 64 bits and start again at 0
behind the last value.
-/

namespace RtpMulticast

open ByteBuffer ByteMemory

namespace SpiBus

/-- The bytes of messages with their headers. -/
def wireBytes (msgs : List SpiMessage) : ℕ :=
  (msgs.map fun msg => spiHeaderSize + msg.payload.length).sum

/-- The bytes of the messages that the peer sent. -/
def sentBytes (sent : List (SpiMessage × Bool)) : ℕ :=
  (sent.map fun m => m.1.payload.length).sum

/-- The counters agree, modulo 2 ^ 64, with what went over the bus. -/
structure Counted (s : SpiBus) : Prop where
  txPkts : (spiGetStats s.engine).txPkts + .ofNat s.engine.txq.length =
    .ofNat s.written.length
  txBytes : (spiGetStats s.engine).txBytes +
      .ofNat (wireBytes (s.engine.txq.map SpiBuffer.message)) = .ofNat (wireBytes s.written)
  rxPkts : (spiGetStats s.engine).rxPkts = .ofNat s.sent.length
  rxBytes : (spiGetStats s.engine).rxBytes = .ofNat (sentBytes s.sent)
  rxDrop : (spiGetStats s.engine).rxDrop = .ofNat (s.sent.filter fun m => !m.2).length

theorem wireBytes_append (xs ys : List SpiMessage) :
    wireBytes (xs ++ ys) = wireBytes xs + wireBytes ys := by
  rw [wireBytes, List.map_append, List.sum_append, wireBytes, wireBytes]

theorem wireBytes_singleton (msg : SpiMessage) :
    wireBytes [msg] = spiHeaderSize + msg.payload.length := by
  rw [wireBytes, List.map_singleton, List.sum_singleton]

theorem sentBytes_append (xs ys : List (SpiMessage × Bool)) :
    sentBytes (xs ++ ys) = sentBytes xs + sentBytes ys := by
  rw [sentBytes, List.map_append, List.sum_append, sentBytes, sentBytes]

section Steps

variable {s s' : SpiBus}

/-- The counters of the receive side, after a message or without one. -/
theorem Counted.received (h : s.Counted) (arrived : List (SpiMessage × Bool))
    (htxq : s'.engine.txq = s.engine.txq) (hwritten : s'.written = s.written)
    (hsent : s'.sent = s.sent ++ arrived)
    (hcounts : s'.engine.stat.counts = { s.engine.stat.counts with
      rxPkts := s.engine.stat.rxPkts + .ofNat arrived.length
      rxBytes := s.engine.stat.rxBytes + .ofNat (sentBytes arrived)
      rxDrop := s.engine.stat.rxDrop + .ofNat (arrived.filter fun m => !m.2).length }) :
    s'.Counted := by
  obtain ⟨htxPkts, htxBytes, hrxPkts, hrxBytes, hrxDrop⟩ := h
  simp only [SpiStat.counts, SpiCounts.mk.injEq] at hcounts
  obtain ⟨h₁, h₂, h₃, h₄, h₅⟩ := hcounts
  rw [spiGetStats] at htxPkts htxBytes hrxPkts hrxBytes hrxDrop
  refine ⟨?_, ?_, ?_, ?_, ?_⟩
  · rw [spiGetStats, h₁, htxq, hwritten, htxPkts]
  · rw [spiGetStats, h₂, htxq, hwritten, htxBytes]
  · rw [spiGetStats, h₃, hsent, hrxPkts, List.length_append, UInt64.ofNat_add]
  · rw [spiGetStats, h₄, hsent, hrxBytes, sentBytes_append, UInt64.ofNat_add]
  · rw [spiGetStats, h₅, hsent, hrxDrop, List.filter_append, List.length_append,
      UInt64.ofNat_add]

theorem Counted.unchanged (h : s.Counted) (htxq : s'.engine.txq = s.engine.txq)
    (hwritten : s'.written = s.written) (hsent : s'.sent = s.sent)
    (hcounts : s'.engine.stat.counts = s.engine.stat.counts) : s'.Counted := by
  refine h.received [] htxq hwritten (hsent.trans (List.append_nil _).symm) ?_
  rw [hcounts]
  exact SpiCounts.ext rfl rfl (UInt64.add_zero _).symm (UInt64.add_zero _).symm
    (UInt64.add_zero _).symm

/-- A message of the peer, whose type has a queue or not. -/
theorem Counted.arrived (h : s.Counted) {msg : SpiMessage} (bound : Bool) {stat : SpiStat}
    (htxq : s'.engine.txq = s.engine.txq) (hwritten : s'.written = s.written)
    (hsent : s'.sent = s.sent ++ [(msg, bound)]) (hstat : stat.counts = s.engine.stat.counts)
    (hcounts : s'.engine.stat.counts =
      stat.counts.received msg.payload.length (if bound then 0 else 1)) : s'.Counted := by
  refine h.received [(msg, bound)] htxq hwritten hsent (hcounts.trans ?_)
  rw [hstat]
  cases bound <;> rfl

theorem counted_exchanged {waitTxnRdy takes : Bool} {a : SpiAnswers} {r : SpiExchange}
    (h : s.Counted) (hout : SpiOutcome s.next a s.engine s.slot r) :
    (s.exchanged waitTxnRdy a takes r).Counted := by
  cases hout with
  | early hstat =>
      exact h.unchanged rfl rfl (List.append_nil _) hstat
  | broken hsent hstat =>
      exact h.unchanged rfl rfl (List.append_nil _) hstat
  | complete hsent htaken hstat hreceived =>
      generalize hmsg : a.message = msg at hreceived
      cases hreceived with
      | nothing =>
          refine h.unchanged rfl rfl ?_ hstat
          simp [exchanged, hmsg]
      | @dropped msg _ hunbound hcounts =>
          have hflag : decide (s.engine.Bound msg.type) = false := decide_eq_false hunbound
          exact h.arrived false rfl rfl (by simp [exchanged, hmsg, hflag]) hstat hcounts
      | @kept msg _ _ hbound hcarries haddr hcounts =>
          have hflag : decide (s.engine.Bound msg.type) = true := decide_eq_true hbound
          exact h.arrived true rfl rfl (by simp [exchanged, hmsg, hflag]) hstat hcounts
      | @moved msg _ _ hbound hcarries haddr hcounts =>
          have hflag : decide (s.engine.Bound msg.type) = true := decide_eq_true hbound
          exact h.arrived true rfl rfl (by simp [exchanged, hmsg, hflag]) hstat hcounts

/-- A message moves from the queue to the transmit buffer and is counted. -/
theorem Counted.load (h : s.Counted) {buf : SpiBuffer} {txq : List SpiBuffer}
    (hholds : buf.Holds buf.message) (htxq : s.engine.txq = buf :: txq)
    (htxq' : s'.engine.txq = txq) (hwritten : s'.written = s.written)
    (hsent : s'.sent = s.sent)
    (hcounts : s'.engine.stat.counts = { s.engine.stat.counts with
      txPkts := s.engine.stat.txPkts + 1
      txBytes := s.engine.stat.txBytes + buf.len.toUInt64 }) : s'.Counted := by
  obtain ⟨htxPkts, htxBytes, hrxPkts, hrxBytes, hrxDrop⟩ := h
  simp only [SpiStat.counts, SpiCounts.mk.injEq] at hcounts
  obtain ⟨h₁, h₂, h₃, h₄, h₅⟩ := hcounts
  rw [spiGetStats] at htxPkts htxBytes hrxPkts hrxBytes hrxDrop
  have hlen : UInt64.ofNat (wireBytes [buf.message]) = buf.len.toUInt64 := by
    rw [wireBytes_singleton, ← hholds.len, UInt64.ofNat_uInt16ToNat]
  refine ⟨?_, ?_, ?_, ?_, ?_⟩
  · rw [htxq, List.length_cons, Nat.add_comm, UInt64.ofNat_add, ← UInt64.add_assoc] at htxPkts
    rw [spiGetStats, h₁, htxq', hwritten]
    exact htxPkts
  · rw [htxq, List.map_cons, ← List.singleton_append, wireBytes_append, UInt64.ofNat_add, hlen,
      ← UInt64.add_assoc] at htxBytes
    rw [spiGetStats, h₂, htxq', hwritten]
    exact htxBytes
  · rw [spiGetStats, h₃, hsent, hrxPkts]
  · rw [spiGetStats, h₄, hsent, hrxBytes]
  · rw [spiGetStats, h₅, hsent, hrxDrop]

theorem counted_effect {act : SpiAction} (hready : s.Ready) (he : Effect s act s')
    (h : s.Counted) : s'.Counted := by
  cases he with
  | writeQueued heap type data hroom hholds haddr =>
      obtain ⟨htxPkts, htxBytes, hrxPkts, hrxBytes, hrxDrop⟩ := h
      refine ⟨?_, ?_, hrxPkts, hrxBytes, hrxDrop⟩
      · simp only [spiGetStats, List.length_append, UInt64.ofNat_add, ← htxPkts,
          List.length_singleton, UInt64.add_assoc]
      · simp only [spiGetStats, List.map_append, wireBytes_append, UInt64.ofNat_add,
          ← htxBytes, UInt64.add_assoc, List.map_cons, List.map_nil, hholds.message_eq]
  | load hpc hnone htxq =>
      have hholds := hready.txq _ (htxq ▸ List.mem_cons_self)
      exact h.load hholds htxq rfl rfl rfl rfl
  | exchange takes hpc hxfer hout => exact counted_exchanged h hout
  | _ => exact ⟨h.txPkts, h.txBytes, h.rxPkts, h.rxBytes, h.rxDrop⟩

end Steps

/-- The statistics are exact in every run. -/
theorem statistics_exact {s : SpiBus} (h : spiBus.Reachable s) : s.Counted := by
  apply h.strengthen
  · rintro s ⟨level, rfl⟩
    exact ⟨rfl, rfl, rfl, rfl, rfl⟩
  · intro s act s' hr hcounted _ hs
    have hready := ready_of_reachable hr
    exact counted_effect hready (step_effect hready hs) hcounted

/-- The peer sends a message whose type is not bound, and a writer one that is loaded. -/
theorem statistics_exact_dropped :
    ∃ s : SpiBus, s.sent = [(⟨0, [66, 67]⟩, false)] ∧ s.written = [⟨0, [65]⟩] ∧
      s.Counted := by
  obtain ⟨s, hs, hstate⟩ : ∃ s, spiBus.run (.initial true)
      [.wake, .getTxbuf, .poll, .exchange talkingPeer false, .headerAck true,
        .write (some fun _ => 0) 0 [65], .notify, .getTxbuf] = some s ∧
      (s.sent, s.written) = ([(⟨0, [66, 67]⟩, false)], [⟨0, [65]⟩]) :=
    Option.map_eq_some_iff.mp (by decide +kernel)
  obtain ⟨hsent, hwritten⟩ := Prod.mk.inj hstate
  exact ⟨s, hsent, hwritten, statistics_exact (Machine.reachable_of_run ⟨true, rfl⟩ _ hs)⟩

end SpiBus

end RtpMulticast
