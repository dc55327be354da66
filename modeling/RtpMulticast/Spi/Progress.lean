import RtpMulticast.Spi.Delivery

/-!
# Progress of the SPI bus

The engine task never sleeps on work: when it waits and there is something to send or
the ready line is high, an event is set, or a writer or the interrupt is about to set
one.  Apart from that it only stops at a receive queue that nobody reads.
-/

namespace RtpMulticast

open ByteBuffer ByteMemory

namespace SpiBus

/-! ## No faults -/

/-- Nothing that the peer sends and nothing that a task asks for leads outside a
block. -/
theorem no_faults {s : SpiBus} (h : spiBus.Reachable s) :
    (∀ waitTxnRdy a, ∃ r, spiXferOne s.next waitTxnRdy a s.engine = .ok r) ∧
      (∀ heap type data, ∃ r, spiWrite s.next heap type data s.engine = .ok r) ∧
      ∀ type buf engine room, spiRxqReceive type s.engine = .ok (buf, engine) →
        ∃ r, spiReadData room buf = .ok r := by
  have hready := ready_of_reachable h
  refine ⟨?_, ?_, ?_⟩
  · intro waitTxnRdy a
    obtain ⟨r, hr, -⟩ := spiXferOne_outcome s.next waitTxnRdy a hready.rel_slot
    exact ⟨r, hr⟩
  · intro heap type data
    obtain ⟨r, hr, -⟩ := spiWrite_outcome s.next heap type data s.engine
    exact ⟨r, hr⟩
  · intro type buf engine room hreceive
    obtain ⟨size, rxq, hrxq, -⟩ := spiRxqReceive_ok hreceive
    exact ⟨_, spiReadData_ok (hready.rxq _ _ _ hrxq buf List.mem_cons_self)⟩

/-- A message of the peer is in the queue of its type, and one of a writer in the
transmit buffer. -/
def loadedRun : List SpiAction :=
  [.bind 0 8 true, .wake] ++ receiveRound ++
    [.headerAck true, .write (some fun _ => 0) 0 [65], .notify, .getTxbuf]

theorem no_faults_loaded :
    ∃ s : SpiBus, s.slot = some ⟨0, [65]⟩ ∧ s.queued 0 = [[66, 67]] ∧
      (∀ waitTxnRdy a, ∃ r, spiXferOne s.next waitTxnRdy a s.engine = .ok r) ∧
      (∀ heap type data, ∃ r, spiWrite s.next heap type data s.engine = .ok r) ∧
      ∀ type buf engine room, spiRxqReceive type s.engine = .ok (buf, engine) →
        ∃ r, spiReadData room buf = .ok r := by
  obtain ⟨s, hs, hstate⟩ : ∃ s, spiBus.run (.initial true) loadedRun = some s ∧
      (s.slot, s.queued 0) = (some ⟨0, [65]⟩, [[66, 67]]) :=
    Option.map_eq_some_iff.mp (by decide +kernel)
  obtain ⟨hslot, hqueued⟩ := Prod.mk.inj hstate
  exact ⟨s, hslot, hqueued, no_faults (Machine.reachable_of_run ⟨true, rfl⟩ _ hs)⟩

/-! ## Wake-ups -/

/-- The task has not seen the transmit queue since it last looked for an event. -/
def Drained (s : SpiBus) : Prop :=
  s.engine.txbuf = none ∧ (s.engine.txq ≠ [] → s.pending = true ∨ 0 < s.notifying)

/-- What the task relies on when it decides to sleep, and while it sleeps. -/
structure Awake (s : SpiBus) : Prop where
  polled : ∀ skip, s.pc = .polled skip → s.engine.txbuf = none → s.Drained
  waiting : s.pc = .waiting → s.Drained
  line : s.pc = .waiting → s.level = true → s.rdy = true ∨ s.edge = true

section Steps

variable {s s' : SpiBus}

theorem awake_of_pc (hpolled : ∀ skip, s.pc ≠ .polled skip) (hwaiting : s.pc ≠ .waiting) :
    s.Awake :=
  ⟨fun skip h => absurd h (hpolled skip), fun h => absurd h hwaiting,
    fun h => absurd h hwaiting⟩

/-- Steps that leave the task where it is. -/
theorem Awake.frame (h : s.Awake) (hpc : s'.pc = s.pc)
    (hdrained : s.Drained → s'.Drained)
    (htxbuf : s'.engine.txbuf = s.engine.txbuf)
    (hline : (s.level = true → s.rdy = true ∨ s.edge = true) →
      s'.level = true → s'.rdy = true ∨ s'.edge = true) : s'.Awake where
  polled skip hs hnone := hdrained (h.polled skip (hpc ▸ hs) (htxbuf ▸ hnone))
  waiting hs := hdrained (h.waiting (hpc ▸ hs))
  line hs := hline (h.line (hpc ▸ hs))

theorem awake_exchanged {waitTxnRdy takes : Bool} {a : SpiAnswers} {r : SpiExchange} :
    (s.exchanged waitTxnRdy a takes r).Awake := by
  refine awake_of_pc ?_ ?_
  · rw [exchanged]
    dsimp only
    split
    · rintro skip ⟨⟩
    · split_ifs <;> rintro skip ⟨⟩
  · rw [exchanged]
    dsimp only
    split
    · rintro ⟨⟩
    · split_ifs <;> rintro ⟨⟩

theorem awake_effect {act : SpiAction} (he : Effect s act s') (h : s.Awake) :
    s'.Awake := by
  cases he with
  | writeQueued =>
      refine h.frame rfl ?_ rfl id
      exact fun hdrained => ⟨hdrained.1, fun _ => Or.inr (Nat.succ_pos _)⟩
  | notify =>
      refine h.frame rfl ?_ rfl id
      exact fun hdrained => ⟨hdrained.1, fun _ => Or.inl rfl⟩
  | raise => exact h.frame rfl id rfl fun _ _ => Or.inr rfl
  | lower => exact h.frame rfl id rfl fun _ hlevel => by cases hlevel
  | interrupt => exact h.frame rfl id rfl fun _ _ => Or.inl rfl
  | wake => exact awake_of_pc (by rintro skip ⟨⟩) (by rintro ⟨⟩)
  | noTxbuf hpc hempty =>
      refine ⟨fun skip _ hnone => ⟨hnone, fun hne => absurd (hempty hnone) hne⟩, ?_, ?_⟩
      · rintro ⟨⟩
      · rintro ⟨⟩
  | load hpc hnone htxq =>
      refine ⟨?_, ?_, ?_⟩
      · rintro skip hs ⟨⟩
      · rintro ⟨⟩
      · rintro ⟨⟩
  | transfer => exact awake_of_pc (by rintro skip ⟨⟩) (by rintro ⟨⟩)
  | sleep hpc hnone hlow =>
      refine ⟨by rintro skip ⟨⟩, fun _ => h.polled _ hpc hnone, fun _ hlevel => ?_⟩
      exact absurd (hlow.symm.trans hlevel) Bool.false_ne_true
  | exchange => exact awake_exchanged
  | deliver => exact awake_of_pc (by rintro skip ⟨⟩) (by rintro ⟨⟩)
  | headerAck => exact awake_of_pc (by rintro skip ⟨⟩) (by rintro ⟨⟩)
  | _ => exact h.frame rfl id rfl id

end Steps

theorem awake_of_reachable {s : SpiBus} (h : spiBus.Reachable s) : s.Awake := by
  apply h.strengthen
  · rintro s ⟨level, rfl⟩
    exact ⟨by rintro skip ⟨⟩, fun _ => ⟨rfl, fun h => absurd rfl h⟩, fun _ => Or.inl⟩
  · intro s act s' hr hawake _ hs
    exact awake_effect (step_effect (ready_of_reachable hr) hs) hawake

/-! ## The task -/

/-- The steps of `spi_xfer_engine_task`, with the answers of its surroundings. -/
def taskSteps (a : SpiAnswers) (takes acked : Bool) : List SpiAction :=
  [.wake, .getTxbuf, .poll, .exchange a takes, .deliver, .headerAck acked]

/-- The task sleeps, and nothing is left for it to do that nobody is about to announce. -/
structure Asleep (s : SpiBus) : Prop where
  pc : s.pc = .waiting
  slot : s.engine.txbuf = none
  txq : s.engine.txq ≠ [] → 0 < s.notifying
  line : s.level = true → s.edge = true

/-- The task waits for room in a receive queue. -/
def Blocked (s : SpiBus) : Prop :=
  ∃ type buf size rxq, s.pc = .delivering type buf ∧
    s.engine.rxq type = some (size, rxq) ∧ size ≤ rxq.length

theorem exchange_enabled {s : SpiBus} {wait : Bool} (hready : s.Ready)
    (hpc : s.pc = .transferring wait) {a : SpiAnswers} (ha : a.txnRdy = s.rdy)
    (takes : Bool) : (s.step (.exchange a takes)).isSome := by
  obtain ⟨r, hr, -⟩ := spiXferOne_outcome s.next wait a hready.rel_slot
  have hskip : ¬ (wait = true ∧ a.txnRdy ≠ s.rdy) := fun h => h.2 ha
  rw [step, stepExchange, hpc]
  dsimp only
  rw [if_neg hskip, hr]
  rfl

/-- Whatever its surroundings answer, the task can take a step, sleeps with nothing to
do, or waits for a reader. -/
theorem task_progress {s : SpiBus} (h : spiBus.Reachable s) {a : SpiAnswers}
    (ha : a.txnRdy = s.rdy) (takes acked : Bool) :
    (∃ act ∈ taskSteps a takes acked, (s.step act).isSome) ∨ s.Asleep ∨ s.Blocked := by
  have hready := ready_of_reachable h
  have hawake := awake_of_reachable h
  cases hpc : s.pc with
  | waiting =>
      by_cases hevent : s.pending = true ∨ s.rdy = true
      · refine Or.inl ⟨.wake, by simp [taskSteps], ?_⟩
        rw [step, if_pos ⟨hpc, hevent⟩]
        rfl
      · rw [not_or] at hevent
        obtain ⟨hnone, htxq⟩ := hawake.waiting hpc
        refine Or.inr (Or.inl ⟨hpc, hnone, ?_, ?_⟩)
        · exact fun hne => (htxq hne).resolve_left hevent.1
        · exact fun hlevel => (hawake.line hpc hlevel).resolve_left hevent.2
  | polling skip =>
      refine Or.inl ⟨.getTxbuf, by simp [taskSteps], ?_⟩
      rw [step, hpc]
      rfl
  | polled skip =>
      refine Or.inl ⟨.poll, by simp [taskSteps], ?_⟩
      rw [step, hpc]
      rfl
  | transferring wait =>
      exact Or.inl ⟨_, by simp [taskSteps], exchange_enabled hready hpc ha takes⟩
  | delivering type buf =>
      obtain ⟨-, hbound, -⟩ := hready.delivering type buf hpc
      obtain ⟨⟨size, rxq⟩, hrxq⟩ := Option.isSome_iff_exists.mp hbound
      by_cases hroom : rxq.length < size
      · refine Or.inl ⟨.deliver, by simp [taskSteps], ?_⟩
        rw [step, stepDeliver, hpc]
        dsimp only
        rw [hrxq]
        dsimp only
        rw [if_pos hroom]
        rfl
      · exact Or.inr (Or.inr ⟨type, buf, size, rxq, hpc, hrxq, Nat.not_lt.mp hroom⟩)
  | acking =>
      refine Or.inl ⟨.headerAck acked, by simp [taskSteps], ?_⟩
      rw [step, stepHeaderAck, if_pos hpc]
      split_ifs <;> rfl

/-- The task sleeps on a message whose writer has not set the event yet. -/
theorem task_progress_unannounced :
    ∃ s : SpiBus, s.pc = .waiting ∧ s.engine.txq.length = 1 ∧ s.pending = false ∧
      ((∃ act ∈ taskSteps { idlePeer with txnRdy := false } false true,
          (s.step act).isSome) ∨ s.Asleep ∨ s.Blocked) := by
  obtain ⟨s, hs, hstate⟩ : ∃ s, spiBus.run (.initial false)
      [.raise, .interrupt, .wake, .getTxbuf, .lower, .poll,
        .write (some fun _ => 0) 0 [65]] = some s ∧
      (s.pc, s.engine.txq.length, s.pending, s.rdy) = (.waiting, 1, false, false) :=
    Option.map_eq_some_iff.mp (by decide +kernel)
  simp only [Prod.mk.injEq] at hstate
  obtain ⟨hpc, htxq, hpending, hrdy⟩ := hstate
  have hreachable := Machine.reachable_of_run (M := spiBus) ⟨false, rfl⟩ _ hs
  exact ⟨s, hpc, htxq, hpending,
    task_progress hreachable (a := { idlePeer with txnRdy := false }) hrdy.symm false true⟩

end SpiBus

end RtpMulticast
