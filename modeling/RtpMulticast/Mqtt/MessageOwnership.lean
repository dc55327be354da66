import RtpMulticast.Support.Ownership
import RtpMulticast.Mqtt.SessionOrder

/-!
# The buffers of subscribed messages

`publish_callback` allocates a topic and a message, hands both to the queue, and
`Subscription_process_task` frees them.  At every moment a buffer has one owner,
so none is freed twice or read after it was freed, in any interleaving.  Buffers
are lost where the MQTT task deletes an owner: a task in the middle of a
message, or the queue with entries in it.
-/

namespace RtpMulticast

open MqttSystem

/-! ## Owners -/

def RefresherPlace.buffers : RefresherPlace → List ℕ
  | .allocMessage topic | .freeTopic topic => [topic]
  | .testQueue data | .queueing data | .freeBoth data => data.buffers
  | .freeMessage message => [message]
  | .absent | .waiting | .syncing | .allocTopic | .deleted => []

def SubPlace.buffers : SubPlace → List ℕ
  | .received data | .parsing data | .freeTopic data => data.buffers
  | .freeMessage message => [message]
  | .absent | .receiving | .blocked _ | .deleted => []

def MsgQueue.buffers (queue : MsgQueue) : List ℕ :=
  queue.entries.flatMap MqttData.buffers

theorem RefresherPlace.buffers_of_not_alive {place : RefresherPlace}
    (h : place.alive = false) : place.buffers = [] := by
  cases place <;> first | rfl | cases h

theorem SubPlace.buffers_of_not_alive {place : SubPlace}
    (h : place.alive = false) : place.buffers = [] := by
  cases place <;> first | rfl | cases h

/-- Who holds buffers: the callback in a refresher, a subscription task or a
queue. -/
inductive BufferOwner where
  | refresher (n : ℕ)
  | sub (n : ℕ)
  | queue (q : ℕ)
  deriving DecidableEq, Repr

namespace MqttSystem

def holds (s : MqttSystem) : BufferOwner → List ℕ
  | .refresher n => (s.refreshers n).buffers
  | .sub n => (s.subs n).buffers
  | .queue q => (s.queues q).buffers

/-- The buffers with their owners. -/
def ledger (s : MqttSystem) : Ledger BufferOwner :=
  ⟨s.holds, s.bufferCount, s.frees⟩

/-- One owner holds other cells now. -/
theorem ledger_eq_hold {s s' : MqttSystem} {o : BufferOwner} {cells : List ℕ}
    (hself : s'.holds o = cells) (hother : ∀ p, p ≠ o → s'.holds p = s.holds p)
    (hcount : s'.bufferCount = s.bufferCount) (hfrees : s'.frees = s.frees) :
    s'.ledger = s.ledger.hold o cells := by
  have hheld : s'.holds = Function.update s.holds o cells := by
    funext p
    by_cases hp : p = o
    · rw [hp, Function.update_self, hself]
    · rw [Function.update_of_ne hp, hother p hp]
  simp only [ledger, hheld, hcount, hfrees]
  rfl

theorem ledger_setRefresher (s : MqttSystem) (n : ℕ) (place : RefresherPlace) :
    (s.setRefresher n place).ledger =
      s.ledger.hold (.refresher n) place.buffers := by
  refine ledger_eq_hold (update_self_eq RefresherPlace.buffers rfl) ?_ rfl rfl
  intro p hp
  cases p with
  | refresher k =>
      have hk : k ≠ n := fun heq => hp (by rw [heq])
      exact congrArg RefresherPlace.buffers (Function.update_of_ne hk ..)
  | sub k => rfl
  | queue q => rfl

theorem ledger_setSub (s : MqttSystem) (n : ℕ) (place : SubPlace) :
    (s.setSub n place).ledger = s.ledger.hold (.sub n) place.buffers := by
  refine ledger_eq_hold (update_self_eq SubPlace.buffers rfl) ?_ rfl rfl
  intro p hp
  cases p with
  | sub k =>
      have hk : k ≠ n := fun heq => hp (by rw [heq])
      exact congrArg SubPlace.buffers (Function.update_of_ne hk ..)
  | refresher k => rfl
  | queue q => rfl

theorem ledger_setQueue (s : MqttSystem) (q : ℕ) (queue : MsgQueue) :
    (s.setQueue q queue).ledger = s.ledger.hold (.queue q) queue.buffers := by
  refine ledger_eq_hold (update_self_eq MsgQueue.buffers rfl) ?_ rfl rfl
  intro p hp
  cases p with
  | queue k =>
      have hk : k ≠ q := fun heq => hp (by rw [heq])
      exact congrArg MsgQueue.buffers (Function.update_of_ne hk ..)
  | refresher k => rfl
  | sub k => rfl

/-! ## What is deleted -/

/-- The buffers of what the MQTT task deletes at `pc`. -/
def deletedAt (s : MqttSystem) : MainPc → List ℕ
  | .stop _ .deleteSub =>
      match s.subTask with
      | some k => s.holds (.sub k)
      | none => []
  | .stop _ .deleteRefresher =>
      match s.refresherTask with
      | some k => s.holds (.refresher k)
      | none => []
  | .deleteQueue =>
      match s.subMsgQueue with
      | some q => s.holds (.queue q)
      | none => []
  | _ => []

/-- The buffers of what `APP_MQTT_Start` deletes or replaces at `pc`. -/
def deletedByStart (s : MqttSystem) : StartPc → List ℕ
  | .createQueue n => s.holds (.queue n)
  | .undoQueue _ =>
      match s.subMsgQueue with
      | some q => s.holds (.queue q)
      | none => []
  | _ => []

/-- The buffers whose owner the step deletes. -/
def abandoned (s : MqttSystem) : MqttAction → List ℕ
  | .main n _ =>
      match s.mains n with
      | .running pc => s.deletedAt pc
      | .absent | .ended => []
  | .caller _ => s.deletedByStart s.caller
  | .start | .refresher _ _ | .sub _ => []

/-- Every buffer of an ended session was freed exactly once, none was freed
twice, and none was read after it was freed. -/
structure BuffersReturned (s : MqttSystem) : Prop where
  once : ∀ b, s.frees b ≤ 1
  freed : ∀ n b, s.mains n = .ended → b < s.bufferCount →
    s.bufferSession b = n → s.frees b = 1
  unread : s.readFreed = false

end MqttSystem

/-- What the MQTT task deletes holds no buffer: the subscription task and the
refresher are between two messages, and the queue is empty. -/
def DeletesEmptied (s : MqttSystem) : MqttAction → Prop
  | .main n a => s.abandoned (.main n a) = []
  | _ => True

instance (s : MqttSystem) : (a : MqttAction) → Decidable (DeletesEmptied s a)
  | .main n a => inferInstanceAs (Decidable (s.abandoned (.main n a) = []))
  | .start | .caller _ | .refresher _ _ | .sub _ => isTrue trivial

section Steps

variable {s s' : MqttSystem} {n k : ℕ} {pc : MainPc}

/-! ## What a step does to the buffers -/

/-- A step moves buffers between owners, lets go of those in `dropped` at most,
allocates for a refresher that is there, and reads what has an owner. -/
structure BufferStep (s : MqttSystem) (dropped : List ℕ) (s' : MqttSystem) :
    Prop where
  ledger : s.ledger.Step dropped s'.ledger
  session : ∀ b, b < s.bufferCount → s'.bufferSession b = s.bufferSession b
  allocated : ∀ b, s.bufferCount ≤ b → b < s'.bufferCount →
    (s.refreshers (s'.bufferSession b)).alive = true
  reads : s'.readFreed = true → s.readFreed = true ∨
    ∃ o b, b ∈ s.ledger.held o ∧ s.frees b ≠ 0

/-- A step without an allocation or a read. -/
theorem BufferStep.of_ledger {dropped : List ℕ}
    (h : s.ledger.Step dropped s'.ledger)
    (hcount : s'.bufferCount = s.bufferCount)
    (hsession : s'.bufferSession = s.bufferSession)
    (hreads : s'.readFreed = s.readFreed) : BufferStep s dropped s' := by
  refine ⟨h, fun b _ => congrFun hsession b, ?_, ?_⟩
  · intro b hb hb'
    rw [hcount] at hb'
    exact absurd hb' (Nat.not_lt.mpr hb)
  · intro hread
    rw [hreads] at hread
    exact Or.inl hread

/-- Tasks are created before they hold anything. -/
theorem MainMoves.bufferStep (h : MainMoves s n pc s')
    (hpc : s.mains n = .running pc) (hfresh : s.FreshSessions) :
    BufferStep s (s.deletedAt pc) s' := by
  cases h with
  | createRefresher =>
      refine .of_ledger ?_ rfl rfl rfl
      have habsent : s.refreshers n = .absent :=
        hfresh.refresher n (by rw [hpc]; rfl)
      have hheld : [] = s.ledger.held (.refresher n) := by
        change [] = (s.refreshers n).buffers
        rw [habsent]
        rfl
      change s.ledger.Step _ (s.setRefresher n .waiting).ledger
      rw [ledger_setRefresher, RefresherPlace.buffers, Ledger.hold_eq_self hheld]
      exact .same
  | createSub =>
      refine .of_ledger ?_ rfl rfl rfl
      have habsent : s.subs n = .absent := hfresh.sub n (by rw [hpc]; rfl)
      have hheld : [] = s.ledger.held (.sub n) := by
        change [] = (s.subs n).buffers
        rw [habsent]
        rfl
      change s.ledger.Step _ (s.setSub n .receiving).ledger
      rw [ledger_setSub, SubPlace.buffers, Ledger.hold_eq_self hheld]
      exact .same
  | deleteSub last k hhandle halive =>
      refine .of_ledger ?_ rfl rfl rfl
      change s.ledger.Step _ (s.setSub k .deleted).ledger
      rw [ledger_setSub]
      exact .drop _ (by simp only [deletedAt, hhandle]; rfl)
  | deleteRefresher last k hhandle halive =>
      refine .of_ledger ?_ rfl rfl rfl
      change s.ledger.Step _ (s.setRefresher k .deleted).ledger
      rw [ledger_setRefresher]
      exact .drop _ (by simp only [deletedAt, hhandle]; rfl)
  | deleteQueue q hhandle hlive =>
      refine .of_ledger ?_ rfl rfl rfl
      change s.ledger.Step _ (s.setQueue q ⟨.deleted, []⟩).ledger
      rw [ledger_setQueue]
      exact .drop _ (by simp only [deletedAt, hhandle]; rfl)
  | _ => exact .of_ledger .same rfl rfl rfl

theorem StartMoves.bufferStep (h : StartMoves s s.caller s') :
    BufferStep s (s.deletedByStart s.caller) s' := by
  generalize s.caller = pc at h
  cases h with
  | createQueue n =>
      refine .of_ledger ?_ rfl rfl rfl
      change s.ledger.Step _ (s.setQueue n ⟨.live, []⟩).ledger
      rw [ledger_setQueue]
      exact .drop _ rfl
  | undoQueue n q hhandle hlive =>
      refine .of_ledger ?_ rfl rfl rfl
      change s.ledger.Step _ (s.setQueue q ⟨.deleted, []⟩).ledger
      rw [ledger_setQueue]
      exact .drop _ (by simp only [deletedByStart, hhandle]; rfl)
  | _ => exact .of_ledger .same rfl rfl rfl

theorem RefresherMoves.bufferStep (h : RefresherMoves s n (s.refreshers n) s')
    (halive : (s.refreshers n).alive = true) : BufferStep s [] s' := by
  have hheld : s.ledger.held (.refresher n) = (s.refreshers n).buffers := rfl
  generalize hplace : s.refreshers n = place at h hheld
  have hset : ∀ place' : RefresherPlace, place'.buffers = place.buffers →
      s.ledger.Step [] (s.setRefresher n place').ledger := by
    intro place' hbuffers
    rw [ledger_setRefresher, Ledger.hold_eq_self (hbuffers.trans hheld.symm)]
    exact .same
  have hallocate : ∀ place' : RefresherPlace,
      place'.buffers.Perm (s.bufferCount :: place.buffers) →
        BufferStep s [] ((s.allocBuffer n).setRefresher n place') := by
    intro place' hperm
    refine ⟨?_, ?_, ?_, Or.inl⟩
    · rw [ledger_setRefresher]
      exact .allocate _ (by rw [hheld]; exact hperm)
    · exact fun b hb => Function.update_of_ne (Nat.ne_of_lt hb) ..
    · intro b hb hb'
      obtain rfl : b = s.bufferCount := Nat.le_antisymm (Nat.le_of_lt_succ hb') hb
      exact update_self_eq (fun k => (s.refreshers k).alive) halive
  have hfree : ∀ (b : ℕ) (place' : RefresherPlace),
      place.buffers.Perm (b :: place'.buffers) →
        BufferStep s [] ((s.freeBuffer b).setRefresher n place') := by
    intro b place' hperm
    refine .of_ledger ?_ rfl rfl rfl
    rw [ledger_setRefresher]
    exact .free _ b (by rw [hheld]; exact hperm)
  cases h with
  | stays => exact .of_ledger .same rfl rfl rfl
  | halt => exact .of_ledger .same rfl rfl rfl
  | allocTopic => exact hallocate _ (.refl _)
  | allocMessage topic => exact hallocate _ (.swap ..)
  | freeTopic topic => exact hfree topic _ (.refl _)
  | freeBoth data => exact hfree data.topic _ (.refl _)
  | freeMessage message => exact hfree message _ (.refl _)
  | queued data q hqueue hlive =>
      refine .of_ledger ?_ rfl rfl rfl
      rw [ledger_setRefresher, ledger_setQueue]
      refine .transfer _ _ (by rintro ⟨⟩) ?_
      rw [hheld]
      change (((s.queues q).entries ++ [data]).flatMap MqttData.buffers ++ []).Perm
        ((s.queues q).entries.flatMap MqttData.buffers ++ data.buffers)
      rw [List.flatMap_append, List.append_nil, List.flatMap_singleton]
  | _ => exact .of_ledger (hset _ rfl) rfl rfl rfl

theorem SubMoves.bufferStep (h : SubMoves s n (s.subs n) s') :
    BufferStep s [] s' := by
  have hheld : s.ledger.held (.sub n) = (s.subs n).buffers := rfl
  generalize hplace : s.subs n = place at h hheld
  have hset : ∀ place' : SubPlace, place'.buffers = place.buffers →
      s.ledger.Step [] (s.setSub n place').ledger := by
    intro place' hbuffers
    rw [ledger_setSub, Ledger.hold_eq_self (hbuffers.trans hheld.symm)]
    exact .same
  have hread : ∀ (b : ℕ) (place' : SubPlace), b ∈ place.buffers →
      place'.buffers = place.buffers →
        BufferStep s [] ((s.readBuffer b).setSub n place') := by
    intro b place' hb hbuffers
    refine ⟨hset place' hbuffers, fun _ _ => rfl, ?_, ?_⟩
    · exact fun c hc hc' => absurd hc' (Nat.not_lt.mpr hc)
    · intro hread
      rcases Bool.or_eq_true_iff.mp hread with hread | hfreed
      · exact Or.inl hread
      · exact Or.inr ⟨.sub n, b, by rwa [hheld], bne_iff_ne.mp hfreed⟩
  have hfree : ∀ (b : ℕ) (place' : SubPlace),
      place.buffers.Perm (b :: place'.buffers) →
        BufferStep s [] ((s.freeBuffer b).setSub n place') := by
    intro b place' hperm
    refine .of_ledger ?_ rfl rfl rfl
    rw [ledger_setSub]
    exact .free _ b (by rw [hheld]; exact hperm)
  cases h with
  | halt => exact .of_ledger .same rfl rfl rfl
  | blocks q => exact .of_ledger (hset _ rfl) rfl rfl rfl
  | receives q data rest hentries =>
      refine .of_ledger ?_ rfl rfl rfl
      rw [ledger_setSub, ledger_setQueue]
      refine .transfer _ _ (by rintro ⟨⟩) ?_
      rw [hheld]
      change (rest.flatMap MqttData.buffers ++ data.buffers).Perm
        ((s.queues q).entries.flatMap MqttData.buffers ++ [])
      rw [hentries, List.flatMap_cons, List.append_nil]
      exact List.perm_append_comm
  | readsTopic data => exact hread data.topic _ List.mem_cons_self rfl
  | parses data =>
      exact hread data.message _ (List.mem_cons_of_mem _ List.mem_cons_self) rfl
  | freesTopic data => exact hfree data.topic _ (.refl _)
  | freesMessage message => exact hfree message _ (.refl _)

theorem mqttMachine_bufferStep {a : MqttAction} (hfresh : s.FreshSessions)
    (hstep : mqttMachine.step s a = some s') :
    BufferStep s (s.abandoned a) s' := by
  cases mqttMachine_moves hstep with
  | started hidle hstarted => exact .of_ledger .same rfl rfl rfl
  | start hidle hstarted => exact .of_ledger .same rfl rfl rfl
  | caller ok hmoves => exact hmoves.bufferStep
  | main n a pc hpc hmoves =>
      have hdropped : s.abandoned (.main n a) = s.deletedAt pc := by
        simp only [abandoned, hpc]
      rw [hdropped]
      exact hmoves.bufferStep hpc hfresh
  | refresher n ok halive hmoves => exact hmoves.bufferStep halive
  | sub n halive hmoves => exact hmoves.bufferStep

/-! ## No buffer is freed twice -/

/-- In every run buffers have one owner each, and no freed buffer was read. -/
theorem mqttMachine_sound {guard : MqttSystem → MqttAction → Prop}
    (h : mqttMachine.ReachableVia guard s) :
    s.ledger.Sound ∧ s.readFreed = false := by
  apply h.strengthen
  · rintro s rfl
    refine ⟨⟨?_, ?_, ?_, ?_, ?_⟩, rfl⟩
    · rintro (n | n | n) <;> exact List.nodup_nil
    · rintro (n | n | n) p b ⟨⟩
    · rintro (n | n | n) b ⟨⟩
    · exact fun b => Nat.zero_le 1
    · exact fun b _ => rfl
  · rintro s a s' hreach ⟨hsound, hunread⟩ - hstep
    have hbuffers := mqttMachine_bufferStep (mqttMachine_freshSessions hreach) hstep
    refine ⟨hbuffers.ledger.sound hsound, ?_⟩
    rw [Bool.eq_false_iff]
    intro hread
    rcases hbuffers.reads hread with hread | ⟨o, b, hb, hfreed⟩
    · exact absurd (hunread.symm.trans hread) (by decide)
    · exact hfreed (hsound.live o b hb).2

/-! ## Owners and sessions -/

/-- A refresher runs only beside the MQTT task of its session. -/
theorem OrderedAt.beside_refresher {p : SessionPhases} (h : OrderedAt s n p)
    (halive : (s.refreshers k).alive = true) :
    k = n ∧ s.caller.Resting n ∧ ∃ pc, s.mains n = .running pc := by
  have hk : k = n := by
    by_contra hne
    rw [(h.others k hne).refresher] at halive
    cases halive
  subst hk
  obtain ⟨-, hholds, hcharge⟩ := h
  cases hcharge with
  | nobody hcaller hmain =>
      rw [hholds.refresher.2] at halive
      cases halive
  | start hcaller hmain =>
      have hdead := hholds.refresher
      generalize s.caller = caller at hdead
      cases caller <;> exact absurd (hdead.2.symm.trans halive) (by decide)
  | task hcaller pc hmain => exact ⟨rfl, hcaller, pc, hmain⟩

/-- Deleted queues are empty, and so is the queue of a session whose task is not
created yet. -/
structure MqttSystem.QueuesEmptied (s : MqttSystem) : Prop where
  gone : ∀ q, (s.queues q).state.isLive = false → (s.queues q).entries = []
  creating : ∀ n, s.caller.creating = some n → (s.queues n).entries = []

theorem MqttSystem.QueuesEmptied.keep (h : s.QueuesEmptied)
    (hcaller : ∀ n, s'.caller.creating = some n → s.caller.creating = some n)
    (hqueues : ∀ q, s'.queues q = s.queues q ∨ (s'.queues q).entries = []) :
    s'.QueuesEmptied := by
  constructor
  · intro q hq
    rcases hqueues q with hsame | hempty
    · rw [hsame] at hq ⊢
      exact h.gone q hq
    · exact hempty
  · intro n hn
    rcases hqueues n with hsame | hempty
    · rw [hsame]
      exact h.creating n (hcaller n hn)
    · exact hempty

theorem update_queue {q : ℕ} {queue : MsgQueue} (hqueue : queue.entries = [])
    (k : ℕ) : Function.update s.queues q queue k = s.queues k ∨
      (Function.update s.queues q queue k).entries = [] := by
  by_cases hk : k = q
  · subst hk
    rw [Function.update_self]
    exact Or.inr hqueue
  · rw [Function.update_of_ne hk]
    exact Or.inl rfl

theorem MainMoves.queuesEmptied (h : MainMoves s n pc s')
    (hpc : s.mains n = .running pc) (hs : s.QueuesEmptied) :
    s'.QueuesEmptied := by
  refine hs.keep (h.keepsSessions hpc).caller ?_
  cases h with
  | deleteQueue q hhandle hlive => exact update_queue rfl
  | _ => exact fun q => Or.inl rfl

theorem StartMoves.queuesEmptied (h : StartMoves s s.caller s')
    (hs : s.QueuesEmptied) : s'.QueuesEmptied := by
  generalize hcaller : s.caller = pc at h
  have hsame : ∀ k, pc.creating = some k → s.caller.creating = some k := by
    intro k hk
    rw [hcaller]
    exact hk
  cases h with
  | halt => exact ⟨hs.gone, hs.creating⟩
  | createQueue n | undoQueue n => exact hs.keep hsame (update_queue rfl)
  | noEvents n => exact hs.keep (by rintro k ⟨⟩) fun q => Or.inl rfl
  | undoEventsField n => exact hs.keep (by rintro k ⟨⟩) fun q => Or.inl rfl
  | createTask n => exact hs.keep (by rintro k ⟨⟩) fun q => Or.inl rfl
  | raise n => exact hs.keep (by rintro k ⟨⟩) fun q => Or.inl rfl
  | _ => exact hs.keep hsame fun q => Or.inl rfl

theorem RefresherMoves.queuesEmptied
    (h : RefresherMoves s n (s.refreshers n) s')
    (halive : (s.refreshers n).alive = true) (hordered : s.Ordered)
    (hs : s.QueuesEmptied) : s'.QueuesEmptied := by
  obtain ⟨m, p, hat⟩ := hordered
  obtain ⟨-, hresting, -⟩ := hat.beside_refresher halive
  have hnone : s.caller.creating = none := by
    rcases hresting with hidle | hraise
    · rw [hidle]
      rfl
    · rw [hraise]
      rfl
  generalize s.refreshers n = place at h
  cases h with
  | queued data q hqueue hlive =>
      constructor
      · intro k hk
        change (Function.update s.queues q _ k).state.isLive = false at hk
        change (Function.update s.queues q _ k).entries = []
        by_cases hkq : k = q
        · rw [hkq, Function.update_self] at hk
          cases hk
        · rw [Function.update_of_ne hkq] at hk ⊢
          exact hs.gone k hk
      · intro k hk
        exact absurd (hnone.symm.trans hk) (by rintro ⟨⟩)
  | _ => exact ⟨hs.gone, hs.creating⟩

/-- A message is received from a queue that was not empty. -/
theorem SubMoves.queuesEmptied {place : SubPlace} (h : SubMoves s n place s')
    (hs : s.QueuesEmptied) : s'.QueuesEmptied := by
  cases h with
  | receives q data rest hentries =>
      have hfull : (s.queues q).entries ≠ [] := by
        rw [hentries]
        rintro ⟨⟩
      constructor
      · intro k hk
        change (Function.update s.queues q _ k).state.isLive = false at hk
        change (Function.update s.queues q _ k).entries = []
        by_cases hkq : k = q
        · rw [hkq, Function.update_self] at hk
          exact absurd (hs.gone q hk) hfull
        · rw [Function.update_of_ne hkq] at hk ⊢
          exact hs.gone k hk
      · intro k hk
        change (Function.update s.queues q _ k).entries = []
        by_cases hkq : k = q
        · rw [hkq] at hk
          exact absurd (hs.creating q hk) hfull
        · rw [Function.update_of_ne hkq]
          exact hs.creating k hk
  | _ => exact ⟨hs.gone, hs.creating⟩

theorem mqttMachine_queuesEmptied {guard : MqttSystem → MqttAction → Prop}
    (halone : ∀ s a, guard s a → StartsAlone s a)
    (h : mqttMachine.ReachableVia guard s) : s.QueuesEmptied := by
  apply h.strengthen
  · rintro s rfl
    exact ⟨fun _ _ => rfl, fun _ _ => rfl⟩
  · intro s a s' hreach hs hguard hstep
    have hordered := mqttMachine_ordered halone hreach
    cases mqttMachine_moves hstep with
    | started hidle hstarted => exact hs
    | start hidle hstarted =>
        refine ⟨hs.gone, ?_⟩
        -- The next session has no queue yet.
        intro n hn
        obtain ⟨m, p, hat⟩ := hordered.start (halone _ _ hguard hstarted) hidle
        obtain ⟨rfl, -, hholds⟩ := hat.start hn
        exact hs.gone n hholds.queue.2
    | caller ok hmoves => exact hmoves.queuesEmptied hs
    | main n a pc hpc hmoves => exact hmoves.queuesEmptied hpc hs
    | refresher n ok halive hmoves =>
        exact hmoves.queuesEmptied halive hordered hs
    | sub n halive hmoves => exact hmoves.queuesEmptied hs

/-! ## Every buffer is freed -/

/-- `APP_MQTT_Start` finds the queues that it creates or deletes empty. -/
theorem MqttSystem.QueuesEmptied.deletedByStart (hs : s.QueuesEmptied)
    (hordered : s.Ordered) : s.deletedByStart s.caller = [] := by
  obtain ⟨m, p, hat⟩ := hordered
  have hempty : ∀ q, (s.queues q).entries = [] → s.holds (.queue q) = [] := by
    intro q hq
    change (s.queues q).entries.flatMap MqttData.buffers = []
    rw [hq]
    rfl
  cases hcaller : s.caller with
  | createQueue n => exact hempty n (hs.creating n (by rw [hcaller]; rfl))
  | undoQueue n =>
      have hcreating : s.caller.creating = some n := by
        rw [hcaller]
        rfl
      obtain ⟨rfl, -, hholds⟩ := hat.start hcreating
      rw [hcaller] at hholds
      simp only [MqttSystem.deletedByStart, hholds.queue.1]
      exact hempty n (hs.creating n hcreating)
  | _ => rfl

theorem mqttMachine_complete {guard : MqttSystem → MqttAction → Prop}
    (halone : ∀ s a, guard s a → StartsAlone s a)
    (hemptied : ∀ s a, guard s a → DeletesEmptied s a)
    (h : mqttMachine.ReachableVia guard s) : s.ledger.Complete := by
  apply h.strengthen
  · rintro s rfl b hb
    exact absurd hb (Nat.not_lt_zero b)
  · intro s a s' hreach hs hguard hstep
    have hnone : s.abandoned a = [] := by
      cases a with
      | main n a => exact hemptied s _ hguard
      | caller ok =>
          have hqueues := mqttMachine_queuesEmptied halone hreach
          exact hqueues.deletedByStart (mqttMachine_ordered halone hreach)
      | _ => rfl
    have hbuffers := mqttMachine_bufferStep (mqttMachine_freshSessions hreach) hstep
    rw [hnone] at hbuffers
    exact hbuffers.ledger.complete hs

/-- An MQTT task ends at its last statement. -/
theorem MainMoves.ends (h : MainMoves s n pc s') (hpc : s.mains n = .running pc)
    (hordered : s.Ordered) (hended : s'.mains k = .ended) :
    s.mains k = .ended ∨
      s.mains k = .running .deleteSelf ∧ s' = s.setMain k .ended := by
  obtain ⟨m, p, hat⟩ := hordered
  obtain ⟨rfl, -, hholds⟩ := hat.task hpc
  have hruns : ∀ pc', s'.mains = Function.update s.mains n (.running pc') →
      s.mains k = .ended := by
    intro pc' hmains
    rw [hmains] at hended
    by_cases hk : k = n
    · rw [hk, Function.update_self] at hended
      cases hended
    · rwa [Function.update_of_ne hk] at hended
  cases h with
  | halt => exact Or.inl hended
  | noSubTask last hhandle =>
      exact absurd (hhandle.symm.trans hholds.sub.1) (by rintro ⟨⟩)
  | noRefresherTask last hhandle =>
      cases last <;>
        exact absurd (hhandle.symm.trans hholds.refresher.1) (by rintro ⟨⟩)
  | deleteSelf =>
      by_cases hk : k = n
      · subst hk
        exact Or.inr ⟨hpc, rfl⟩
      · refine Or.inl ?_
        change Function.update s.mains n .ended k = .ended at hended
        rwa [Function.update_of_ne hk] at hended
  | _ => exact Or.inl (hruns _ rfl)

/-- At the last statement of the MQTT task nobody holds a buffer. -/
theorem MqttSystem.Ordered.no_owner (hordered : s.Ordered)
    (hs : s.QueuesEmptied) (hpc : s.mains n = .running .deleteSelf)
    (o : BufferOwner) : s.ledger.held o = [] := by
  obtain ⟨m, p, hat⟩ := hordered
  obtain ⟨rfl, -, hholds⟩ := hat.task hpc
  cases o with
  | refresher k =>
      have hdead : (s.refreshers k).alive = false := by
        by_cases hk : k = n
        · rw [hk]
          exact hholds.refresher.2
        · exact (hat.others k hk).refresher
      exact RefresherPlace.buffers_of_not_alive hdead
  | sub k =>
      have hdead : (s.subs k).alive = false := by
        by_cases hk : k = n
        · rw [hk]
          exact hholds.sub.2
        · exact (hat.others k hk).sub
      exact SubPlace.buffers_of_not_alive hdead
  | queue k =>
      have hdead : (s.queues k).state.isLive = false := by
        by_cases hk : k = n
        · rw [hk]
          exact hholds.queue.2
        · exact (hat.others k hk).queue
      change (s.queues k).entries.flatMap MqttData.buffers = []
      rw [hs.gone k hdead]
      rfl

theorem mqttMachine_ends {a : MqttAction} (hordered : s.Ordered)
    (hstep : mqttMachine.step s a = some s') (hended : s'.mains k = .ended) :
    s.mains k = .ended ∨
      s.mains k = .running .deleteSelf ∧ s' = s.setMain k .ended := by
  cases mqttMachine_moves hstep with
  | started hidle hstarted => exact Or.inl hended
  | start hidle hstarted => exact Or.inl hended
  | caller ok hmoves =>
      refine Or.inl ?_
      generalize s.caller = pc at hmoves
      cases hmoves with
      | createTask n =>
          change Function.update s.mains n _ k = .ended at hended
          by_cases hk : k = n
          · rw [hk, Function.update_self] at hended
            cases hended
          · rwa [Function.update_of_ne hk] at hended
      | _ => exact hended
  | main n a pc hpc hmoves => exact hmoves.ends hpc hordered hended
  | refresher n ok halive hmoves =>
      generalize s.refreshers n = place at hmoves
      cases hmoves <;> exact Or.inl hended
  | sub n halive hmoves =>
      generalize s.subs n = place at hmoves
      cases hmoves <;> exact Or.inl hended

/-- The buffers of ended sessions were freed, and no session gets new ones after
its end. -/
theorem mqttMachine_freed {guard : MqttSystem → MqttAction → Prop}
    (halone : ∀ s a, guard s a → StartsAlone s a)
    (hemptied : ∀ s a, guard s a → DeletesEmptied s a)
    (h : mqttMachine.ReachableVia guard s) :
    ∀ n b, s.mains n = .ended → b < s.bufferCount → s.bufferSession b = n →
      s.frees b = 1 := by
  apply h.strengthen
  · rintro s rfl n b ⟨⟩
  · intro s a s' hreach hs hguard hstep n b hended hb hsession
    have hordered := mqttMachine_ordered halone hreach
    have hbuffers := mqttMachine_bufferStep (mqttMachine_freshSessions hreach) hstep
    rcases mqttMachine_ends hordered hstep hended with hbefore | ⟨hpc, rfl⟩
    · by_cases hold : b < s.bufferCount
      · rw [hbuffers.session b hold] at hsession
        have hone := hs n b hbefore hold hsession
        have hle := hbuffers.ledger.frees_le b
        have honce := (mqttMachine_sound (hreach.step hguard hstep)).1.once b
        change s.frees b ≤ s'.frees b at hle
        change s'.frees b ≤ 1 at honce
        omega
      · have halive := hbuffers.allocated b (Nat.le_of_not_lt hold) hb
        rw [hsession] at halive
        obtain ⟨m, p, hat⟩ := hordered
        obtain ⟨rfl, -, pc, hpc⟩ := hat.beside_refresher halive
        rw [hbefore] at hpc
        cases hpc
    · have hcomplete := mqttMachine_complete halone hemptied hreach
      have hsound := (mqttMachine_sound hreach).1
      have hqueues := mqttMachine_queuesEmptied halone hreach
      exact hcomplete.freed hsound (hordered.no_owner hqueues hpc) hb

/-! ## Lost buffers -/

/-- Deleting an owner loses what it holds. -/
theorem MainMoves.lost (h : MainMoves s n pc s') (hsound : s.ledger.Sound)
    (hrunning : s'.halted = false) (hdeleted : s.deletedAt pc ≠ []) :
    ∃ b, s'.ledger.Lost b := by
  obtain ⟨b, hb⟩ := List.exists_mem_of_ne_nil _ hdeleted
  cases h with
  | halt => cases hrunning
  | deleteSub last k hhandle halive =>
      simp only [deletedAt, hhandle] at hb
      refine ⟨b, ?_⟩
      change (s.setSub k .deleted).ledger.Lost b
      rw [ledger_setSub]
      exact hsound.lost_drop hb
  | deleteRefresher last k hhandle halive =>
      simp only [deletedAt, hhandle] at hb
      refine ⟨b, ?_⟩
      change (s.setRefresher k .deleted).ledger.Lost b
      rw [ledger_setRefresher]
      exact hsound.lost_drop hb
  | deleteQueue q hhandle hlive =>
      simp only [deletedAt, hhandle] at hb
      refine ⟨b, ?_⟩
      change (s.setQueue q ⟨.deleted, []⟩).ledger.Lost b
      rw [ledger_setQueue]
      exact hsound.lost_drop hb
  | noSubTask last hhandle =>
      simp only [deletedAt, hhandle] at hb
      cases hb
  | noRefresherTask last hhandle =>
      simp only [deletedAt, hhandle] at hb
      cases hb
  | goes hgoes => cases hgoes <;> cases hb
  | takes htakes => cases htakes <;> cases hb
  | gives hgives => cases hgives <;> cases hb
  | uses huses => cases huses <;> cases hb
  | _ => cases hb

theorem mqttMachine_lost {a : MqttAction} (hreach : mqttMachine.Reachable s)
    (ha : ¬ DeletesEmptied s a) (hstep : mqttMachine.step s a = some s')
    (hrunning : s'.halted = false) : ∃ b, s'.ledger.Lost b := by
  have hsound := (mqttMachine_sound hreach).1
  cases mqttMachine_moves hstep with
  | main n a pc hpc hmoves =>
      refine hmoves.lost hsound hrunning ?_
      simpa only [DeletesEmptied, abandoned, hpc] using ha
  | _ => exact absurd trivial ha

/-- A lost buffer is never freed. -/
theorem mqttMachine_lost_forever {b : ℕ} (hreach : mqttMachine.Reachable s)
    (hb : s.ledger.Lost b) {actions : List MqttAction}
    (hrun : mqttMachine.run s actions = some s') : s'.frees b = 0 := by
  have hstep : ∀ t a t', mqttMachine.Reachable t → t.ledger.Lost b →
      mqttMachine.step t a = some t' → t'.ledger.Lost b := by
    intro t a t' ht hlost hstep
    have hbuffers := mqttMachine_bufferStep (mqttMachine_freshSessions ht) hstep
    exact hbuffers.ledger.lost hlost
  exact (hreach.run_keeps hstep hb hrun).kept

/-- No buffer is ever freed twice or read after it was freed.  When the MQTT
task deletes only tasks and queues that hold no buffer, in sessions that start
one after the other, every buffer of an ended session was freed; deleting one
that holds a buffer leaves a buffer that is never freed. -/
theorem mqttMachine_buffersReturned (h : mqttMachine.Reachable s) :
    ((∀ b, s.frees b ≤ 1) ∧ s.readFreed = false) ∧
    (mqttMachine.ReachableVia
        (fun s a => StartsAlone s a ∧ DeletesEmptied s a) s →
      s.BuffersReturned) ∧
    ∀ a s', ¬ DeletesEmptied s a → mqttMachine.step s a = some s' →
      s'.halted = false → ∃ b, b < s'.bufferCount ∧ ∀ actions t,
        mqttMachine.run s' actions = some t → t.frees b = 0 := by
  obtain ⟨hsound, hunread⟩ := mqttMachine_sound h
  refine ⟨⟨hsound.once, hunread⟩, ?_, ?_⟩
  · intro hguarded
    have hfreed := mqttMachine_freed (fun _ _ => And.left) (fun _ _ => And.right)
      hguarded
    exact ⟨hsound.once, hfreed, hunread⟩
  · intro a s' ha hstep hrunning
    obtain ⟨b, hb⟩ := mqttMachine_lost h ha hstep hrunning
    have hreach : mqttMachine.Reachable s' := h.step trivial hstep
    exact ⟨b, hb.allocated, fun _ _ => mqttMachine_lost_forever hreach hb⟩

end Steps

/-! ## Runs -/

/-- The refresher of session `n` takes the mutex, receives and queues a message,
and gives the mutex back. -/
def syncMessage (n : ℕ) : List MqttAction :=
  List.replicate 6 (.refresher n true) ++ [.refresher n false]

/-- The task of session `n` from its loop to its end. -/
def endSession (n : ℕ) : List MqttAction :=
  failPublish n ++ List.replicate 9 (.main n .ok) ++ exitSession n

/-- A message is received and handled, and the session ends. -/
def oneMessageRun : List MqttAction :=
  startSession ++ openSocket 0 ++ connectBroker 0 ++ syncMessage 0 ++
    List.replicate 6 (.sub 0) ++ endSession 0

theorem oneMessageRun_emptied :
    mqttMachine.Meets (fun s a => (a = .start → s.sessionCount = 0) ∧
      DeletesEmptied s a) newMqttSystem oneMessageRun := by
  decide +kernel

/-- Both buffers of the message were freed. -/
theorem mqttMachine_buffersReturned_one :
    ∃ s : MqttSystem, s.mains 0 = .ended ∧ s.bufferCount = 2 ∧
      s.BuffersReturned := by
  have hrun : ((mqttMachine.run newMqttSystem oneMessageRun).map
      fun s => (s.mains 0, s.bufferCount)) = some (.ended, 2) := by
    decide +kernel
  obtain ⟨s, hs, hend⟩ := Option.map_eq_some_iff.mp hrun
  rw [Prod.mk.injEq] at hend
  have hreach := (Machine.ReachableVia.init rfl).run _ oneMessageRun_emptied hs
  have hreturned :=
    (mqttMachine_buffersReturned (Machine.reachable_of_run rfl _ hs)).2.1
  refine ⟨s, hend.1, hend.2, hreturned ?_⟩
  refine hreach.mono fun t a ht ha => ⟨?_, ha.2⟩
  cases a with
  | start =>
      intro _ n
      have hcount := ha.1 rfl
      rw [(mqttMachine_freshSessions ht).ahead n (by omega)]
      rfl
  | _ => trivial

/-- The subscription task is deleted with one message, and the queue with
another. -/
theorem mqttMachine_not_buffersReturned :
    ∃ s : MqttSystem, mqttMachine.Reachable s ∧ s.mains 0 = .ended ∧
      s.bufferCount = 4 ∧ (∀ b, b < 4 → s.bufferSession b = 0 ∧ s.frees b = 0) ∧
        ¬ s.BuffersReturned := by
  have hrun : ((mqttMachine.run newMqttSystem
      (startSession ++ openSocket 0 ++ connectBroker 0 ++ syncMessage 0 ++
        syncMessage 0 ++ [.sub 0, .sub 0] ++ endSession 0)).map
      fun s => (s.mains 0, s.bufferCount,
        (List.range 4).map fun b => (s.bufferSession b, s.frees b))) =
      some (.ended, 4, List.replicate 4 (0, 0)) := by
    decide +kernel
  obtain ⟨s, hs, hend⟩ := Option.map_eq_some_iff.mp hrun
  rw [Prod.mk.injEq, Prod.mk.injEq] at hend
  obtain ⟨hended, hcount, hbuffers⟩ := hend
  have hlost : ∀ b, b < 4 → s.bufferSession b = 0 ∧ s.frees b = 0 := by
    intro b hb
    have hmem : (s.bufferSession b, s.frees b) ∈
        (List.range 4).map fun b => (s.bufferSession b, s.frees b) :=
      List.mem_map_of_mem (List.mem_range.mpr hb)
    rw [hbuffers] at hmem
    exact Prod.mk.inj (List.eq_of_mem_replicate hmem)
  refine ⟨s, Machine.reachable_of_run rfl _ hs, hended, hcount, hlost, ?_⟩
  intro hreturned
  obtain ⟨hsession, hkept⟩ := hlost 0 (by decide)
  have hone := hreturned.freed 0 0 hended (by rw [hcount]; decide) hsession
  omega

end RtpMulticast
