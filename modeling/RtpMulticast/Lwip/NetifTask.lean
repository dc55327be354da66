import RtpMulticast.Lwip.NetifReceive
import Mathlib.Logic.Function.Basic

/-!
# The receive task

`netif_task` waits for the notification bits of the two links and calls
`netif_rx_process` for each link until a call does not return a frame.  A call
that fails for one frame counts as a drained link, and the frames behind it wait
for the next arrival.
-/

namespace RtpMulticast

/-! ## Queues and calls -/

/-- `NETIF_STA` and `NETIF_AP`. -/
inductive NetLink where
  | sta
  | ap
  deriving DecidableEq, Repr

/-- The length of a received frame; the bus does not queue empty ones. -/
abbrev RxFrame := { len : ℕ // 0 < len }

/-- What a call of `netif_rx_process` meets beside the queue: whether the interface
exists, an error of the bus, and whether the allocations and the input succeed. -/
structure RxSurroundings where
  netif : Bool
  busError : Option ℕ
  pbufAllocated : Bool
  customAlloced : Bool
  inputOk : Bool
  deriving DecidableEq, Repr

def RxSurroundings.answers (o : RxSurroundings) (ret : Int) (buffer : Bool) :
    RxAnswers :=
  { netif := o.netif, ret := ret, buffer := buffer, pbufAllocated := o.pbufAllocated,
    customAlloced := o.customAlloced, inputOk := o.inputOk }

/-- The answers that `netif_rx_process` gets, and the queue behind the call; -4 is the
result of `spi_read` for an empty queue. -/
def netifInput (o : RxSurroundings) (queue : List RxFrame) :
    RxAnswers × List RxFrame :=
  if o.netif = false then (o.answers 0 false, queue)
  else
    match o.busError, queue with
    | some e, queue => (o.answers (Int.negSucc e) false, queue)
    | none, [] => (o.answers (-4) false, [])
    | none, frame :: rest => (o.answers frame.1 true, rest)

/-- The call fails for a frame. -/
def RxSurroundings.Fails (o : RxSurroundings) : Prop :=
  o.netif = false ∨ o.busError ≠ none ∨ o.pbufAllocated = false ∨
    o.customAlloced = false ∨ o.inputOk = false

instance : DecidablePred RxSurroundings.Fails :=
  fun _ => inferInstanceAs (Decidable (_ ∨ _))

/-- How many frames of the queue a call leaves. -/
def RxSurroundings.left (o : RxSurroundings) (queue : List RxFrame) : ℕ :=
  if o.netif = true ∧ o.busError = none then queue.length - 1 else queue.length

/-! ## The task and the arrivals -/

inductive NetifPc where
  | wait
  | check (link : NetLink) (event : NetLink → Bool)
  | loop (event : NetLink → Bool)

/-- The queues, how many arrivals of a link have queued their frame and not yet set
the bit, the notification bits, and the task with `netif_event`. -/
structure NetifTaskState where
  queue : NetLink → List RxFrame
  unnotified : NetLink → ℕ
  pending : NetLink → Bool
  pc : NetifPc

inductive NetifTaskAction where
  | arrive (link : NetLink) (frame : RxFrame)
  | notify (link : NetLink)
  | task (o : RxSurroundings)

/-- Where the task goes on behind the `if` of a link. -/
def NetifPc.next (event : NetLink → Bool) : NetLink → NetifPc
  | .sta => .check .ap event
  | .ap => .loop event

/-- The `if` of a link.  The number of the call does not matter here. -/
def netifCheck (s : NetifTaskState) (link : NetLink) (event : NetLink → Bool)
    (o : RxSurroundings) : NetifTaskState :=
  if event link = true then
    let input := netifInput o (s.queue link)
    let event' :=
      if (netifRxProcess 0 input.1).ret ≤ 0 then Function.update event link false
      else event
    { s with
      queue := Function.update s.queue link input.2
      pc := .next event' link }
  else { s with pc := .next event link }

/-- One step of `netif_task`. -/
def netifTask (s : NetifTaskState) (o : RxSurroundings) : Option NetifTaskState :=
  match s.pc with
  | .wait =>
      if s.pending .sta = false ∧ s.pending .ap = false then none
      else some { s with pc := .check .sta s.pending, pending := fun _ => false }
  | .check link event => some (netifCheck s link event o)
  | .loop event =>
      if event .sta = true ∨ event .ap = true then
        some { s with pc := .check .sta event }
      else some { s with pc := .wait }

def netifTaskStep (s : NetifTaskState) : NetifTaskAction → Option NetifTaskState
  | .arrive link frame =>
      some { s with
        queue := Function.update s.queue link (s.queue link ++ [frame])
        unnotified := Function.update s.unnotified link (s.unnotified link + 1) }
  | .notify link =>
      if s.unnotified link = 0 then none
      else some { s with
        unnotified := Function.update s.unnotified link (s.unnotified link - 1)
        pending := Function.update s.pending link true }
  | .task o => netifTask s o

/-- Nothing received yet, and the task at its first wait. -/
def netifTaskInit : NetifTaskState :=
  { queue := fun _ => [], unnotified := fun _ => 0, pending := fun _ => false, pc := .wait }

def netifTaskMachine : Machine NetifTaskState NetifTaskAction where
  init := fun s => s = netifTaskInit
  step := netifTaskStep

/-! ## What is to hold -/

/-- Where the task blocks and the bit of a link is not set, the queue of the link has
only frames of arrivals that are about to set it; so both queues are empty when
there are none. -/
structure NoLostWakeup (s : NetifTaskState) : Prop where
  queued : s.pc = .wait → ∀ link, s.pending link = false →
    (s.queue link).length ≤ s.unnotified link
  drained : s.pc = .wait → (∀ link, s.pending link = false) →
    (∀ link, s.unnotified link = 0) → ∀ link, s.queue link = []

/-- The call of a step does not fail for one frame and leave others that no arrival is
going to announce. -/
def LeavesNoFrame (s : NetifTaskState) : NetifTaskAction → Prop
  | .arrive _ _ => True
  | .notify _ => True
  | .task o =>
      match s.pc with
      | .check link event =>
          event link = true → o.Fails → s.pending link = false →
            o.left (s.queue link) ≤ s.unnotified link
      | .wait => True
      | .loop _ => True

instance (s : NetifTaskState) (a : NetifTaskAction) : Decidable (LeavesNoFrame s a) :=
  match a with
  | .arrive _ _ => isTrue trivial
  | .notify _ => isTrue trivial
  | .task o =>
      match h : s.pc with
      | .check link event =>
          decidable_of_iff (event link = true → o.Fails → s.pending link = false →
            o.left (s.queue link) ≤ s.unnotified link) (by simp [LeavesNoFrame, h])
      | .wait => isTrue (by simp [LeavesNoFrame, h])
      | .loop _ => isTrue (by simp [LeavesNoFrame, h])

/-! ## One call -/

section Call

variable {o : RxSurroundings} {queue : List RxFrame}

theorem length_netifInput (o : RxSurroundings) (queue : List RxFrame) :
    (netifInput o queue).2.length = o.left queue := by
  unfold netifInput RxSurroundings.left
  by_cases hnetif : o.netif = true
  · match herror : o.busError, queue with
    | some e, queue => simp [hnetif]
    | none, [] => simp [hnetif]
    | none, frame :: rest => simp [hnetif]
  · simp [hnetif]

/-- Every exit but the last one returns no frame. -/
theorem netifRxProcess_ret_nonpos_iff {k : ℕ} {a : RxAnswers} :
    (netifRxProcess k a).ret ≤ 0 ↔
      a.netif = false ∨ a.ret ≤ 0 ∨ a.pbufAllocated = false ∨
        a.customAlloced = false ∨ a.inputOk = false := by
  unfold netifRxProcess
  split_ifs with hnetif hret hpbuf hcustom hinput
  · simp [hnetif]
  · simp [hret]
  · simp [hpbuf]
  · simp [hcustom]
  · simp [hinput]
  · simp [hnetif, hret, hpbuf, hcustom, hinput]

/-- A call returns no frame when the queue is empty or the call fails. -/
theorem netifRxProcess_nonpos_iff :
    (netifRxProcess 0 (netifInput o queue).1).ret ≤ 0 ↔ queue = [] ∨ o.Fails := by
  rw [netifRxProcess_ret_nonpos_iff]
  unfold netifInput RxSurroundings.Fails RxSurroundings.answers
  by_cases hnetif : o.netif = true
  · match herror : o.busError, queue with
    | some e, queue =>
        have hneg : Int.negSucc e ≤ 0 := by omega
        simp [hnetif, hneg]
    | none, [] => simp [hnetif]
    | none, frame :: rest =>
        have hpos : frame.1 ≠ 0 := Nat.pos_iff_ne_zero.mp frame.2
        simp [hnetif, hpos]
  · simp [hnetif]

end Call

/-! ## Runs -/

/-- The link's bit in `netif_event`, which counts while the task is not waiting. -/
def NetifPc.draining : NetifPc → NetLink → Bool
  | .wait, _ => false
  | .check _ event, link => event link
  | .loop event, link => event link

@[simp] theorem NetifPc.draining_next (event : NetLink → Bool) (at_ link : NetLink) :
    (NetifPc.next event at_).draining link = event link := by
  cases at_ with
  | sta => rfl
  | ap => rfl

/-- A frame in the queue of a link is going to be fetched, or to be announced. -/
def NetifTaskState.Announced (s : NetifTaskState) : Prop :=
  ∀ link, s.pending link = false → s.pc.draining link = false →
    (s.queue link).length ≤ s.unnotified link

section Steps

variable {s s' : NetifTaskState} {a : NetifTaskAction} {o : RxSurroundings}
  {link : NetLink} {event : NetLink → Bool}

theorem announced_arrive (h : s.Announced) {frame : RxFrame}
    (hstep : netifTaskStep s (.arrive link frame) = some s') : s'.Announced := by
  obtain rfl := Option.some.inj hstep
  intro other hpending hdraining
  have hother := h other hpending hdraining
  by_cases heq : other = link
  · subst heq
    simp only [Function.update_self, List.length_append, List.length_singleton]
    omega
  · simpa [Function.update_of_ne heq] using hother

theorem announced_notify (h : s.Announced)
    (hstep : netifTaskStep s (.notify link) = some s') : s'.Announced := by
  simp only [netifTaskStep] at hstep
  split_ifs at hstep
  obtain rfl := Option.some.inj hstep
  intro other hpending hdraining
  by_cases heq : other = link
  · subst heq
    simp at hpending
  · simp only [Function.update_of_ne heq] at hpending ⊢
    exact h other hpending hdraining

/-- The bit of the link is cleared when the queue is empty, or by a failed call. -/
theorem announced_check (h : s.Announced) (hpc : s.pc = .check link event)
    (hguard : LeavesNoFrame s (.task o)) : (netifCheck s link event o).Announced := by
  intro other hpending hdraining
  unfold netifCheck at hpending hdraining ⊢
  by_cases hevent : event link = true
  · simp only [if_pos hevent, NetifPc.draining_next] at hpending hdraining ⊢
    by_cases heq : other = link
    · subst heq
      simp only [Function.update_self, length_netifInput]
      split_ifs at hdraining with hret
      · rcases netifRxProcess_nonpos_iff.mp hret with hempty | hfails
        · simp [RxSurroundings.left, hempty]
        · simp only [LeavesNoFrame, hpc] at hguard
          exact hguard hevent hfails hpending
      · rw [hevent] at hdraining
        exact nomatch hdraining
    · have hold : s.pc.draining other = false := by
        rw [hpc]
        split_ifs at hdraining with hret
        · simpa [NetifPc.draining, Function.update_of_ne heq] using hdraining
        · exact hdraining
      rw [Function.update_of_ne heq]
      exact h other hpending hold
  · simp only [if_neg hevent, NetifPc.draining_next] at hpending hdraining ⊢
    apply h other hpending
    rw [hpc]
    exact hdraining

theorem announced_task (h : s.Announced) (hguard : LeavesNoFrame s (.task o))
    (hstep : netifTaskStep s (.task o) = some s') : s'.Announced := by
  simp only [netifTaskStep, netifTask] at hstep
  match hpc : s.pc with
  | .wait =>
      simp only [hpc] at hstep
      split_ifs at hstep
      obtain rfl := Option.some.inj hstep
      intro link _ hdraining
      exact h link hdraining (by rw [hpc]; rfl)
  | .check link event =>
      simp only [hpc] at hstep
      obtain rfl := Option.some.inj hstep
      exact announced_check h hpc hguard
  | .loop event =>
      simp only [hpc] at hstep
      split_ifs at hstep with hevent
      · obtain rfl := Option.some.inj hstep
        intro link hpending hdraining
        apply h link hpending
        rw [hpc]
        exact hdraining
      · obtain rfl := Option.some.inj hstep
        intro link hpending _
        apply h link hpending
        simp only [not_or, Bool.not_eq_true] at hevent
        rw [hpc]
        cases link with
        | sta => exact hevent.1
        | ap => exact hevent.2

theorem announced_of_reachable (h : netifTaskMachine.ReachableVia LeavesNoFrame s) :
    s.Announced := by
  apply h.invariant
  · rintro s rfl link - -
    exact Nat.le_refl 0
  · intro s a s' hs hguard hstep
    match a with
    | .arrive _ _ => exact announced_arrive hs hstep
    | .notify _ => exact announced_notify hs hstep
    | .task _ => exact announced_task hs hguard hstep

/-- When no call fails for one frame and leaves others, the task never blocks with
frames that nothing announces. -/
theorem noLostWakeup (h : netifTaskMachine.ReachableVia LeavesNoFrame s) :
    NoLostWakeup s := by
  have hannounced := announced_of_reachable h
  have hqueued (hpc : s.pc = .wait) (link : NetLink) (hpending : s.pending link = false) :
      (s.queue link).length ≤ s.unnotified link :=
    hannounced link hpending (by rw [hpc]; rfl)
  refine ⟨hqueued, fun hpc hpending hunnotified link => ?_⟩
  have hlen := hqueued hpc link (hpending link)
  rw [hunnotified link] at hlen
  exact List.eq_nil_of_length_eq_zero (Nat.le_zero.mp hlen)

end Steps

/-- Surroundings in which everything succeeds. -/
def rxSucceeds : RxSurroundings := ⟨true, none, true, true, true⟩

/-- The input of the interface refuses the frame. -/
def rxInputError : RxSurroundings := ⟨true, none, true, true, false⟩

def rxFrame : RxFrame := ⟨60, Nat.succ_pos 59⟩

/-- The input refuses the only frame in the queue. -/
theorem noLostWakeup_one :
    ∃ s : NetifTaskState, (s.pc.draining .sta = false ∧ s.queue .sta = []) ∧
      netifTaskMachine.ReachableVia LeavesNoFrame s ∧ NoLostWakeup s := by
  have hreach : netifTaskMachine.ReachableVia LeavesNoFrame _ :=
    (Machine.ReachableVia.init (M := netifTaskMachine) rfl).run
      [.arrive .sta rxFrame, .notify .sta, .task rxSucceeds, .task rxInputError,
        .task rxSucceeds, .task rxSucceeds] (by decide) rfl
  exact ⟨_, ⟨rfl, rfl⟩, hreach, noLostWakeup hreach⟩

/-- The input refuses the first of two frames: the task blocks, and the second frame
stays in the queue. -/
theorem not_noLostWakeup_two :
    ¬ ∀ s, netifTaskMachine.Reachable s → NoLostWakeup s := by
  intro hall
  have hreach := netifTaskMachine.reachable_of_run (s := netifTaskInit) rfl
    [.arrive .sta rxFrame, .notify .sta, .arrive .sta rxFrame, .notify .sta,
      .task rxSucceeds, .task rxInputError, .task rxSucceeds, .task rxSucceeds] rfl
  have hqueued := (hall _ hreach).queued rfl .sta rfl
  exact absurd hqueued (by decide)

/-! ## A step that leaves a frame -/

section Lost

variable {s : NetifTaskState} {event : NetLink → Bool}

/-- The interface is not there, so a call fails and takes no frame. -/
def rxNoInterface : RxSurroundings := ⟨false, none, false, false, false⟩

theorem netifCheck_noInterface (s : NetifTaskState) (link : NetLink)
    (event : NetLink → Bool) :
    netifCheck s link event rxNoInterface =
      { s with pc := .next (Function.update event link false) link } := by
  unfold netifCheck
  by_cases hevent : event link = true
  · rw [if_pos hevent]
    simp [netifInput, rxNoInterface, RxSurroundings.answers, netifRxProcess]
  · rw [if_neg hevent]
    have : Function.update event link false = event := by
      rw [Function.update_eq_self_iff]
      simpa using hevent
    rw [this]

/-- From the start of a round the task can come to its wait without an arrival. -/
theorem run_check_sta (hpc : s.pc = .check .sta event) :
    netifTaskMachine.run s
        [.task rxNoInterface, .task rxNoInterface, .task rxNoInterface] =
      some { s with pc := .wait } := by
  simp [Machine.run, netifTaskMachine, netifTaskStep, netifTask, hpc,
    netifCheck_noInterface, NetifPc.next]

theorem run_loop (hpc : s.pc = .loop event) :
    ∃ as, netifTaskMachine.run s as = some { s with pc := .wait } := by
  by_cases hevent : event .sta = true ∨ event .ap = true
  · refine ⟨[.task rxNoInterface, .task rxNoInterface, .task rxNoInterface,
      .task rxNoInterface], ?_⟩
    have hstep : netifTaskMachine.step s (.task rxNoInterface) =
        some { s with pc := .check .sta event } := by
      simp [netifTaskMachine, netifTaskStep, netifTask, hpc, hevent]
    rw [Machine.run, hstep]
    exact run_check_sta rfl
  · refine ⟨[.task rxNoInterface], ?_⟩
    simp only [not_or, Bool.not_eq_true] at hevent
    simp [Machine.run, netifTaskMachine, netifTaskStep, netifTask, hpc, hevent]

/-- From every place of the loop the task can come to its wait with the queues and the
bits as they are. -/
theorem run_next (link : NetLink) (hpc : s.pc = .next event link) :
    ∃ as, netifTaskMachine.run s as = some { s with pc := .wait } := by
  cases link with
  | sta =>
      have hstep : netifTaskMachine.step s (.task rxNoInterface) =
          some { s with pc := .loop (Function.update event .ap false) } := by
        simp [netifTaskMachine, netifTaskStep, netifTask, hpc, NetifPc.next,
          netifCheck_noInterface]
      obtain ⟨as, has⟩ := run_loop (s := { s with
        pc := .loop (Function.update event .ap false) }) rfl
      refine ⟨.task rxNoInterface :: as, ?_⟩
      rw [Machine.run, hstep]
      exact has
  | ap => exact run_loop hpc

/-- A step that does not meet the condition can be followed by steps of the task alone
to a wait that misses a frame. -/
theorem exists_lost_of_not_leavesNoFrame {a : NetifTaskAction}
    (h : ¬ LeavesNoFrame s a) :
    ∃ as s', netifTaskMachine.run s (a :: as) = some s' ∧ ¬ NoLostWakeup s' := by
  match a, h with
  | .arrive _ _, h => exact absurd trivial h
  | .notify _, h => exact absurd trivial h
  | .task o, h =>
      match hpc : s.pc with
      | .wait => simp [LeavesNoFrame, hpc] at h
      | .loop event => simp [LeavesNoFrame, hpc] at h
      | .check link event =>
          simp only [LeavesNoFrame, hpc] at h
          push Not at h
          obtain ⟨hevent, hfails, hpending, hleft⟩ := h
          have hret : (netifRxProcess 0 (netifInput o (s.queue link)).1).ret ≤ 0 :=
            netifRxProcess_nonpos_iff.mpr (Or.inr hfails)
          have hstep : netifTaskMachine.step s (.task o) = some (netifCheck s link event o) := by
            simp [netifTaskMachine, netifTaskStep, netifTask, hpc]
          have hcheck : netifCheck s link event o =
              { s with
                queue := Function.update s.queue link (netifInput o (s.queue link)).2
                pc := .next (Function.update event link false) link } := by
            simp only [netifCheck, if_pos hevent, if_pos hret]
          rw [hcheck] at hstep
          obtain ⟨as, has⟩ := run_next (s := { s with
            queue := Function.update s.queue link (netifInput o (s.queue link)).2
            pc := .next (Function.update event link false) link }) link rfl
          refine ⟨as, _, by rw [Machine.run, hstep]; exact has, fun hlost => ?_⟩
          have hqueued := hlost.queued rfl link hpending
          simp only [Function.update_self, length_netifInput] at hqueued
          omega

end Lost

end RtpMulticast
