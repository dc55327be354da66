import Mathlib.Logic.Function.Basic
import RtpMulticast.Support.Machine
import RtpMulticast.Rtp.Definitions

/-!
# Lifetime of the receive task

One application task creates and deletes a sender, again and again on the same
object; every creation starts a receive task.  The cleanup of a sender waits
until the receive task has reported its completion.  Then the task reads its
own handle from the sender object and deletes what it finds there: nothing
keeps the application from creating the sender anew before that.

A step is one access of the shared object, of an event group or of the
scheduler.  Calls that return before they change anything are left out.
-/

namespace RtpMulticast

/-! ## Tasks and event groups -/

/-- The bits of an event group and whether it was deleted. -/
structure EventGroup where
  start : Bool
  abort : Bool
  completed : Bool
  deleted : Bool
  deriving DecidableEq, Repr

def newEventGroup : EventGroup := ⟨false, false, false, false⟩

/-- Where a receive task is; `completed` is behind the report of its completion
and `deleting` behind the read of its handle.  A task that has returned from
its function or used no valid event group is `lost`. -/
inductive RxPlace where
  | absent
  | created
  | waiting (event : ℕ)
  | loop
  | receiving
  | finishing
  | completed
  | deleting (handle : Option ℕ)
  | ended
  | lost
  deriving DecidableEq, Repr

/-- Where the application is in `w6x_rtp_sender_create`, up to `start`, in
`w6x_rtp_sender_delete`, at `unname`, and in `_w6x_rtp_sender_cleanup`. -/
inductive ControlPc where
  | idle
  | reset
  | event
  | mutex
  | task
  | rtpSocket
  | rtcpSocket
  | name
  | start
  | unname
  | abort
  | wait
  | deleteEvent
  | crashed
  deriving DecidableEq, Repr

/-- The sender object with the tasks and event groups ever made for it.
`rtcpSocket` says whether the socket field is valid and `deletedBy` records
which task deleted a task. -/
structure TaskLifetime where
  id : UInt32
  rtcpTask : Option ℕ
  rtcpEvent : Option ℕ
  rtcpSocket : Bool
  groups : ℕ → EventGroup
  groupCount : ℕ
  tasks : ℕ → RxPlace
  taskCount : ℕ
  deletedBy : ℕ → Option ℕ
  control : ControlPc

inductive LifetimeAction where
  | create
  | delete
  /-- The next step of the application; `ok` is the answer of the call. -/
  | control (ok : Bool)
  | task (t : ℕ)
  deriving DecidableEq, Repr

namespace TaskLifetime

def setTask (s : TaskLifetime) (t : ℕ) (place : RxPlace) : TaskLifetime :=
  { s with tasks := Function.update s.tasks t place }

def setGroup (s : TaskLifetime) (g : ℕ) (group : EventGroup) : TaskLifetime :=
  { s with groups := Function.update s.groups g group }

def goto (s : TaskLifetime) (control : ControlPc) : TaskLifetime :=
  { s with control := control }

/-! ## The application -/

/-- The next step of a creation, a deletion or a cleanup. -/
def controlStep (s : TaskLifetime) (ok : Bool) : Option TaskLifetime :=
  match s.control with
  | .idle | .crashed => none
  | .reset =>
      some ({ s with
        id := 0, rtcpTask := none, rtcpEvent := none
        rtcpSocket := false }.goto .event)
  | .event =>
      if ok then
        some ({ s with
          rtcpEvent := some s.groupCount
          groups := Function.update s.groups s.groupCount newEventGroup
          groupCount := s.groupCount + 1 }.goto .mutex)
      else some (s.goto .abort)
  | .mutex => some (s.goto (if ok then .task else .abort))
  | .task =>
      -- The handle is written before the new task can run.
      if ok then
        some ({ s with
          rtcpTask := some s.taskCount
          tasks := Function.update s.tasks s.taskCount .created
          taskCount := s.taskCount + 1 }.goto .rtpSocket)
      else some (s.goto .abort)
  | .rtpSocket => some (s.goto (if ok then .rtcpSocket else .abort))
  | .rtcpSocket =>
      if ok then some ({ s with rtcpSocket := true }.goto .name)
      else some (s.goto .abort)
  | .name => some ({ s with id := rtpSenderId }.goto .start)
  | .start =>
      match s.rtcpEvent with
      | some g =>
          some ((s.setGroup g { s.groups g with start := true }).goto .idle)
      | none => some (s.goto .crashed)
  | .unname => some ({ s with id := 0 }.goto .abort)
  | .abort =>
      if s.rtcpTask = none then some (s.goto .deleteEvent)
      else
        match s.rtcpEvent with
        | some g =>
            some ((s.setGroup g { s.groups g with abort := true }).goto .wait)
        | none => some (s.goto .crashed)
  | .wait =>
      match s.rtcpEvent with
      | some g =>
          if (s.groups g).completed then some (s.goto .deleteEvent) else none
      | none => some (s.goto .crashed)
  | .deleteEvent =>
      match s.rtcpEvent with
      | some g =>
          some ((s.setGroup g { s.groups g with deleted := true }).goto .idle)
      | none => some (s.goto .idle)

/-! ## The receive task -/

/-- The next step of `_w6x_rtcp_packet_rx_task`. -/
def taskStep (s : TaskLifetime) (t : ℕ) : Option TaskLifetime :=
  match s.tasks t with
  | .absent | .ended | .lost => none
  | .created =>
      match s.rtcpEvent with
      | some g => some (s.setTask t (.waiting g))
      | none => some (s.setTask t .lost)
  | .waiting g =>
      let group := s.groups g
      if group.start ∨ group.abort ∨ group.deleted then
        some (s.setTask t
          (if group.start ∧ ¬ group.abort then .loop else .finishing))
      else none
  | .loop =>
      some (s.setTask t
        (if s.id = rtpSenderId ∧ s.rtcpSocket then .receiving else .finishing))
  | .receiving => some (s.setTask t .loop)
  | .finishing =>
      match s.rtcpEvent with
      | some g =>
          if (s.groups g).deleted then some (s.setTask t .lost)
          else
            some ((s.setGroup g { s.groups g with completed := true }).setTask t
              .completed)
      | none => some (s.setTask t .lost)
  | .completed => some (s.setTask t (.deleting s.rtcpTask))
  | .deleting handle =>
      -- A null handle stands for the calling task.
      let target := handle.getD t
      some { (s.setTask t .lost).setTask target .ended with
        deletedBy := Function.update s.deletedBy target (some t) }

end TaskLifetime

/-- All interleavings of the application with the receive tasks it creates,
from a sender object that was never used. -/
def lifetimeMachine : Machine TaskLifetime LifetimeAction where
  init s :=
    s.id ≠ rtpSenderId ∧ s.control = .idle ∧ (∀ t, s.tasks t = .absent) ∧
      (∀ g, s.groups g = newEventGroup) ∧ s.groupCount = 0 ∧
      s.taskCount = 0 ∧ ∀ t, s.deletedBy t = none
  step s
    | .create =>
        if s.control = .idle then
          some (if s.id = rtpSenderId then s else s.goto .reset)
        else none
    | .delete =>
        if s.control = .idle then
          some (if s.id = rtpSenderId then s.goto .unname else s)
        else none
    | .control ok => s.controlStep ok
    | .task t => s.taskStep t

/-! ## What should hold -/

/-- The task serves the sender: it waits for its start or receives. -/
def RxPlace.Serves : RxPlace → Prop
  | .created | .waiting _ | .loop | .receiving => True
  | _ => False

/-- Tasks are deleted by themselves only, and a sender that was created has
its receive task. -/
structure TaskLifetime.SelfDeleting (s : TaskLifetime) : Prop where
  self : ∀ t u, s.deletedBy t = some u → u = t
  alive : s.id = rtpSenderId →
    ∃ t, s.rtcpTask = some t ∧ (s.tasks t).Serves ∧ s.deletedBy t = none

/-- No receive task is created while another one has reported its completion
and not yet read its handle. -/
def HandleRead (s : TaskLifetime) : LifetimeAction → Prop
  | .control ok =>
      s.control = .task → ok = true → ∀ t, s.tasks t ≠ .completed
  | _ => True

/-! ## What a receive task can do -/

/-- The moves of a task that change its own place only. -/
inductive TaskLifetime.Moves (s : TaskLifetime) : RxPlace → RxPlace → Prop
  | wait {g : ℕ} (hevent : s.rtcpEvent = some g) : Moves s .created (.waiting g)
  | unready (hevent : s.rtcpEvent = none) : Moves s .created .lost
  | start {g : ℕ} (hstart : (s.groups g).start = true)
      (habort : (s.groups g).abort = false) : Moves s (.waiting g) .loop
  | abort {g : ℕ}
      (habort : (s.groups g).abort = true ∨ (s.groups g).deleted = true) :
      Moves s (.waiting g) .finishing
  | receive (hid : s.id = rtpSenderId) : Moves s .loop .receiving
  | leave (hid : s.id = rtpSenderId → s.rtcpSocket = false) :
      Moves s .loop .finishing
  | again : Moves s .receiving .loop
  | unreported
      (hevent : ∀ g, s.rtcpEvent = some g → (s.groups g).deleted = true) :
      Moves s .finishing .lost
  | read : Moves s .completed (.deleting s.rtcpTask)

namespace TaskLifetime

variable {s s' : TaskLifetime} {t u g : ℕ}

theorem taskStep_cases (h : s.taskStep u = some s') :
    (∃ place, s.Moves (s.tasks u) place ∧ s' = s.setTask u place) ∨
      (∃ g, s.tasks u = .finishing ∧ s.rtcpEvent = some g ∧
        s' = (s.setGroup g { s.groups g with completed := true }).setTask u
          .completed) ∨
      (∃ handle, s.tasks u = .deleting handle ∧
        s' = { (s.setTask u .lost).setTask (handle.getD u) .ended with
          deletedBy := Function.update s.deletedBy (handle.getD u)
            (some u) }) := by
  rw [taskStep] at h
  cases hu : s.tasks u with
  | absent =>
      rw [hu] at h
      cases h
  | created =>
      rw [hu] at h
      cases hevent : s.rtcpEvent with
      | none =>
          simp only [hevent, Option.some.injEq] at h
          exact Or.inl ⟨_, .unready hevent, h.symm⟩
      | some g =>
          simp only [hevent, Option.some.injEq] at h
          exact Or.inl ⟨_, .wait hevent, h.symm⟩
  | waiting g =>
      rw [hu] at h
      simp only at h
      split at h
      · next hbits =>
          simp only [Option.some.injEq] at h
          split at h
          · next hstart =>
              exact Or.inl ⟨_, .start hstart.1 (by simpa using hstart.2),
                h.symm⟩
          · next hstart =>
              refine Or.inl ⟨_, .abort ?_, h.symm⟩
              rcases hbits with hbit | hbit | hbit
              · simp only [hbit, true_and, Bool.not_eq_true] at hstart
                exact Or.inl (by simpa using hstart)
              · exact Or.inl hbit
              · exact Or.inr hbit
      · cases h
  | loop =>
      rw [hu] at h
      simp only [Option.some.injEq] at h
      split at h
      · next hid => exact Or.inl ⟨_, .receive hid.1, h.symm⟩
      · next hid =>
          refine Or.inl ⟨_, .leave ?_, h.symm⟩
          intro hs
          simpa [hs] using hid
  | receiving =>
      rw [hu] at h
      simp only [Option.some.injEq] at h
      exact Or.inl ⟨_, .again, h.symm⟩
  | finishing =>
      rw [hu] at h
      cases hevent : s.rtcpEvent with
      | none =>
          simp only [hevent, Option.some.injEq] at h
          refine Or.inl ⟨_, .unreported ?_, h.symm⟩
          intro g hg
          rw [hevent] at hg
          cases hg
      | some g =>
          simp only [hevent] at h
          split at h
          · next hdeleted =>
              rw [Option.some.injEq] at h
              refine Or.inl ⟨_, .unreported ?_, h.symm⟩
              intro g' hg
              rw [hevent] at hg
              cases hg
              exact hdeleted
          · rw [Option.some.injEq] at h
            exact Or.inr (Or.inl ⟨g, rfl, rfl, h.symm⟩)
  | completed =>
      rw [hu] at h
      simp only [Option.some.injEq] at h
      exact Or.inl ⟨_, .read, h.symm⟩
  | deleting handle =>
      rw [hu] at h
      simp only [Option.some.injEq] at h
      exact Or.inr (Or.inr ⟨handle, rfl, h.symm⟩)
  | ended =>
      rw [hu] at h
      cases h
  | lost =>
      rw [hu] at h
      cases h

/-! ## Phases of the sender -/

/-- The task has not reported its completion yet. -/
def Active (s : TaskLifetime) (t : ℕ) : Prop :=
  (s.tasks t).Serves ∨ s.tasks t = .finishing

/-- There is no sender and no task that works for it. -/
structure Quiet (s : TaskLifetime) : Prop where
  id : s.id ≠ rtpSenderId
  none : ∀ t, ¬ s.Active t

/-- Task `t` works for the sender, with event group `g`. -/
structure Current (s : TaskLifetime) (t g : ℕ) : Prop where
  handle : s.rtcpTask = some t
  event : s.rtcpEvent = some g
  only : ∀ u, s.Active u → u = t
  waits : ∀ g', s.tasks t = .waiting g' → g' = g
  pending : s.Active t →
    (s.groups g).completed = false ∧ (s.groups g).deleted = false

/-- The task waits for the end of the creation. -/
structure Starting (s : TaskLifetime) (t g : ℕ) : Prop where
  id : s.id ≠ rtpSenderId
  current : s.Current t g
  place : s.tasks t = .created ∨ s.tasks t = .waiting g
  start : (s.groups g).start = false
  abort : (s.groups g).abort = false

structure Serving (s : TaskLifetime) (t g : ℕ) : Prop where
  id : s.id = rtpSenderId
  socket : s.rtcpSocket = true
  current : s.Current t g
  place : (s.tasks t).Serves
  abort : (s.groups g).abort = false

structure Stopping (s : TaskLifetime) (t g : ℕ) : Prop where
  id : s.id ≠ rtpSenderId
  current : s.Current t g

/-- The phase at a place of the application. -/
def Phase (s : TaskLifetime) : ControlPc → Prop
  | .idle => s.Quiet ∨ ∃ t g, s.Serving t g
  | .reset | .deleteEvent => s.Quiet
  | .event => s.Quiet ∧ s.rtcpTask = none
  | .mutex | .task =>
      (s.Quiet ∧ s.rtcpTask = none) ∧
        ∃ g, s.rtcpEvent = some g ∧ s.groups g = newEventGroup
  | .rtpSocket | .rtcpSocket => ∃ t g, s.Starting t g
  | .name => s.rtcpSocket = true ∧ ∃ t g, s.Starting t g
  | .start | .unname => ∃ t g, s.Serving t g
  | .abort => s.Quiet ∧ s.rtcpTask = none ∨ ∃ t g, s.Stopping t g
  | .wait => ∃ t g, s.Stopping t g
  | .crashed => False

theorem Phase.cases {pc : ControlPc} (h : s.Phase pc) :
    s.Quiet ∨ (∃ t g, s.Starting t g) ∨ (∃ t g, s.Serving t g) ∨
      ∃ t g, s.Stopping t g := by
  cases pc with
  | idle => exact h.elim Or.inl fun hs => Or.inr (Or.inr (Or.inl hs))
  | reset => exact Or.inl h
  | event => exact Or.inl h.1
  | mutex => exact Or.inl h.1.1
  | task => exact Or.inl h.1.1
  | rtpSocket => exact Or.inr (Or.inl h)
  | rtcpSocket => exact Or.inr (Or.inl h)
  | name => exact Or.inr (Or.inl h.2)
  | start => exact Or.inr (Or.inr (Or.inl h))
  | unname => exact Or.inr (Or.inr (Or.inl h))
  | abort =>
      rcases h with hq | hs
      · exact Or.inl hq.1
      · exact Or.inr (Or.inr (Or.inr hs))
  | wait => exact Or.inr (Or.inr (Or.inr h))
  | deleteEvent => exact Or.inl h
  | crashed => exact h.elim

/-- A task that works for the sender is the one whose handle it has. -/
theorem Phase.handle {pc : ControlPc} (h : s.Phase pc) (ht : s.Active t) :
    s.rtcpTask = some t := by
  have hcurrent : ∀ {t' g}, s.Current t' g → s.rtcpTask = some t := by
    intro t' g hc
    rw [hc.only t ht]
    exact hc.handle
  rcases h.cases with hq | ⟨_, _, hs⟩ | ⟨_, _, hs⟩ | ⟨_, _, hs⟩
  · exact absurd ht (hq.none t)
  · exact hcurrent hs.current
  · exact hcurrent hs.current
  · exact hcurrent hs.current

/-- While the sender has its id, its task serves it. -/
theorem Phase.serving {pc : ControlPc} (h : s.Phase pc)
    (hid : s.id = rtpSenderId) : ∃ t g, s.Serving t g := by
  rcases h.cases with hq | ⟨_, _, hs⟩ | hs | ⟨_, _, hs⟩
  · exact absurd hid hq.id
  · exact absurd hid hs.id
  · exact hs
  · exact absurd hid hs.id

/-- A step of a task that keeps each of the phases. -/
structure Keeps (s s' : TaskLifetime) : Prop where
  handle : s'.rtcpTask = s.rtcpTask
  socket : s'.rtcpSocket = s.rtcpSocket
  event : s'.rtcpEvent = s.rtcpEvent
  groups : s.Quiet → s'.groups = s.groups
  quiet : s.Quiet → s'.Quiet
  starting : ∀ t g, s.Starting t g → s'.Starting t g
  serving : ∀ t g, s.Serving t g → s'.Serving t g
  stopping : ∀ t g, s.Stopping t g → s'.Stopping t g

theorem Keeps.phase (h : Keeps s s') {pc : ControlPc} (hphase : s.Phase pc) :
    s'.Phase pc := by
  have hstarting : (∃ t g, s.Starting t g) → ∃ t g, s'.Starting t g :=
    fun ⟨t, g, hs⟩ => ⟨t, g, h.starting t g hs⟩
  have hserving : (∃ t g, s.Serving t g) → ∃ t g, s'.Serving t g :=
    fun ⟨t, g, hs⟩ => ⟨t, g, h.serving t g hs⟩
  have hstopping : (∃ t g, s.Stopping t g) → ∃ t g, s'.Stopping t g :=
    fun ⟨t, g, hs⟩ => ⟨t, g, h.stopping t g hs⟩
  have hblank : s.Quiet ∧ s.rtcpTask = none → s'.Quiet ∧ s'.rtcpTask = none :=
    fun ⟨hq, hnone⟩ => ⟨h.quiet hq, h.handle.trans hnone⟩
  have hevent : s.Phase .mutex →
      ∃ g, s'.rtcpEvent = some g ∧ s'.groups g = newEventGroup :=
    fun ⟨⟨hq, _⟩, g, hg, hgroup⟩ =>
      ⟨g, h.event.trans hg, (congrFun (h.groups hq) g).trans hgroup⟩
  cases pc with
  | idle => exact hphase.imp h.quiet hserving
  | reset => exact h.quiet hphase
  | event => exact hblank hphase
  | mutex => exact ⟨hblank hphase.1, hevent hphase⟩
  | task => exact ⟨hblank hphase.1, hevent hphase⟩
  | rtpSocket => exact hstarting hphase
  | rtcpSocket => exact hstarting hphase
  | name => exact ⟨h.socket.trans hphase.1, hstarting hphase.2⟩
  | start => exact hserving hphase
  | unname => exact hserving hphase
  | abort => exact hphase.imp hblank hstopping
  | wait => exact hstopping hphase
  | deleteEvent => exact h.quiet hphase
  | crashed => exact hphase

/-! ## Task steps -/

@[simp] theorem setTask_self (place : RxPlace) :
    (s.setTask u place).tasks u = place := by
  simp [setTask]

theorem setTask_of_ne (place : RxPlace) (hne : t ≠ u) :
    (s.setTask u place).tasks t = s.tasks t := by
  simp [setTask, hne]

theorem active_setTask_self {place : RxPlace} :
    (s.setTask u place).Active u ↔ place.Serves ∨ place = .finishing := by
  simp [Active]

theorem active_setTask_of_ne {place : RxPlace} (hne : t ≠ u) :
    (s.setTask u place).Active t ↔ s.Active t := by
  simp [Active, setTask_of_ne place hne]

theorem Quiet.setTask (h : s.Quiet) {place : RxPlace}
    (hplace : ¬ (place.Serves ∨ place = .finishing)) :
    (s.setTask u place).Quiet := by
  refine ⟨h.id, fun t => ?_⟩
  by_cases hne : t = u
  · rw [hne, active_setTask_self]
    exact hplace
  · rw [active_setTask_of_ne hne]
    exact h.none t

/-- A task that works for the sender moves on, or another one stays away. -/
theorem Current.setTask (h : s.Current t g) {place : RxPlace}
    (hu : s.Active u ∨ ¬ (place.Serves ∨ place = .finishing))
    (hwaits : ∀ g', place = .waiting g' → g' = g) :
    (s.setTask u place).Current t g := by
  refine ⟨h.handle, h.event, ?_, ?_, ?_⟩
  · intro v hv
    by_cases hne : v = u
    · subst hne
      rw [active_setTask_self] at hv
      exact h.only v (hu.resolve_right (not_not_intro hv))
    · rw [active_setTask_of_ne hne] at hv
      exact h.only v hv
  · intro g' hg'
    by_cases hne : t = u
    · subst hne
      rw [setTask_self] at hg'
      exact hwaits g' hg'
    · rw [setTask_of_ne place hne] at hg'
      exact h.waits g' hg'
  · intro ht
    by_cases hne : t = u
    · subst hne
      rw [active_setTask_self] at ht
      exact h.pending (hu.resolve_right (not_not_intro ht))
    · rw [active_setTask_of_ne hne] at ht
      exact h.pending ht

theorem Moves.cases {place place' : RxPlace} (h : s.Moves place place') :
    (place.Serves ∨ place = .finishing) ∨
      place = .completed ∧ place' = .deleting s.rtcpTask := by
  cases h with
  | read => exact Or.inr ⟨rfl, rfl⟩
  | unreported hevent => exact Or.inl (Or.inr rfl)
  | wait hevent => exact Or.inl (Or.inl trivial)
  | unready hevent => exact Or.inl (Or.inl trivial)
  | start hstart habort => exact Or.inl (Or.inl trivial)
  | abort habort => exact Or.inl (Or.inl trivial)
  | receive hid => exact Or.inl (Or.inl trivial)
  | leave hid => exact Or.inl (Or.inl trivial)
  | again => exact Or.inl (Or.inl trivial)

theorem Moves.waits {place : RxPlace} {g' : ℕ}
    (h : s.Moves place (.waiting g')) : s.rtcpEvent = some g' := by
  cases h with
  | wait hevent => exact hevent

theorem Moves.current {place : RxPlace} (h : s.Moves (s.tasks u) place)
    (hc : s.Current t g) : (s.setTask u place).Current t g := by
  apply hc.setTask
  · rcases h.cases with hactive | ⟨-, rfl⟩
    · exact Or.inl hactive
    · exact Or.inr (by simp [RxPlace.Serves])
  · rintro g' rfl
    have hevent := h.waits
    rw [hc.event, Option.some.injEq] at hevent
    exact hevent.symm

/-- Moves of the tasks keep the phases. -/
theorem Moves.keeps {place : RxPlace} (h : s.Moves (s.tasks u) place) :
    Keeps s (s.setTask u place) := by
  refine ⟨rfl, rfl, rfl, fun _ => rfl, ?_, ?_, ?_, ?_⟩
  · intro hq
    rcases h.cases with hactive | ⟨-, rfl⟩
    · exact absurd hactive (hq.none u)
    · exact hq.setTask (by simp [RxPlace.Serves])
  · intro t g hs
    refine ⟨hs.id, h.current hs.current, ?_, hs.start, hs.abort⟩
    by_cases hne : t = u
    · subst hne
      rw [setTask_self]
      rcases hs.place with hplace | hplace
      · rw [hplace] at h
        cases h with
        | wait hevent =>
            rw [hs.current.event, Option.some.injEq] at hevent
            exact Or.inr (congrArg _ hevent.symm)
        | unready hevent =>
            rw [hs.current.event] at hevent
            cases hevent
      · have hpending := hs.current.pending (Or.inl (by rw [hplace]; trivial))
        rw [hplace] at h
        cases h with
        | start hstart habort =>
            rw [hs.start] at hstart
            cases hstart
        | abort habort =>
            rw [hs.abort, hpending.2] at habort
            simp at habort
    · rw [setTask_of_ne place hne]
      exact hs.place
  · intro t g hs
    refine ⟨hs.id, hs.socket, h.current hs.current, ?_, hs.abort⟩
    by_cases hne : t = u
    · subst hne
      rw [setTask_self]
      have hpending := hs.current.pending (Or.inl hs.place)
      have hplace := hs.place
      have hwaits := hs.current.waits
      generalize s.tasks t = place₀ at h hplace hwaits
      cases h with
      | wait hevent => exact trivial
      | unready hevent =>
          rw [hs.current.event] at hevent
          cases hevent
      | start hstart habort => exact trivial
      | abort habort =>
          rw [hwaits _ rfl, hs.abort, hpending.2] at habort
          simp at habort
      | receive hid => exact trivial
      | leave hid =>
          have hsocket := hid hs.id
          rw [hs.socket] at hsocket
          cases hsocket
      | again => exact trivial
      | unreported hevent => exact hplace.elim
      | read => exact hplace.elim
    · rw [setTask_of_ne place hne]
      exact hs.place
  · intro t g hs
    exact ⟨hs.id, h.current hs.current⟩

/-- The report of the completion keeps the phases: only the current task of a
sender that stops makes it. -/
theorem keeps_completed (hu : s.tasks u = .finishing) :
    Keeps s ((s.setGroup g { s.groups g with completed := true }).setTask u
      .completed) := by
  have hactive : s.Active u := Or.inr hu
  have hdone : ¬ (RxPlace.Serves .completed ∨
      RxPlace.completed = .finishing) := by
    simp [RxPlace.Serves]
  refine ⟨rfl, rfl, rfl, ?_, ?_, ?_, ?_, ?_⟩
  · intro hq
    exact absurd hactive (hq.none u)
  · intro hq
    exact absurd hactive (hq.none u)
  · intro t g' hs
    have hplace := hs.place
    rw [← hs.current.only u hactive, hu] at hplace
    simp at hplace
  · intro t g' hs
    have hplace := hs.place
    rw [← hs.current.only u hactive, hu] at hplace
    exact hplace.elim
  · intro t g' hs
    have hut := hs.current.only u hactive
    subst hut
    refine ⟨hs.id, hs.current.handle, hs.current.event, ?_, ?_, ?_⟩
    · intro v hv
      by_cases hne : v = u
      · exact hne
      · rw [active_setTask_of_ne hne] at hv
        exact hs.current.only v hv
    · intro g'' hg
      rw [setTask_self] at hg
      cases hg
    · intro ht
      rw [active_setTask_self] at ht
      exact absurd ht hdone

/-- Who deleted whom is no part of the phases. -/
theorem Keeps.deletedBy (h : Keeps s s') (deletedBy : ℕ → Option ℕ) :
    Keeps s { s' with deletedBy := deletedBy } := by
  have hcurrent : ∀ t g, s'.Current t g →
      Current { s' with deletedBy := deletedBy } t g :=
    fun t g hc => ⟨hc.handle, hc.event, hc.only, hc.waits, hc.pending⟩
  refine ⟨h.handle, h.socket, h.event, h.groups, ?_, ?_, ?_, ?_⟩
  · intro hq
    have hq' := h.quiet hq
    exact ⟨hq'.id, hq'.none⟩
  · intro t g hs
    have hs' := h.starting t g hs
    exact ⟨hs'.id, hcurrent t g hs'.current, hs'.place, hs'.start, hs'.abort⟩
  · intro t g hs
    have hs' := h.serving t g hs
    exact ⟨hs'.id, hs'.socket, hcurrent t g hs'.current, hs'.place, hs'.abort⟩
  · intro t g hs
    have hs' := h.stopping t g hs
    exact ⟨hs'.id, hcurrent t g hs'.current⟩

/-- The end of a task that does no more work keeps the phases. -/
theorem keeps_ended (hu : ¬ s.Active u) : Keeps s (s.setTask u .ended) := by
  have hdone : ¬ (RxPlace.Serves .ended ∨ RxPlace.ended = .finishing) := by
    simp [RxPlace.Serves]
  have hcurrent : ∀ t g, s.Current t g →
      (s.setTask u .ended).Current t g := by
    intro t g hc
    apply hc.setTask (Or.inr hdone)
    intro g' hg
    cases hg
  have hplace : ∀ t, (s.tasks t).Serves →
      (s.setTask u .ended).tasks t = s.tasks t := by
    intro t ht
    apply setTask_of_ne
    rintro rfl
    exact hu (Or.inl ht)
  refine ⟨rfl, rfl, rfl, fun _ => rfl, fun hq => hq.setTask hdone, ?_, ?_, ?_⟩
  · intro t g hs
    refine ⟨hs.id, hcurrent t g hs.current, ?_, hs.start, hs.abort⟩
    rw [hplace t ?_]
    · exact hs.place
    · rcases hs.place with hp | hp
      · rw [hp]
        trivial
      · rw [hp]
        trivial
  · intro t g hs
    refine ⟨hs.id, hs.socket, hcurrent t g hs.current, ?_, hs.abort⟩
    rw [hplace t hs.place]
    exact hs.place
  · intro t g hs
    exact ⟨hs.id, hcurrent t g hs.current⟩

/-! ## The invariant -/

structure Inv (s : TaskLifetime) : Prop where
  phase : s.Phase s.control
  fresh : ∀ t, s.taskCount ≤ t → s.tasks t = .absent
  completed : ∀ t, s.tasks t = .completed →
    s.rtcpTask = some t ∨ s.rtcpTask = none
  deleting : ∀ t handle, s.tasks t = .deleting handle →
    handle = some t ∨ handle = none
  ended : ∀ t u, s.deletedBy t = some u → u = t ∧ s.tasks t = .ended

theorem Inv.selfDeleting (h : s.Inv) : s.SelfDeleting := by
  constructor
  · intro t u hdeleted
    exact (h.ended t u hdeleted).1
  · intro hid
    obtain ⟨t, g, hs⟩ := h.phase.serving hid
    refine ⟨t, hs.current.handle, hs.place, ?_⟩
    cases hdeleted : s.deletedBy t with
    | none => rfl
    | some u =>
        have hplace := hs.place
        rw [(h.ended t u hdeleted).2] at hplace
        exact hplace.elim

/-- A move of task `u` to `place` keeps what is known of the other places. -/
theorem Inv.setTask (h : s.Inv) {place : RxPlace}
    (hphase : s'.Phase s'.control) (htasks : s'.tasks = (s.setTask u place).tasks)
    (hcount : s'.taskCount = s.taskCount) (hhandle : s'.rtcpTask = s.rtcpTask)
    (hdeletedBy : s'.deletedBy = s.deletedBy) (hu : s.tasks u ≠ .absent)
    (hu' : s.tasks u ≠ .ended)
    (hcompleted : place = .completed →
      s.rtcpTask = some u ∨ s.rtcpTask = none)
    (hdeleting : ∀ handle, place = .deleting handle →
      handle = some u ∨ handle = none) : s'.Inv := by
  have hplace : ∀ t, t ≠ u → s'.tasks t = s.tasks t := by
    intro t hne
    rw [htasks, setTask_of_ne place hne]
  have hself : s'.tasks u = place := by
    rw [htasks, setTask_self]
  refine ⟨hphase, ?_, ?_, ?_, ?_⟩
  · intro t ht
    rw [hcount] at ht
    by_cases hne : t = u
    · subst hne
      exact absurd (h.fresh t ht) hu
    · rw [hplace t hne]
      exact h.fresh t ht
  · intro t ht
    rw [hhandle]
    by_cases hne : t = u
    · subst hne
      exact hcompleted (hself.symm.trans ht)
    · rw [hplace t hne] at ht
      exact h.completed t ht
  · intro t handle ht
    by_cases hne : t = u
    · subst hne
      exact hdeleting handle (hself.symm.trans ht)
    · rw [hplace t hne] at ht
      exact h.deleting t handle ht
  · intro t v ht
    rw [hdeletedBy] at ht
    obtain ⟨hv, hended⟩ := h.ended t v ht
    refine ⟨hv, ?_⟩
    rw [hplace t ?_]
    · exact hended
    · rintro rfl
      exact hu' hended

theorem Moves.ne {place place' : RxPlace} (h : s.Moves place place') :
    place ≠ .absent ∧ place ≠ .ended ∧ place' ≠ .completed := by
  cases h <;> simp

theorem Moves.deleting {place : RxPlace} {handle : Option ℕ}
    (h : s.Moves place (.deleting handle)) :
    place = .completed ∧ handle = s.rtcpTask := by
  cases h with
  | read => exact ⟨rfl, rfl⟩

theorem Inv.taskStep (h : s.Inv) (hstep : s.taskStep u = some s') :
    s'.Inv := by
  rcases taskStep_cases hstep with
    ⟨place, hmove, rfl⟩ | ⟨g, hu, hevent, rfl⟩ | ⟨handle, hu, rfl⟩
  · apply h.setTask (hmove.keeps.phase h.phase) rfl rfl rfl rfl
      hmove.ne.1 hmove.ne.2.1
    · intro hplace
      exact absurd hplace hmove.ne.2.2
    · rintro handle rfl
      obtain ⟨hu, rfl⟩ := hmove.deleting
      exact h.completed u hu
  · have hactive : s.Active u := Or.inr hu
    apply h.setTask ((keeps_completed hu).phase h.phase) rfl rfl rfl rfl
    · rw [hu]
      simp
    · rw [hu]
      simp
    · intro _
      exact Or.inl (h.phase.handle hactive)
    · intro handle hplace
      cases hplace
  · have htarget : handle.getD u = u := by
      rcases h.deleting u handle hu with rfl | rfl
      · rfl
      · rfl
    have htasks : (s.setTask u .lost).setTask u .ended =
        s.setTask u .ended := by
      simp [TaskLifetime.setTask]
    rw [htarget, htasks]
    have hinactive : ¬ s.Active u := by
      simp [Active, hu, RxPlace.Serves]
    have hphase := ((keeps_ended hinactive).deletedBy
      (Function.update s.deletedBy u (some u))).phase h.phase
    refine ⟨hphase, ?_, ?_, ?_, ?_⟩
    · intro t ht
      by_cases hne : t = u
      · subst hne
        have habsent := h.fresh t ht
        rw [hu] at habsent
        cases habsent
      · exact (setTask_of_ne _ hne).trans (h.fresh t ht)
    · intro t ht
      by_cases hne : t = u
      · subst hne
        have hplace := (setTask_self (s := s) (u := t) .ended).symm.trans ht
        cases hplace
      · exact h.completed t ((setTask_of_ne _ hne).symm.trans ht)
    · intro t handle' ht
      by_cases hne : t = u
      · subst hne
        have hplace := (setTask_self (s := s) (u := t) .ended).symm.trans ht
        cases hplace
      · exact h.deleting t handle' ((setTask_of_ne _ hne).symm.trans ht)
    · intro t v ht
      by_cases hne : t = u
      · subst hne
        simp only [Function.update_self, Option.some.injEq] at ht
        exact ⟨ht.symm, setTask_self _⟩
      · simp only [Function.update_of_ne hne] at ht
        obtain ⟨hv, hended⟩ := h.ended t v ht
        exact ⟨hv, (setTask_of_ne _ hne).trans hended⟩

/-! ## Steps of the application -/

/-- A step that changes no task needs the phase only. -/
theorem Inv.control (h : s.Inv) (hphase : s'.Phase s'.control)
    (htasks : s'.tasks = s.tasks) (hcount : s'.taskCount = s.taskCount)
    (hdeletedBy : s'.deletedBy = s.deletedBy)
    (hhandle : s'.rtcpTask = s.rtcpTask ∨ s'.rtcpTask = none) : s'.Inv := by
  refine ⟨hphase, ?_, ?_, ?_, ?_⟩
  · intro t ht
    rw [htasks]
    exact h.fresh t (hcount ▸ ht)
  · intro t ht
    rcases hhandle with hhandle | hhandle
    · rw [hhandle]
      exact h.completed t (htasks ▸ ht)
    · exact Or.inr hhandle
  · intro t handle ht
    exact h.deleting t handle (htasks ▸ ht)
  · intro t u ht
    rw [htasks]
    exact h.ended t u (hdeletedBy ▸ ht)

theorem keeps_goto (pc : ControlPc) : Keeps s (s.goto pc) := by
  have hcurrent : ∀ t g, s.Current t g → (s.goto pc).Current t g :=
    fun t g hc => ⟨hc.handle, hc.event, hc.only, hc.waits, hc.pending⟩
  refine ⟨rfl, rfl, rfl, fun _ => rfl, ?_, ?_, ?_, ?_⟩
  · intro hq
    exact ⟨hq.id, hq.none⟩
  · intro t g hs
    exact ⟨hs.id, hcurrent t g hs.current, hs.place, hs.start, hs.abort⟩
  · intro t g hs
    exact ⟨hs.id, hs.socket, hcurrent t g hs.current, hs.place, hs.abort⟩
  · intro t g hs
    exact ⟨hs.id, hcurrent t g hs.current⟩

theorem Inv.goto (h : s.Inv) {pc : ControlPc} (hphase : s.Phase pc) :
    (s.goto pc).Inv :=
  h.control ((keeps_goto pc).phase hphase) rfl rfl rfl (Or.inl rfl)

theorem Current.setGroup (h : s.Current t g) {group : EventGroup}
    (hcompleted : group.completed = (s.groups g).completed)
    (hdeleted : group.deleted = (s.groups g).deleted) :
    (s.setGroup g group).Current t g := by
  refine ⟨h.handle, h.event, h.only, h.waits, ?_⟩
  intro ht
  simp only [TaskLifetime.setGroup, Function.update_self]
  rw [hcompleted, hdeleted]
  exact h.pending ht

theorem zero_ne_rtpSenderId : (0 : UInt32) ≠ rtpSenderId := by decide

/-- The new task is the current one of a sender that starts. -/
theorem Inv.createTask (h : s.Inv) (hcontrol : s.control = .task)
    (hread : ∀ t, s.tasks t ≠ .completed) :
    Inv ({ s with
      rtcpTask := some s.taskCount
      tasks := Function.update s.tasks s.taskCount .created
      taskCount := s.taskCount + 1 }.goto .rtpSocket) := by
  have hphase := h.phase
  rw [hcontrol] at hphase
  obtain ⟨⟨hquiet, -⟩, g, hevent, hgroup⟩ := hphase
  have hother : ∀ t, t ≠ s.taskCount →
      Function.update s.tasks s.taskCount .created t = s.tasks t :=
    fun t hne => Function.update_of_ne hne _ _
  have hself : Function.update s.tasks s.taskCount .created s.taskCount =
      .created := Function.update_self _ _ _
  refine ⟨⟨s.taskCount, g, hquiet.id, ⟨rfl, hevent, ?_, ?_, ?_⟩,
    Or.inl hself, ?_, ?_⟩, ?_, ?_, ?_, ?_⟩
  · intro v hv
    by_contra hne
    have hv' : (Function.update s.tasks s.taskCount .created v).Serves ∨
      Function.update s.tasks s.taskCount .created v = .finishing := hv
    rw [hother v hne] at hv'
    exact hquiet.none v hv'
  · intro g' hg
    cases hself.symm.trans hg
  · intro _
    change (s.groups g).completed = false ∧ (s.groups g).deleted = false
    rw [hgroup]
    exact ⟨rfl, rfl⟩
  · change (s.groups g).start = false
    rw [hgroup]
    rfl
  · change (s.groups g).abort = false
    rw [hgroup]
    rfl
  · intro t ht
    have hlt : s.taskCount + 1 ≤ t := ht
    exact (hother t (by omega)).trans (h.fresh t (by omega))
  · intro t ht
    by_cases hne : t = s.taskCount
    · exact Or.inl (congrArg some hne.symm)
    · exact absurd ((hother t hne).symm.trans ht) (hread t)
  · intro t handle ht
    by_cases hne : t = s.taskCount
    · subst hne
      cases hself.symm.trans ht
    · exact h.deleting t handle ((hother t hne).symm.trans ht)
  · intro t u ht
    obtain ⟨hu, hended⟩ := h.ended t u ht
    refine ⟨hu, (hother t ?_).trans hended⟩
    rintro rfl
    rw [h.fresh s.taskCount le_rfl] at hended
    cases hended

theorem Starting.stopping (h : s.Starting t g) : s.Stopping t g :=
  ⟨h.id, h.current⟩

/-- The next step of a creation. -/
theorem Inv.creationStep (h : s.Inv) {ok : Bool}
    (hstep : s.controlStep ok = some s') (hread : HandleRead s (.control ok))
    (hcontrol : s.control ∈ [.reset, .event, .mutex, .task, .rtpSocket,
      .rtcpSocket, .name, .start]) : s'.Inv := by
  have hphase := h.phase
  simp only [List.mem_cons, List.not_mem_nil, or_false] at hcontrol
  rcases hcontrol with hc | hc | hc | hc | hc | hc | hc | hc
  · rw [hc] at hphase
    simp only [controlStep, hc, Option.some.injEq] at hstep
    subst hstep
    exact h.control ⟨⟨zero_ne_rtpSenderId, hphase.none⟩, rfl⟩ rfl rfl rfl
      (Or.inr rfl)
  · rw [hc] at hphase
    obtain ⟨hquiet, hnone⟩ := hphase
    cases ok with
    | true =>
        simp only [controlStep, hc, if_true, Option.some.injEq] at hstep
        subst hstep
        refine h.control ⟨⟨⟨hquiet.id, hquiet.none⟩, hnone⟩, s.groupCount, rfl,
          ?_⟩ rfl rfl rfl (Or.inl rfl)
        exact Function.update_self _ _ _
    | false =>
        simp only [controlStep, hc, Bool.false_eq_true, if_false,
          Option.some.injEq] at hstep
        subst hstep
        exact h.goto (Or.inl ⟨hquiet, hnone⟩)
  · rw [hc] at hphase
    simp only [controlStep, hc, Option.some.injEq] at hstep
    subst hstep
    cases ok with
    | true => exact h.goto hphase
    | false => exact h.goto (Or.inl hphase.1)
  · rw [hc] at hphase
    cases ok with
    | true =>
        simp only [controlStep, hc, if_true, Option.some.injEq] at hstep
        subst hstep
        exact h.createTask hc (hread hc rfl)
    | false =>
        simp only [controlStep, hc, Bool.false_eq_true, if_false,
          Option.some.injEq] at hstep
        subst hstep
        exact h.goto (Or.inl hphase.1)
  · rw [hc] at hphase
    obtain ⟨t, g, hs⟩ := hphase
    simp only [controlStep, hc, Option.some.injEq] at hstep
    subst hstep
    cases ok with
    | true => exact h.goto ⟨t, g, hs⟩
    | false => exact h.goto (Or.inr ⟨t, g, hs.stopping⟩)
  · rw [hc] at hphase
    obtain ⟨t, g, hs⟩ := hphase
    have hcur := hs.current
    cases ok with
    | true =>
        simp only [controlStep, hc, if_true, Option.some.injEq] at hstep
        subst hstep
        refine h.control ⟨rfl, t, g, hs.id, ?_, hs.place, hs.start, hs.abort⟩
          rfl rfl rfl (Or.inl rfl)
        exact ⟨hcur.handle, hcur.event, hcur.only, hcur.waits, hcur.pending⟩
    | false =>
        simp only [controlStep, hc, Bool.false_eq_true, if_false,
          Option.some.injEq] at hstep
        subst hstep
        exact h.goto (Or.inr ⟨t, g, hs.stopping⟩)
  · rw [hc] at hphase
    obtain ⟨hsocket, t, g, hs⟩ := hphase
    have hcur := hs.current
    have hserves : (s.tasks t).Serves := by
      rcases hs.place with hp | hp
      · rw [hp]
        trivial
      · rw [hp]
        trivial
    simp only [controlStep, hc, Option.some.injEq] at hstep
    subst hstep
    refine h.control ⟨t, g, rfl, hsocket, ?_, hserves, hs.abort⟩
      rfl rfl rfl (Or.inl rfl)
    exact ⟨hcur.handle, hcur.event, hcur.only, hcur.waits, hcur.pending⟩
  · rw [hc] at hphase
    obtain ⟨t, g, hs⟩ := hphase
    simp only [controlStep, hc, hs.current.event, Option.some.injEq] at hstep
    subst hstep
    have hcur : (s.setGroup g { s.groups g with start := true }).Current t g :=
      hs.current.setGroup rfl rfl
    refine h.control (Or.inr ⟨t, g, hs.id, hs.socket, ?_, hs.place, ?_⟩)
      rfl rfl rfl (Or.inl rfl)
    · exact ⟨hcur.handle, hcur.event, hcur.only, hcur.waits, hcur.pending⟩
    · simpa [TaskLifetime.setGroup, TaskLifetime.goto] using hs.abort

/-- The next step of a deletion or a cleanup. -/
theorem Inv.cleanupStep (h : s.Inv) {ok : Bool}
    (hstep : s.controlStep ok = some s')
    (hcontrol : s.control ∈ [.unname, .abort, .wait, .deleteEvent]) :
    s'.Inv := by
  have hphase := h.phase
  simp only [List.mem_cons, List.not_mem_nil, or_false] at hcontrol
  rcases hcontrol with hc | hc | hc | hc
  · rw [hc] at hphase
    obtain ⟨t, g, hs⟩ := hphase
    have hcur := hs.current
    simp only [controlStep, hc, Option.some.injEq] at hstep
    subst hstep
    refine h.control (Or.inr ⟨t, g, zero_ne_rtpSenderId, ?_⟩)
      rfl rfl rfl (Or.inl rfl)
    exact ⟨hcur.handle, hcur.event, hcur.only, hcur.waits, hcur.pending⟩
  · rw [hc] at hphase
    rcases hphase with ⟨hquiet, hnone⟩ | ⟨t, g, hs⟩
    · simp only [controlStep, hc, hnone, if_true, Option.some.injEq] at hstep
      subst hstep
      exact h.goto hquiet
    · simp only [controlStep, hc, hs.current.handle, hs.current.event,
        reduceCtorEq, if_false, Option.some.injEq] at hstep
      subst hstep
      have hcur : (s.setGroup g { s.groups g with abort := true }).Current t
          g := hs.current.setGroup rfl rfl
      refine h.control ⟨t, g, hs.id, ?_⟩ rfl rfl rfl (Or.inl rfl)
      exact ⟨hcur.handle, hcur.event, hcur.only, hcur.waits, hcur.pending⟩
  · rw [hc] at hphase
    obtain ⟨t, g, hs⟩ := hphase
    simp only [controlStep, hc, hs.current.event] at hstep
    split at hstep
    · next hcompleted =>
        rw [Option.some.injEq] at hstep
        subst hstep
        -- The report is there, so no task works for the sender any more.
        have hquiet : s.Quiet := by
          refine ⟨hs.id, fun v hv => ?_⟩
          have hvt := hs.current.only v hv
          subst hvt
          rw [(hs.current.pending hv).1] at hcompleted
          cases hcompleted
        exact h.goto hquiet
    · cases hstep
  · rw [hc] at hphase
    have hquiet : s.Quiet := hphase
    cases hevent : s.rtcpEvent with
    | none =>
        simp only [controlStep, hc, hevent, Option.some.injEq] at hstep
        subst hstep
        exact h.goto (Or.inl hquiet)
    | some g =>
        simp only [controlStep, hc, hevent, Option.some.injEq] at hstep
        subst hstep
        exact h.control (Or.inl ⟨hquiet.id, hquiet.none⟩) rfl rfl rfl
          (Or.inl rfl)

theorem Inv.controlStep (h : s.Inv) {ok : Bool}
    (hstep : s.controlStep ok = some s') (hread : HandleRead s (.control ok)) :
    s'.Inv := by
  cases hc : s.control with
  | idle => simp [TaskLifetime.controlStep, hc] at hstep
  | crashed => simp [TaskLifetime.controlStep, hc] at hstep
  | reset => exact h.creationStep hstep hread (by simp [hc])
  | event => exact h.creationStep hstep hread (by simp [hc])
  | mutex => exact h.creationStep hstep hread (by simp [hc])
  | task => exact h.creationStep hstep hread (by simp [hc])
  | rtpSocket => exact h.creationStep hstep hread (by simp [hc])
  | rtcpSocket => exact h.creationStep hstep hread (by simp [hc])
  | name => exact h.creationStep hstep hread (by simp [hc])
  | start => exact h.creationStep hstep hread (by simp [hc])
  | unname => exact h.cleanupStep hstep (by simp [hc])
  | abort => exact h.cleanupStep hstep (by simp [hc])
  | wait => exact h.cleanupStep hstep (by simp [hc])
  | deleteEvent => exact h.cleanupStep hstep (by simp [hc])

end TaskLifetime

theorem lifetimeMachine_inv {s s' : TaskLifetime} {a : LifetimeAction}
    (h : s.Inv) (hread : HandleRead s a)
    (hstep : lifetimeMachine.step s a = some s') : s'.Inv := by
  cases a with
  | create =>
      simp only [lifetimeMachine] at hstep
      split at hstep
      · next hidle =>
          rw [Option.some.injEq] at hstep
          have hphase := h.phase
          rw [hidle] at hphase
          split at hstep
          · exact hstep ▸ h
          · next hid =>
              subst hstep
              rcases hphase with hquiet | ⟨_, _, hs⟩
              · exact h.goto hquiet
              · exact absurd hs.id hid
      · cases hstep
  | delete =>
      simp only [lifetimeMachine] at hstep
      split at hstep
      · rw [Option.some.injEq] at hstep
        split at hstep
        · next hid =>
            subst hstep
            exact h.goto (h.phase.serving hid)
        · exact hstep ▸ h
      · cases hstep
  | control ok => exact h.controlStep hstep hread
  | task t => exact h.taskStep hstep

theorem lifetimeMachine_inv_init {s : TaskLifetime} (h : lifetimeMachine.init s) :
    s.Inv := by
  obtain ⟨hid, hcontrol, htasks, -, -, -, hdeletedBy⟩ := h
  refine ⟨?_, fun t _ => htasks t, ?_, ?_, ?_⟩
  · rw [hcontrol]
    refine Or.inl ⟨hid, fun t => ?_⟩
    simp [TaskLifetime.Active, htasks t, RxPlace.Serves]
  · intro t ht
    rw [htasks t] at ht
    cases ht
  · intro t handle ht
    rw [htasks t] at ht
    cases ht
  · intro t u ht
    rw [hdeletedBy t] at ht
    cases ht

/-- In every run in which each task has read its handle before the next one is
created, receive tasks delete themselves only and a created sender keeps its
receive task. -/
theorem lifetimeMachine_selfDeleting {s : TaskLifetime}
    (h : lifetimeMachine.ReachableVia HandleRead s) : s.SelfDeleting := by
  have hinv : s.Inv := by
    apply h.invariant
    · intro s hs
      exact lifetimeMachine_inv_init hs
    · intro s a s' hs hread hstep
      exact lifetimeMachine_inv hs hread hstep
  exact hinv.selfDeleting

/-! ## Runs -/

/-- A sender object that was never used. -/
def unusedSender : TaskLifetime where
  id := 0
  rtcpTask := none
  rtcpEvent := none
  rtcpSocket := false
  groups _ := newEventGroup
  groupCount := 0
  tasks _ := .absent
  taskCount := 0
  deletedBy _ := none
  control := .idle

theorem unusedSender_init : lifetimeMachine.init unusedSender :=
  ⟨TaskLifetime.zero_ne_rtpSenderId, rfl, fun _ => rfl, fun _ => rfl, rfl, rfl,
    fun _ => rfl⟩

/-- A creation in which every call succeeds. -/
def creationRun : List LifetimeAction :=
  .create :: List.replicate 8 (.control true)

/-- A deletion during which receive task 0 reports its completion. -/
def deletionRun : List LifetimeAction :=
  [.task 0, .task 0, .delete, .control true, .control true, .task 0, .task 0,
    .control true, .control true]

/-- `HandleRead` for the tasks that there are. -/
def HandleReadOfTasks (s : TaskLifetime) : LifetimeAction → Prop
  | .control ok =>
      s.control = .task → ok = true → ∀ t < s.taskCount, s.tasks t ≠ .completed
  | _ => True

instance (s : TaskLifetime) : DecidablePred (HandleReadOfTasks s)
  | .control ok => inferInstanceAs (Decidable
      (s.control = .task → ok = true → ∀ t < s.taskCount, s.tasks t ≠ .completed))
  | .create | .delete | .task _ => isTrue trivial

theorem TaskLifetime.Inv.handleRead {s : TaskLifetime} {a : LifetimeAction} (h : s.Inv)
    (hread : HandleReadOfTasks s a) : HandleRead s a := by
  cases a with
  | control ok =>
      intro hcontrol hok t
      by_cases ht : t < s.taskCount
      · exact hread hcontrol hok t ht
      · rw [h.fresh t (Nat.not_lt.mp ht)]
        rintro ⟨⟩
  | _ => exact trivial

theorem lifetimeMachine_handleRead {s : TaskLifetime}
    (h : lifetimeMachine.ReachableVia HandleReadOfTasks s) :
    lifetimeMachine.ReachableVia HandleRead s := by
  refine h.mono fun s a hs hread => ?_
  have hinv : s.Inv := by
    apply hs.invariant
    · intro s hs
      exact lifetimeMachine_inv_init hs
    · intro s a s' hs hread hstep
      exact lifetimeMachine_inv hs (hs.handleRead hread) hstep
  exact hinv.handleRead hread

/-- Receive task 0 reads its handle and deletes itself before the sender is created
again; then receive task 1 serves it. -/
theorem lifetimeMachine_selfDeleting_second :
    ∃ s : TaskLifetime, s.id = rtpSenderId ∧ s.rtcpTask = some 1 ∧
      s.deletedBy 0 = some 0 ∧ s.SelfDeleting := by
  have hmeets : lifetimeMachine.Meets HandleReadOfTasks unusedSender
      (creationRun ++ deletionRun ++ [.task 0, .task 0] ++ creationRun) := by
    decide +kernel
  have hrun : ((lifetimeMachine.run unusedSender
      (creationRun ++ deletionRun ++ [.task 0, .task 0] ++ creationRun)).map
      fun s => (s.id, s.rtcpTask, s.deletedBy 0)) =
      some (rtpSenderId, some 1, some 0) := by
    decide +kernel
  obtain ⟨s, hs, hend⟩ := Option.map_eq_some_iff.mp hrun
  rw [Prod.mk.injEq, Prod.mk.injEq] at hend
  obtain ⟨hid, hhandle, hdeleted⟩ := hend
  refine ⟨s, hid, hhandle, hdeleted, lifetimeMachine_selfDeleting ?_⟩
  exact lifetimeMachine_handleRead
    ((Machine.ReachableVia.init unusedSender_init).run _ hmeets hs)

/-- The sender is created again before the first receive task has read its
handle: that task deletes the second one, and the sender is left without. -/
theorem lifetimeMachine_not_selfDeleting :
    ∃ s, lifetimeMachine.Reachable s ∧ s.control = .idle ∧
      s.id = rtpSenderId ∧ s.deletedBy 1 = some 0 ∧ s.tasks 1 = .ended ∧
      ¬ s.SelfDeleting := by
  have hrun : ((lifetimeMachine.run unusedSender
      (creationRun ++ deletionRun ++ creationRun ++ [.task 0, .task 0])).map
      fun s => (s.control, s.id, s.deletedBy 1, s.tasks 1)) =
      some (.idle, rtpSenderId, some 0, .ended) := by
    decide +kernel
  obtain ⟨s, hs, hend⟩ := Option.map_eq_some_iff.mp hrun
  rw [Prod.mk.injEq, Prod.mk.injEq, Prod.mk.injEq] at hend
  obtain ⟨hcontrol, hid, hdeleted, hended⟩ := hend
  refine ⟨s, Machine.reachable_of_run unusedSender_init _ hs, hcontrol, hid,
    hdeleted, hended, ?_⟩
  intro hself
  have hzero := hself.self 1 0 hdeleted
  cases hzero

end RtpMulticast
