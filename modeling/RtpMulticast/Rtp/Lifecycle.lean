import RtpMulticast.Support.LinkedList
import RtpMulticast.Support.Machine
import RtpMulticast.Rtp.Definitions

/-!
# Lifecycle of a sender and its sessions

Tasks call `w6x_rtp_sender_session_create`, `w6x_rtp_sender_session_delete`,
`w6x_rtp_sender_session_send_packet` and `w6x_rtp_sender_delete` on one sender
and its sessions.  Every operation checks the ids first and takes the mutex of
the sender afterwards.  A step here is one of the accesses a task makes to the
shared objects: each check, each read of the back pointer, each take and give of
the mutex, each write of a field, and each move of the walk along the session
list.

Only the fields that decide the lifecycle are kept.  A step through a null
pointer, or on a mutex that does not exist any more, leads to `crashed`.
-/

namespace RtpMulticast

open LinkedList

/-! ## Shared objects -/

/-- A session object; `sender` says whether the back pointer is set. -/
structure SessionCell where
  id : UInt32
  sender : Bool
  next : Option ℕ
  deriving DecidableEq, Repr

/-- The sender object and the session objects, which are numbered.  `deleted`
records that a call of `w6x_rtp_sender_delete` has returned `RTP_OK`. -/
structure SenderMemory where
  id : UInt32
  session : Option ℕ
  mutex : Bool
  deleted : Bool
  cells : ℕ → SessionCell

namespace SenderMemory

/-- The links between the sessions. -/
def next (m : SenderMemory) : ℕ → Option ℕ :=
  fun x => (m.cells x).next

/-- Session `x` is in the list of the sender. -/
def Linked (m : SenderMemory) (x : ℕ) : Prop :=
  Reaches m.next m.session x

def setCell (m : SenderMemory) (x : ℕ) (c : SessionCell) : SenderMemory :=
  { m with cells := Function.update m.cells x c }

/-- `memset(session, 0, sizeof(w6x_rtp_session_t))` -/
def reset (m : SenderMemory) (x : ℕ) : SenderMemory :=
  m.setCell x ⟨0, false, none⟩

def setId (m : SenderMemory) (x : ℕ) (id : UInt32) : SenderMemory :=
  m.setCell x { m.cells x with id := id }

def setSender (m : SenderMemory) (x : ℕ) (sender : Bool) : SenderMemory :=
  m.setCell x { m.cells x with sender := sender }

def setNext (m : SenderMemory) (x : ℕ) (next : Option ℕ) : SenderMemory :=
  m.setCell x { m.cells x with next := next }

end SenderMemory

/-! ## Tasks -/

/-- Progress of `w6x_rtp_sender_session_create`; `checked` is between the check of
the sender and that of the session. -/
inductive CreatePc where
  | checked
  | validated
  | cleared
  | locked
  | walking (tail : ℕ)
  | linked
  | given
  | named
  deriving DecidableEq, Repr

/-- Progress of `w6x_rtp_sender_session_delete`; `checked` is between the check of
the back pointer and that of the id, and `sender` the local copy of the back
pointer. -/
inductive DeletePc where
  | checked
  | validated
  | fetched (sender : Bool)
  | unnamed (sender : Bool)
  | locked
  | walking (prev : ℕ)
  | unlinked
  | given
  deriving DecidableEq, Repr

/-- Progress of `w6x_rtp_sender_session_send_packet`; `checked` is between the
check of the back pointer and that of the id, `addressed` behind the computation of
`header` and `payload`. -/
inductive PacketPc where
  | checked
  | validated
  | addressed
  | locked
  deriving DecidableEq, Repr

/-- Progress of `w6x_rtp_sender_delete`. -/
inductive CleanupPc where
  | validated
  | locked
  | refused
  | unnamed
  | given
  deriving DecidableEq, Repr

/-- Where a task is: outside every call, in a call on a session, in a call on
the sender, or lost. -/
inductive TaskPc where
  | idle
  | create (x : ℕ) (pc : CreatePc)
  | delete (x : ℕ) (pc : DeletePc)
  | send (x : ℕ) (pc : PacketPc)
  | cleanup (pc : CleanupPc)
  | crashed
  deriving DecidableEq, Repr

structure Lifecycle where
  mem : SenderMemory
  owner : Option ℕ
  pc : ℕ → TaskPc

/-- Arguments of a call that are not checked against the shared objects. -/
inductive LifecycleCall where
  | create (x : ℕ)
  | delete (x : ℕ)
  | send (x : ℕ)
  | cleanup
  deriving DecidableEq, Repr

inductive LifecycleAction where
  | call (task : ℕ) (c : LifecycleCall)
  | advance (task : ℕ)
  | iterate (task : ℕ)
  deriving DecidableEq, Repr

namespace Lifecycle

def goto (s : Lifecycle) (task : ℕ) (pc : TaskPc) : Lifecycle :=
  { s with pc := Function.update s.pc task pc }

/-- `xSemaphoreTake(sender->mutex, portMAX_DELAY)` -/
def take (s : Lifecycle) (task : ℕ) (pc : TaskPc) : Option Lifecycle :=
  if s.mem.mutex then
    if s.owner = none then some ({ s with owner := some task }.goto task pc)
    else none
  else some (s.goto task .crashed)

/-- `xSemaphoreGive(sender->mutex)` -/
def give (s : Lifecycle) (task : ℕ) (pc : TaskPc) : Lifecycle :=
  if s.mem.mutex then { s with owner := none }.goto task pc
  else s.goto task .crashed

def write (s : Lifecycle) (m : SenderMemory) (task : ℕ) (pc : TaskPc) :
    Lifecycle :=
  { s with mem := m }.goto task pc

/-! ## Steps -/

/-- The first check of a call; a call that fails a check returns. -/
def call (s : Lifecycle) (task : ℕ) (c : LifecycleCall) : Option Lifecycle :=
  match s.pc task with
  | .idle =>
      match c with
      | .create x =>
          if s.mem.id ≠ rtpSenderId then some s
          else some (s.goto task (.create x .checked))
      | .delete x =>
          if (s.mem.cells x).sender then some (s.goto task (.delete x .checked))
          else some s
      | .send x =>
          if (s.mem.cells x).sender then some (s.goto task (.send x .checked))
          else some s
      | .cleanup =>
          if s.mem.id ≠ rtpSenderId then some s
          else some (s.goto task (.cleanup .validated))
  | _ => none

/-- The check of the id of session `x` behind that of its back pointer. -/
def checkId (s : Lifecycle) (task x : ℕ) (pc : TaskPc) : Lifecycle :=
  if (s.mem.cells x).id ≠ rtpSessionId then s.goto task .idle
  else s.goto task pc

/-- The next access of `w6x_rtp_sender_session_create`. -/
def createStep (s : Lifecycle) (task x : ℕ) : CreatePc → Option Lifecycle
  | .checked =>
      if (s.mem.cells x).id = rtpSessionId then some (s.goto task .idle)
      else some (s.goto task (.create x .validated))
  | .validated => some (s.write (s.mem.reset x) task (.create x .cleared))
  | .cleared => s.take task (.create x .locked)
  | .locked =>
      match s.mem.session with
      | some tail => some (s.goto task (.create x (.walking tail)))
      | none =>
          some (s.write { s.mem with session := some x } task
            (.create x .linked))
  | .walking tail =>
      match s.mem.next tail with
      | some tail' => some (s.goto task (.create x (.walking tail')))
      | none =>
          some (s.write (s.mem.setNext tail (some x)) task (.create x .linked))
  | .linked => some (s.give task (.create x .given))
  | .given => some (s.write (s.mem.setId x rtpSessionId) task (.create x .named))
  | .named => some (s.write (s.mem.setSender x true) task .idle)

/-- The next access of `w6x_rtp_sender_session_delete`.  The back pointer is
read into a local variable before the id is cleared. -/
def deleteStep (s : Lifecycle) (task x : ℕ) : DeletePc → Option Lifecycle
  | .checked => some (s.checkId task x (.delete x .validated))
  | .validated =>
      some (s.goto task (.delete x (.fetched (s.mem.cells x).sender)))
  | .fetched sender =>
      some (s.write (s.mem.setId x 0) task (.delete x (.unnamed sender)))
  | .unnamed sender =>
      if sender then s.take task (.delete x .locked)
      else some (s.goto task .crashed)
  | .locked =>
      if s.mem.session = some x then
        some (s.write { s.mem with session := s.mem.next x } task
          (.delete x .unlinked))
      else
        match s.mem.session with
        | some prev => some (s.goto task (.delete x (.walking prev)))
        | none => some (s.goto task .crashed)
  | .walking prev =>
      match s.mem.next prev with
      | none => some (s.goto task (.delete x .unlinked))
      | some this =>
          if this = x then
            some (s.write (s.mem.setNext prev (s.mem.next this)) task
              (.delete x .unlinked))
          else some (s.goto task (.delete x (.walking this)))
  | .unlinked => some (s.give task (.delete x .given))
  | .given => some (s.write (s.mem.setSender x false) task .idle)

/-- The next access of `w6x_rtp_sender_session_send_packet`.  The addresses of the
packet and taking and giving the mutex each read the back pointer of the session. -/
def sendStep (s : Lifecycle) (task x : ℕ) : PacketPc → Option Lifecycle
  | .checked => some (s.checkId task x (.send x .validated))
  | .validated =>
      if (s.mem.cells x).sender then some (s.goto task (.send x .addressed))
      else some (s.goto task .crashed)
  | .addressed =>
      if (s.mem.cells x).sender then s.take task (.send x .locked)
      else some (s.goto task .crashed)
  | .locked =>
      if (s.mem.cells x).sender then some (s.give task .idle)
      else some (s.goto task .crashed)

/-- The next access of `w6x_rtp_sender_delete`. -/
def cleanupStep (s : Lifecycle) (task : ℕ) : CleanupPc → Option Lifecycle
  | .validated => s.take task (.cleanup .locked)
  | .locked =>
      if s.mem.session ≠ none then some (s.goto task (.cleanup .refused))
      else some (s.write { s.mem with id := 0 } task (.cleanup .unnamed))
  | .refused => some (s.give task .idle)
  | .unnamed => some (s.give task (.cleanup .given))
  | .given =>
      some (s.write { s.mem with mutex := false, deleted := true } task .idle)

def advance (s : Lifecycle) (task : ℕ) : Option Lifecycle :=
  match s.pc task with
  | .idle => none
  | .create x pc => s.createStep task x pc
  | .delete x pc => s.deleteStep task x pc
  | .send x pc => s.sendStep task x pc
  | .cleanup pc => s.cleanupStep task pc
  | .crashed => none

/-- One round of the send loop, inside the critical section: it works on the
session and reads its back pointer. -/
def iterate (s : Lifecycle) (task : ℕ) : Option Lifecycle :=
  match s.pc task with
  | .send x .locked =>
      if (s.mem.cells x).sender then some s else some (s.goto task .crashed)
  | _ => none

end Lifecycle

/-- All interleavings of the operations, from a created sender and sessions
that were never created. -/
def lifecycleMachine : Machine Lifecycle LifecycleAction where
  init s :=
    s.mem.id = rtpSenderId ∧ s.mem.session = none ∧ s.mem.mutex = true ∧
      s.mem.deleted = false ∧ (∀ x, (s.mem.cells x).id ≠ rtpSessionId) ∧
      s.owner = none ∧ ∀ task, s.pc task = .idle
  step s
    | .call task c => s.call task c
    | .advance task => s.advance task
    | .iterate task => s.iterate task

/-! ## Use of live objects -/

/-- The next step of the task takes or gives the mutex. -/
def TaskPc.TouchesMutex : TaskPc → Prop
  | .create _ .cleared | .create _ .linked => True
  | .delete _ (.unnamed _) | .delete _ .unlinked => True
  | .send _ .addressed | .send _ .locked => True
  | .cleanup .validated | .cleanup .refused | .cleanup .unnamed => True
  | _ => False

/-- No task is about to use a dead object. -/
structure Lifecycle.Live (s : Lifecycle) : Prop where
  deleted_unlinked : s.mem.deleted = true → ∀ x, ¬ s.mem.Linked x
  send_linked : ∀ task x, s.pc task = .send x .locked → s.mem.Linked x
  send_sender : ∀ task x, s.pc task = .send x .locked →
    (s.mem.cells x).sender = true
  mutex_exists : ∀ task, (s.pc task).TouchesMutex → s.mem.mutex = true
  no_crash : ∀ task, s.pc task ≠ .crashed

/-- A call of `w6x_rtp_sender_session_create` that has reset session `x`, or a
call of `w6x_rtp_sender_session_delete` that has unlinked it. -/
def TaskPc.Reshapes (x : ℕ) : TaskPc → Prop
  | .create y pc => x = y ∧ pc ≠ .checked ∧ pc ≠ .validated
  | .delete y .unlinked | .delete y .given => x = y
  | _ => False

/-- The task has seen the back pointer of session `x` and not yet its id. -/
@[simp] def TaskPc.HalfChecked (x : ℕ) : TaskPc → Prop
  | .delete y .checked | .send y .checked => x = y
  | _ => False

/-- The task has passed its checks of session `x` and not yet taken the
mutex. -/
def TaskPc.ReliesOnSession (x : ℕ) : TaskPc → Prop
  | .delete y .validated | .delete y (.fetched _) | .delete y (.unnamed _) => x = y
  | .send y .validated | .send y .addressed => x = y
  | _ => False

/-- The task has passed its check of the sender and not yet taken the mutex. -/
def TaskPc.ReliesOnSender : TaskPc → Prop
  | .create _ .checked | .create _ .validated | .create _ .cleared => True
  | .cleanup .validated => True
  | _ => False

/-- No step makes a check stale that another task still relies on. -/
def Orderly (s : Lifecycle) : LifecycleAction → Prop
  | .advance task =>
      match s.pc task with
      | .create x .validated =>
          ¬ s.mem.Linked x ∧ ∀ task', task' ≠ task →
            ¬ (s.pc task').Reshapes x
      | .create x .given =>
          ∀ task', task' ≠ task → ¬ (s.pc task').HalfChecked x
      | .delete x .locked | .delete x (.walking _) =>
          ∀ task', task' ≠ task → ¬ (s.pc task').ReliesOnSession x
      | .cleanup .locked =>
          s.mem.session = none → ∀ task', task' ≠ task →
            ¬ (s.pc task').ReliesOnSender
      | _ => True
  | _ => True

end RtpMulticast
