import Mathlib.Logic.Function.Basic
import RtpMulticast.Support.Ownership
import RtpMulticast.Lwip.SecureConnection

/-!
# Data of the MQTT module

The context fields of `mqtt_app.c`, the objects and tasks its sessions create,
and the places of the tasks between two accesses of shared variables.  Every
call of `APP_MQTT_Start` that gets past its check opens a session, and the
tasks and objects that the session creates carry its number.
-/

namespace RtpMulticast

/-! ## Objects -/

/-- The depth of the subscription queue. -/
def subMsgQueueLength : ℕ := 10

/-- `APP_MQTT_Data_t`; the buffers are numbered in the order of their
allocation. -/
structure MqttData where
  topic : ℕ
  message : ℕ
  deriving DecidableEq, Repr

def MqttData.buffers (d : MqttData) : List ℕ := [d.topic, d.message]

/-- A queue or an event group. -/
inductive ObjectState where
  | absent
  | live
  | deleted
  deriving DecidableEq, Repr

/-- A subscription queue; `entries` are what it holds. -/
structure MsgQueue where
  state : ObjectState
  entries : List MqttData
  deriving DecidableEq, Repr

/-- The socket and the TLS objects of a session.  `sockfd` says whether the
variable is a descriptor, `opened` and `closes` count the calls, and
`configuration` and `connection` say whether the TLS functions returned one. -/
structure SessionResources where
  sockfd : Bool
  opened : ℕ
  closes : ℕ
  configuration : Bool
  configurationDestroys : ℕ
  connection : Bool
  connectionDestroys : ℕ
  deriving DecidableEq, Repr

def noResources : SessionResources := ⟨false, 0, 0, false, 0, false, 0⟩

/-! ## Places of the tasks -/

/-- `APP_MQTT_StopAuxTasks` -/
inductive StopStage where
  | testSub
  | deleteSub
  | clearSub
  | testRefresher
  | deleteRefresher
  | clearRefresher
  deriving DecidableEq, Repr

/-- `APP_MQTT_Task`.  The places named `Held` are behind the call made with the
mutex; `stop` is inside `APP_MQTT_StopAuxTasks`, called from the label
`_disconnect` or, when `last`, from `_exit`. -/
inductive MainPc where
  | mac
  | dns
  | dnsWait
  | dnsWaiting
  | connect
  | sslConfigure
  | secure
  | takeConnect
  | connectHeld
  | createRefresher
  | createSub
  | takeSubscribe
  | subscribeHeld
  | loop
  | takePublish
  | publishHeld
  | stop (last : Bool) (stage : StopStage)
  | takeDisconnect
  | disconnectHeld
  | closeSock
  | clearStarted
  | testQueue
  | deleteQueue
  | clearQueue
  | testEvents
  | deleteEvents
  | clearEvents
  | clearCtx
  | deleteSelf
  deriving DecidableEq, Repr

inductive MainPlace where
  | absent
  | running (pc : MainPc)
  | ended
  deriving DecidableEq, Repr

/-- `client_refresher` and, inside `mqtt_sync`, `publish_callback`. -/
inductive RefresherPlace where
  | absent
  | waiting
  | syncing
  | allocTopic
  | allocMessage (topic : ℕ)
  | freeTopic (topic : ℕ)
  | testQueue (data : MqttData)
  | queueing (data : MqttData)
  | freeBoth (data : MqttData)
  | freeMessage (message : ℕ)
  | deleted
  deriving DecidableEq, Repr

/-- `Subscription_process_task`; `blocked` waits in `xQueueReceive`. -/
inductive SubPlace where
  | absent
  | receiving
  | blocked (queue : ℕ)
  | received (data : MqttData)
  | parsing (data : MqttData)
  | freeTopic (data : MqttData)
  | freeMessage (message : ℕ)
  | deleted
  deriving DecidableEq, Repr

/-- `APP_MQTT_Start` for session `n`; the `undo` places are on its failure
paths. -/
inductive StartPc where
  | idle
  | setCtx (n : ℕ)
  | createEvents (n : ℕ)
  | createQueue (n : ℕ)
  | createTask (n : ℕ)
  | raise (n : ℕ)
  | undoQueue (n : ℕ)
  | undoQueueField (n : ℕ)
  | undoEvents (n : ℕ)
  | undoEventsField (n : ℕ)
  deriving DecidableEq, Repr

/-- Who may hold the client mutex. -/
inductive MutexHolder where
  | main (n : ℕ)
  | refresher (n : ℕ)
  deriving DecidableEq, Repr

/-- The ending task of session `task` has deleted or cleared something of session
`owner`. -/
structure Removal where
  task : ℕ
  owner : ℕ
  deriving DecidableEq, Repr

/-! ## The system -/

/-- `sCtx` is the session that has set `s_ctx`.  `removals`, `readFreed` and
`bufferSession` are records for the properties: what ending tasks have removed,
whether a freed buffer was read, and who allocated a buffer.  A use of an object
that is not there stops the system (`halted`). -/
structure MqttSystem where
  started : Bool
  sCtx : Option ℕ
  subMsgQueue : Option ℕ
  dnsEventFlags : Option ℕ
  subTask : Option ℕ
  refresherTask : Option ℕ
  clientMutex : Option MutexHolder
  caller : StartPc
  sessionCount : ℕ
  mains : ℕ → MainPlace
  refreshers : ℕ → RefresherPlace
  subs : ℕ → SubPlace
  queues : ℕ → MsgQueue
  eventGroups : ℕ → ObjectState
  resources : ℕ → SessionResources
  bufferCount : ℕ
  frees : ℕ → ℕ
  bufferSession : ℕ → ℕ
  readFreed : Bool
  removals : List Removal
  halted : Bool

namespace MqttSystem

def setMain (s : MqttSystem) (n : ℕ) (place : MainPlace) : MqttSystem :=
  { s with mains := Function.update s.mains n place }

/-- `APP_MQTT_Task` of session `n` goes on at `pc`. -/
def goto (s : MqttSystem) (n : ℕ) (pc : MainPc) : MqttSystem :=
  s.setMain n (.running pc)

def setRefresher (s : MqttSystem) (n : ℕ) (place : RefresherPlace) :
    MqttSystem :=
  { s with refreshers := Function.update s.refreshers n place }

def setSub (s : MqttSystem) (n : ℕ) (place : SubPlace) : MqttSystem :=
  { s with subs := Function.update s.subs n place }

def setQueue (s : MqttSystem) (q : ℕ) (queue : MsgQueue) : MqttSystem :=
  { s with queues := Function.update s.queues q queue }

def setEvents (s : MqttSystem) (e : ℕ) (state : ObjectState) : MqttSystem :=
  { s with eventGroups := Function.update s.eventGroups e state }

def setResources (s : MqttSystem) (n : ℕ) (r : SessionResources) : MqttSystem :=
  { s with resources := Function.update s.resources n r }

def setMutex (s : MqttSystem) (holder : Option MutexHolder) : MqttSystem :=
  { s with clientMutex := holder }

/-- `pvPortMalloc` in the callback of session `n`. -/
def allocBuffer (s : MqttSystem) (n : ℕ) : MqttSystem :=
  { s with
    bufferCount := s.bufferCount + 1
    bufferSession := Function.update s.bufferSession s.bufferCount n }

/-- `vPortFree` -/
def freeBuffer (s : MqttSystem) (b : ℕ) : MqttSystem :=
  { s with frees := Function.update s.frees b (s.frees b + 1) }

def readBuffer (s : MqttSystem) (b : ℕ) : MqttSystem :=
  { s with readFreed := s.readFreed || s.frees b != 0 }

def halt (s : MqttSystem) : MqttSystem := { s with halted := true }

end MqttSystem

/-! ## Tasks that can be deleted -/

def RefresherPlace.alive : RefresherPlace → Bool
  | .absent | .deleted => false
  | _ => true

def SubPlace.alive : SubPlace → Bool
  | .absent | .deleted => false
  | _ => true

def MainPlace.alive : MainPlace → Bool
  | .running _ => true
  | .absent | .ended => false

end RtpMulticast
