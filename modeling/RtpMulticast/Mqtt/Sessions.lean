import RtpMulticast.Support.Machine
import RtpMulticast.Mqtt.MainTask

/-!
# The MQTT tasks and the machine

`client_refresher` with the callback that runs inside `mqtt_sync`,
`Subscription_process_task` and `APP_MQTT_Start`, and the machine that
interleaves them with `APP_MQTT_Task` of every session.  The application task
calls `APP_MQTT_Start` again and again; it is one task, so its calls do not
overlap.  A subscribed message that asks for a reboot ends the run.
-/

namespace RtpMulticast

namespace MqttSystem

/-! ## The auxiliary tasks -/

/-- A step of `client_refresher` of session `n`.  In `mqtt_sync`, `ok` says
whether another message has come, and elsewhere whether the memory was there. -/
def clientRefresherStep (s : MqttSystem) (n : ℕ) (ok : Bool) :
    RefresherPlace → Option MqttSystem
  | .absent | .deleted => none
  | .waiting =>
      if s.clientMutex = none then
        some ((s.setMutex (some (.refresher n))).setRefresher n .syncing)
      else some s
  | .syncing =>
      if ok then
        if s.sCtx.isSome then some (s.setRefresher n .allocTopic) else some s
      else some ((s.setMutex none).setRefresher n .waiting)
  | .allocTopic =>
      if ok then
        some ((s.allocBuffer n).setRefresher n (.allocMessage s.bufferCount))
      else some (s.setRefresher n .syncing)
  | .allocMessage topic =>
      if ok then
        some ((s.allocBuffer n).setRefresher n
          (.testQueue ⟨topic, s.bufferCount⟩))
      else some (s.setRefresher n (.freeTopic topic))
  | .freeTopic topic => some ((s.freeBuffer topic).setRefresher n .syncing)
  | .testQueue data =>
      if s.sCtx.isSome then
        some (s.setRefresher n
          (if s.subMsgQueue.isSome then .queueing data else .freeBoth data))
      else some s.halt
  | .queueing data =>
      match s.sCtx, s.subMsgQueue with
      | some _, some q =>
          if (s.queues q).state = .live then
            if (s.queues q).entries.length < subMsgQueueLength then
              some ((s.setQueue q
                ⟨.live, (s.queues q).entries ++ [data]⟩).setRefresher n .syncing)
            else some (s.setRefresher n (.freeBoth data))
          else some s.halt
      | _, _ => some s.halt
  | .freeBoth data =>
      some ((s.freeBuffer data.topic).setRefresher n (.freeMessage data.message))
  | .freeMessage message => some ((s.freeBuffer message).setRefresher n .syncing)

/-- A step of `Subscription_process_task` of session `n`.  The topic is read by
the log message and the message by `cJSON_Parse`. -/
def subscriptionProcessStep (s : MqttSystem) (n : ℕ) :
    SubPlace → Option MqttSystem
  | .absent | .deleted => none
  | .receiving =>
      match s.subMsgQueue with
      | none => some s.halt
      | some q =>
          if (s.queues q).state = .live then some (s.setSub n (.blocked q))
          else some s.halt
  | .blocked q =>
      match (s.queues q).entries with
      | [] => none
      | data :: rest =>
          some ((s.setQueue q ⟨(s.queues q).state, rest⟩).setSub n
            (.received data))
  | .received data => some ((s.readBuffer data.topic).setSub n (.parsing data))
  | .parsing data => some ((s.readBuffer data.message).setSub n (.freeTopic data))
  | .freeTopic data =>
      some ((s.freeBuffer data.topic).setSub n (.freeMessage data.message))
  | .freeMessage message => some ((s.freeBuffer message).setSub n .receiving)

/-! ## Starting a session -/

/-- A step of `APP_MQTT_Start` behind its check. -/
def appMqttStartStep (s : MqttSystem) (ok : Bool) : StartPc → Option MqttSystem
  | .idle => none
  | .setCtx n => some { s with sCtx := some n, caller := .createEvents n }
  | .createEvents n =>
      if ok then
        some { s.setEvents n .live with
          dnsEventFlags := some n, caller := .createQueue n }
      else some { s with dnsEventFlags := none, caller := .idle }
  | .createQueue n =>
      if ok then
        some { s.setQueue n ⟨.live, []⟩ with
          subMsgQueue := some n, caller := .createTask n }
      else some { s with subMsgQueue := none, caller := .undoEvents n }
  | .createTask n =>
      if ok then some { s.goto n .mac with caller := .raise n }
      else some { s with caller := .undoQueue n }
  | .raise _ => some { s with started := true, caller := .idle }
  | .undoQueue n =>
      match s.subMsgQueue with
      | none => some s.halt
      | some q =>
          if (s.queues q).state = .live then
            some { s.setQueue q ⟨.deleted, []⟩ with caller := .undoQueueField n }
          else some s.halt
  | .undoQueueField n =>
      some { s with subMsgQueue := none, caller := .undoEvents n }
  | .undoEvents n =>
      match s.dnsEventFlags with
      | none => some s.halt
      | some e =>
          if s.eventGroups e = .live then
            some { s.setEvents e .deleted with caller := .undoEventsField n }
          else some s.halt
  | .undoEventsField _ => some { s with dnsEventFlags := none, caller := .idle }

end MqttSystem

/-! ## The machine -/

inductive MqttAction where
  /-- A call of `APP_MQTT_Start`, up to its check. -/
  | start
  | caller (ok : Bool)
  | main (n : ℕ) (a : MainAnswer)
  | refresher (n : ℕ) (ok : Bool)
  | sub (n : ℕ)
  deriving DecidableEq, Repr

/-- Before the first call of `APP_MQTT_Start`; `main_app` has created the client
mutex. -/
def newMqttSystem : MqttSystem where
  started := false
  sCtx := none
  subMsgQueue := none
  dnsEventFlags := none
  subTask := none
  refresherTask := none
  clientMutex := none
  caller := .idle
  sessionCount := 0
  mains _ := .absent
  refreshers _ := .absent
  subs _ := .absent
  queues _ := ⟨.absent, []⟩
  eventGroups _ := .absent
  resources _ := noResources
  bufferCount := 0
  frees _ := 0
  bufferSession _ := 0
  readFreed := false
  removals := []
  halted := false

/-- All interleavings of the calls of `APP_MQTT_Start` with the tasks of all
sessions. -/
def mqttMachine : Machine MqttSystem MqttAction where
  init s := s = newMqttSystem
  step s a :=
    if s.halted then none
    else
      match a with
      | .start =>
          if s.caller = .idle then
            if s.started then some s
            else
              some { s with
                caller := .setCtx s.sessionCount
                sessionCount := s.sessionCount + 1 }
          else none
      | .caller ok => s.appMqttStartStep ok s.caller
      | .main n a =>
          match s.mains n with
          | .running pc => s.appMqttTaskStep n a pc
          | .absent | .ended => none
      | .refresher n ok => s.clientRefresherStep n ok (s.refreshers n)
      | .sub n => s.subscriptionProcessStep n (s.subs n)

open MqttSystem

/-! ## What a step is -/

/-- The steps of a refresher by what they write. -/
inductive RefresherMoves (s : MqttSystem) (n : ℕ) :
    RefresherPlace → MqttSystem → Prop
  | stays (place : RefresherPlace) : RefresherMoves s n place s
  | takes (hfree : s.clientMutex = none) :
      RefresherMoves s n .waiting
        ((s.setMutex (some (.refresher n))).setRefresher n .syncing)
  | gives :
      RefresherMoves s n .syncing ((s.setMutex none).setRefresher n .waiting)
  | callback : RefresherMoves s n .syncing (s.setRefresher n .allocTopic)
  | noTopic : RefresherMoves s n .allocTopic (s.setRefresher n .syncing)
  | allocTopic :
      RefresherMoves s n .allocTopic
        ((s.allocBuffer n).setRefresher n (.allocMessage s.bufferCount))
  | noMessage (topic : ℕ) :
      RefresherMoves s n (.allocMessage topic)
        (s.setRefresher n (.freeTopic topic))
  | allocMessage (topic : ℕ) :
      RefresherMoves s n (.allocMessage topic)
        ((s.allocBuffer n).setRefresher n (.testQueue ⟨topic, s.bufferCount⟩))
  | freeTopic (topic : ℕ) :
      RefresherMoves s n (.freeTopic topic)
        ((s.freeBuffer topic).setRefresher n .syncing)
  | queueThere (data : MqttData) :
      RefresherMoves s n (.testQueue data) (s.setRefresher n (.queueing data))
  | noQueue (data : MqttData) :
      RefresherMoves s n (.testQueue data) (s.setRefresher n (.freeBoth data))
  | queued (data : MqttData) (q : ℕ) (hqueue : s.subMsgQueue = some q)
      (hlive : (s.queues q).state = .live) :
      RefresherMoves s n (.queueing data)
        ((s.setQueue q
          ⟨.live, (s.queues q).entries ++ [data]⟩).setRefresher n .syncing)
  | full (data : MqttData) :
      RefresherMoves s n (.queueing data) (s.setRefresher n (.freeBoth data))
  | freeBoth (data : MqttData) :
      RefresherMoves s n (.freeBoth data)
        ((s.freeBuffer data.topic).setRefresher n (.freeMessage data.message))
  | freeMessage (message : ℕ) :
      RefresherMoves s n (.freeMessage message)
        ((s.freeBuffer message).setRefresher n .syncing)
  | halt (place : RefresherPlace) : RefresherMoves s n place s.halt

/-- The steps of a subscription task by what they write. -/
inductive SubMoves (s : MqttSystem) (n : ℕ) : SubPlace → MqttSystem → Prop
  | blocks (q : ℕ) : SubMoves s n .receiving (s.setSub n (.blocked q))
  | receives (q : ℕ) (data : MqttData) (rest : List MqttData)
      (hentries : (s.queues q).entries = data :: rest) :
      SubMoves s n (.blocked q)
        ((s.setQueue q ⟨(s.queues q).state, rest⟩).setSub n (.received data))
  | readsTopic (data : MqttData) :
      SubMoves s n (.received data)
        ((s.readBuffer data.topic).setSub n (.parsing data))
  | parses (data : MqttData) :
      SubMoves s n (.parsing data)
        ((s.readBuffer data.message).setSub n (.freeTopic data))
  | freesTopic (data : MqttData) :
      SubMoves s n (.freeTopic data)
        ((s.freeBuffer data.topic).setSub n (.freeMessage data.message))
  | freesMessage (message : ℕ) :
      SubMoves s n (.freeMessage message)
        ((s.freeBuffer message).setSub n .receiving)
  | halt (place : SubPlace) : SubMoves s n place s.halt

/-- The steps of `APP_MQTT_Start` by what they write. -/
inductive StartMoves (s : MqttSystem) : StartPc → MqttSystem → Prop
  | setCtx (n : ℕ) :
      StartMoves s (.setCtx n) { s with sCtx := some n, caller := .createEvents n }
  | createEvents (n : ℕ) :
      StartMoves s (.createEvents n)
        { s.setEvents n .live with
          dnsEventFlags := some n, caller := .createQueue n }
  | noEvents (n : ℕ) :
      StartMoves s (.createEvents n)
        { s with dnsEventFlags := none, caller := .idle }
  | createQueue (n : ℕ) :
      StartMoves s (.createQueue n)
        { s.setQueue n ⟨.live, []⟩ with
          subMsgQueue := some n, caller := .createTask n }
  | noQueue (n : ℕ) :
      StartMoves s (.createQueue n)
        { s with subMsgQueue := none, caller := .undoEvents n }
  | createTask (n : ℕ) :
      StartMoves s (.createTask n) { s.goto n .mac with caller := .raise n }
  | noTask (n : ℕ) :
      StartMoves s (.createTask n) { s with caller := .undoQueue n }
  | raise (n : ℕ) :
      StartMoves s (.raise n) { s with started := true, caller := .idle }
  | undoQueue (n q : ℕ) (hhandle : s.subMsgQueue = some q)
      (hlive : (s.queues q).state = .live) :
      StartMoves s (.undoQueue n)
        { s.setQueue q ⟨.deleted, []⟩ with caller := .undoQueueField n }
  | undoQueueField (n : ℕ) :
      StartMoves s (.undoQueueField n)
        { s with subMsgQueue := none, caller := .undoEvents n }
  | undoEvents (n e : ℕ) (hhandle : s.dnsEventFlags = some e)
      (hlive : s.eventGroups e = .live) :
      StartMoves s (.undoEvents n)
        { s.setEvents e .deleted with caller := .undoEventsField n }
  | undoEventsField (n : ℕ) :
      StartMoves s (.undoEventsField n)
        { s with dnsEventFlags := none, caller := .idle }
  | halt (pc : StartPc) : StartMoves s pc s.halt

section Moves

variable {s s' : MqttSystem} {n : ℕ} {ok : Bool}

theorem clientRefresherStep_moves {place : RefresherPlace}
    (h : s.clientRefresherStep n ok place = some s') :
    RefresherMoves s n place s' := by
  cases place with
  | absent => cases h
  | deleted => cases h
  | waiting =>
      simp only [clientRefresherStep] at h
      split at h <;> cases h
      · next hfree => exact .takes hfree
      · exact .stays _
  | syncing =>
      simp only [clientRefresherStep] at h
      split at h
      · split at h <;> cases h
        · exact .callback
        · exact .stays _
      · cases h
        exact .gives
  | allocTopic =>
      simp only [clientRefresherStep] at h
      split at h <;> cases h
      · exact .allocTopic
      · exact .noTopic
  | allocMessage topic =>
      simp only [clientRefresherStep] at h
      split at h <;> cases h
      · exact .allocMessage topic
      · exact .noMessage topic
  | freeTopic topic =>
      cases h
      exact .freeTopic topic
  | testQueue data =>
      simp only [clientRefresherStep] at h
      split at h <;> cases h
      · split
        · exact .queueThere data
        · exact .noQueue data
      · exact .halt _
  | queueing data =>
      simp only [clientRefresherStep] at h
      split at h
      · next q _ hqueue =>
          split at h
          · next hlive =>
              split at h <;> cases h
              · exact .queued data q hqueue hlive
              · exact .full data
          · cases h
            exact .halt _
      · cases h
        exact .halt _
  | freeBoth data =>
      cases h
      exact .freeBoth data
  | freeMessage message =>
      cases h
      exact .freeMessage message

theorem subscriptionProcessStep_moves {place : SubPlace}
    (h : s.subscriptionProcessStep n place = some s') :
    SubMoves s n place s' := by
  cases place with
  | absent => cases h
  | deleted => cases h
  | receiving =>
      simp only [subscriptionProcessStep] at h
      split at h
      · cases h
        exact .halt _
      · split at h <;> cases h
        · exact .blocks _
        · exact .halt _
  | blocked q =>
      simp only [subscriptionProcessStep] at h
      split at h <;> cases h
      next data rest hentries => exact .receives q data rest hentries
  | received data =>
      cases h
      exact .readsTopic data
  | parsing data =>
      cases h
      exact .parses data
  | freeTopic data =>
      cases h
      exact .freesTopic data
  | freeMessage message =>
      cases h
      exact .freesMessage message

theorem appMqttStartStep_moves {pc : StartPc}
    (h : s.appMqttStartStep ok pc = some s') : StartMoves s pc s' := by
  cases pc with
  | idle => cases h
  | setCtx n =>
      cases h
      exact .setCtx n
  | createEvents n =>
      simp only [appMqttStartStep] at h
      split at h <;> cases h
      · exact .createEvents n
      · exact .noEvents n
  | createQueue n =>
      simp only [appMqttStartStep] at h
      split at h <;> cases h
      · exact .createQueue n
      · exact .noQueue n
  | createTask n =>
      simp only [appMqttStartStep] at h
      split at h <;> cases h
      · exact .createTask n
      · exact .noTask n
  | raise n =>
      cases h
      exact .raise n
  | undoQueue n =>
      simp only [appMqttStartStep] at h
      split at h
      · cases h
        exact .halt _
      · next q hqueue =>
          split at h <;> cases h
          · next hlive => exact .undoQueue n q hqueue hlive
          · exact .halt _
  | undoQueueField n =>
      cases h
      exact .undoQueueField n
  | undoEvents n =>
      simp only [appMqttStartStep] at h
      split at h
      · cases h
        exact .halt _
      · next e hevents =>
          split at h <;> cases h
          · next hlive => exact .undoEvents n e hevents hlive
          · exact .halt _
  | undoEventsField n =>
      cases h
      exact .undoEventsField n

/-- A step of the machine with the action that makes it. -/
inductive MqttMoves (s : MqttSystem) : MqttAction → MqttSystem → Prop
  | started (hidle : s.caller = .idle) (hstarted : s.started = true) :
      MqttMoves s .start s
  | start (hidle : s.caller = .idle) (hstarted : s.started = false) :
      MqttMoves s .start { s with
        caller := .setCtx s.sessionCount
        sessionCount := s.sessionCount + 1 }
  | caller (ok : Bool) {s' : MqttSystem} (h : StartMoves s s.caller s') :
      MqttMoves s (.caller ok) s'
  | main (n : ℕ) (a : MainAnswer) (pc : MainPc) {s' : MqttSystem}
      (hpc : s.mains n = .running pc) (h : MainMoves s n pc s') :
      MqttMoves s (.main n a) s'
  | refresher (n : ℕ) (ok : Bool) {s' : MqttSystem}
      (halive : (s.refreshers n).alive = true)
      (h : RefresherMoves s n (s.refreshers n) s') :
      MqttMoves s (.refresher n ok) s'
  | sub (n : ℕ) {s' : MqttSystem} (halive : (s.subs n).alive = true)
      (h : SubMoves s n (s.subs n) s') :
      MqttMoves s (.sub n) s'

theorem mqttMachine_moves {a : MqttAction}
    (h : mqttMachine.step s a = some s') : MqttMoves s a s' := by
  simp only [mqttMachine] at h
  split at h
  · cases h
  · cases a with
    | start =>
        simp only at h
        split at h
        · next hidle =>
            split at h <;> cases h
            · next hstarted => exact .started hidle hstarted
            · next hstarted => exact .start hidle (by simpa using hstarted)
        · cases h
    | caller ok => exact .caller ok (appMqttStartStep_moves h)
    | main n a =>
        simp only at h
        split at h
        · next pc hpc => exact .main n a pc hpc (appMqttTaskStep_moves h)
        · cases h
        · cases h
    | refresher n ok =>
        refine .refresher n ok ?_ (clientRefresherStep_moves h)
        simp only at h
        cases hplace : s.refreshers n <;> rw [hplace] at h <;>
          first | rfl | cases h
    | sub n =>
        refine .sub n ?_ (subscriptionProcessStep_moves h)
        simp only at h
        cases hplace : s.subs n <;> rw [hplace] at h <;> first | rfl | cases h

end Moves

/-! ## Session numbers -/

/-- The session that `APP_MQTT_Start` has no task for yet. -/
def StartPc.creating : StartPc → Option ℕ
  | .setCtx n | .createEvents n | .createQueue n | .createTask n => some n
  | .undoQueue n | .undoQueueField n | .undoEvents n | .undoEventsField n =>
      some n
  | .idle | .raise _ => none

/-- The task has not created its refresher yet. -/
def MainPc.refresherAhead : MainPc → Bool
  | .mac | .dns | .dnsWait | .dnsWaiting | .connect | .sslConfigure | .secure
  | .takeConnect | .connectHeld | .createRefresher => true
  | _ => false

/-- The task has not created its subscription task yet. -/
def MainPc.subAhead : MainPc → Bool
  | .createSub => true
  | pc => pc.refresherAhead

def MainPlace.refresherAhead : MainPlace → Bool
  | .absent => true
  | .running pc => pc.refresherAhead
  | .ended => false

def MainPlace.subAhead : MainPlace → Bool
  | .absent => true
  | .running pc => pc.subAhead
  | .ended => false

namespace MqttSystem

/-- Session numbers are used once, and every task of a session is created
once. -/
structure FreshSessions (s : MqttSystem) : Prop where
  ahead : ∀ n, s.sessionCount ≤ n → s.mains n = .absent
  creating : ∀ n, s.caller.creating = some n →
    n < s.sessionCount ∧ s.mains n = .absent
  refresher : ∀ n, (s.mains n).refresherAhead = true → s.refreshers n = .absent
  sub : ∀ n, (s.mains n).subAhead = true → s.subs n = .absent

/-- A step that does not start a session. -/
structure KeepsSessions (s s' : MqttSystem) : Prop where
  count : s'.sessionCount = s.sessionCount
  caller : ∀ n, s'.caller.creating = some n → s.caller.creating = some n
  mains : ∀ n, s'.mains n = .absent ↔ s.mains n = .absent
  refresher : ∀ n, (s'.mains n).refresherAhead = true →
    (s.mains n).refresherAhead = true ∧
      (s.refreshers n = .absent → s'.refreshers n = .absent)
  sub : ∀ n, (s'.mains n).subAhead = true →
    (s.mains n).subAhead = true ∧ (s.subs n = .absent → s'.subs n = .absent)

theorem FreshSessions.keep {s s' : MqttSystem} (h : s.FreshSessions)
    (hkeeps : s.KeepsSessions s') : s'.FreshSessions := by
  refine ⟨?_, ?_, ?_, ?_⟩
  · intro n hn
    rw [hkeeps.count] at hn
    exact (hkeeps.mains n).mpr (h.ahead n hn)
  · intro n hn
    obtain ⟨hlt, habsent⟩ := h.creating n (hkeeps.caller n hn)
    rw [hkeeps.count]
    exact ⟨hlt, (hkeeps.mains n).mpr habsent⟩
  · intro n hn
    obtain ⟨hahead, hkeep⟩ := hkeeps.refresher n hn
    exact hkeep (h.refresher n hahead)
  · intro n hn
    obtain ⟨hahead, hkeep⟩ := hkeeps.sub n hn
    exact hkeep (h.sub n hahead)

end MqttSystem

section Frames

variable {s s' : MqttSystem} {n : ℕ}

/-- A value that is not there yet is not the one a step writes over. -/
theorem update_absent {α : Type*} {f : ℕ → α} {absent place : α}
    (h : f n ≠ absent) {k : ℕ} (hk : f k = absent) :
    Function.update f n place k = absent := by
  have hne : k ≠ n := by
    rintro rfl
    exact h hk
  rw [Function.update_of_ne hne]
  exact hk

theorem update_absent_iff {α : Type*} {f : ℕ → α} {absent place : α}
    (h : f n ≠ absent) (hplace : place ≠ absent) (k : ℕ) :
    Function.update f n place k = absent ↔ f k = absent := by
  refine ⟨?_, update_absent h⟩
  intro hk
  by_cases hkn : k = n
  · subst hkn
    rw [Function.update_self] at hk
    exact absurd hk hplace
  · rwa [Function.update_of_ne hkn] at hk

/-- What `g` says of the value that is written. -/
theorem update_self_eq {α β : Type*} {f : ℕ → α} (g : α → β) {place : α} {b : β}
    (h : g place = b) : g (Function.update f n place n) = b := by
  rw [Function.update_self]
  exact h

/-- What a write leaves as `g` has it is the same for every entry. -/
theorem update_keeps {α β : Type*} {f : ℕ → α} (g : α → β) {place : α}
    (h : g place = g (f n)) (k : ℕ) : g (Function.update f n place k) = g (f k) := by
  by_cases hk : k = n
  · subst hk
    exact update_self_eq g h
  · rw [Function.update_of_ne hk]

theorem RefresherPlace.ne_absent {place : RefresherPlace}
    (h : place.alive = true) : place ≠ .absent := by
  rintro rfl
  cases h

theorem SubPlace.ne_absent {place : SubPlace} (h : place.alive = true) :
    place ≠ .absent := by
  rintro rfl
  cases h

/-- The task goes on to `place`, and what was created before stays created. -/
structure MainPlace.Follows (pc : MainPc) (place : MainPlace) : Prop where
  started : place ≠ .absent
  refresher : place.refresherAhead = true → pc.refresherAhead = true
  sub : place.subAhead = true → pc.subAhead = true

theorem Goes.follows {pc pc' : MainPc} (h : Goes s pc pc') :
    MainPlace.Follows pc (.running pc') := by
  cases h with
  | noSub | sub | refresher => exact ⟨by rintro ⟨⟩, by rintro ⟨⟩, by rintro ⟨⟩⟩
  | noRefresher last =>
      cases last <;> exact ⟨by rintro ⟨⟩, by rintro ⟨⟩, by rintro ⟨⟩⟩
  | _ => exact ⟨by rintro ⟨⟩, by decide, by decide⟩

theorem Takes.follows {pc pc' : MainPc} (h : Takes pc pc') :
    MainPlace.Follows pc (.running pc') := by
  cases h <;> exact ⟨by rintro ⟨⟩, by decide, by decide⟩

theorem Gives.follows {pc pc' : MainPc} (h : Gives pc pc') :
    MainPlace.Follows pc (.running pc') := by
  cases h <;> exact ⟨by rintro ⟨⟩, by decide, by decide⟩

theorem Uses.follows {r r' : SessionResources} {pc pc' : MainPc}
    (h : Uses r pc r' pc') : MainPlace.Follows pc (.running pc') := by
  cases h <;> exact ⟨by rintro ⟨⟩, by decide, by decide⟩

theorem MainPlace.Follows.update_ahead {pc : MainPc} {place : MainPlace}
    (h : MainPlace.Follows pc place) (hpc : s.mains n = .running pc) (k : ℕ) :
    ((Function.update s.mains n place k).refresherAhead = true →
        (s.mains k).refresherAhead = true) ∧
      ((Function.update s.mains n place k).subAhead = true →
        (s.mains k).subAhead = true) := by
  by_cases hk : k = n
  · subst hk
    rw [Function.update_self, hpc]
    exact ⟨h.refresher, h.sub⟩
  · rw [Function.update_of_ne hk]
    exact ⟨id, id⟩

/-- What the task creates behind `pc` is its own and was still ahead. -/
theorem MainPlace.Follows.keepsSessions {pc : MainPc} {place : MainPlace}
    (h : MainPlace.Follows pc place) (hpc : s.mains n = .running pc)
    (hcount : s'.sessionCount = s.sessionCount) (hcaller : s'.caller = s.caller)
    (hmains : s'.mains = Function.update s.mains n place)
    (hrefreshers : ∀ k, s.refreshers k = .absent → s'.refreshers k ≠ .absent →
      k = n ∧ place.refresherAhead = false)
    (hsubs : ∀ k, s.subs k = .absent → s'.subs k ≠ .absent →
      k = n ∧ place.subAhead = false) : s.KeepsSessions s' := by
  have hmain : s.mains n ≠ .absent := by
    rw [hpc]
    rintro ⟨⟩
  refine ⟨hcount, fun k => by rw [hcaller]; exact id, ?_, ?_, ?_⟩
  · rw [hmains]
    exact update_absent_iff hmain h.started
  · intro k hk
    rw [hmains] at hk
    refine ⟨(h.update_ahead hpc k).1 hk, ?_⟩
    intro habsent
    by_contra hnew
    obtain ⟨rfl, hplace⟩ := hrefreshers k habsent hnew
    rw [Function.update_self, hplace] at hk
    cases hk
  · intro k hk
    rw [hmains] at hk
    refine ⟨(h.update_ahead hpc k).2 hk, ?_⟩
    intro habsent
    by_contra hnew
    obtain ⟨rfl, hplace⟩ := hsubs k habsent hnew
    rw [Function.update_self, hplace] at hk
    cases hk

/-- The task creates nothing. -/
theorem MainPlace.Follows.quiet {pc : MainPc} {place : MainPlace}
    (h : MainPlace.Follows pc place) (hpc : s.mains n = .running pc)
    (hcount : s'.sessionCount = s.sessionCount) (hcaller : s'.caller = s.caller)
    (hmains : s'.mains = Function.update s.mains n place)
    (hrefreshers : s'.refreshers = s.refreshers) (hsubs : s'.subs = s.subs) :
    s.KeepsSessions s' := by
  refine h.keepsSessions hpc hcount hcaller hmains ?_ ?_
  · intro k habsent hnew
    rw [hrefreshers] at hnew
    exact absurd habsent hnew
  · intro k habsent hnew
    rw [hsubs] at hnew
    exact absurd habsent hnew

theorem MainPlace.Follows.of_past {pc pc' : MainPc}
    (hrefresher : pc'.refresherAhead = false) (hsub : pc'.subAhead = false) :
    MainPlace.Follows pc (.running pc') := by
  refine ⟨by rintro ⟨⟩, ?_, ?_⟩
  · intro htrue
    exact absurd (hrefresher.symm.trans htrue) (by decide)
  · intro htrue
    exact absurd (hsub.symm.trans htrue) (by decide)

theorem MainMoves.keepsSessions {pc : MainPc} (h : MainMoves s n pc s')
    (hpc : s.mains n = .running pc) : s.KeepsSessions s' := by
  have hended : MainPlace.Follows pc .ended :=
    ⟨by rintro ⟨⟩, by rintro ⟨⟩, by rintro ⟨⟩⟩
  have hpast : ∀ pc' : MainPc, pc'.refresherAhead = false →
      pc'.subAhead = false → MainPlace.Follows pc (.running pc') :=
    fun pc' => .of_past
  cases h with
  | halt => exact ⟨rfl, fun _ => id, fun _ => Iff.rfl, fun _ h => ⟨h, id⟩,
      fun _ h => ⟨h, id⟩⟩
  | goes hgoes => exact hgoes.follows.quiet hpc rfl rfl rfl rfl rfl
  | takes htakes => exact htakes.follows.quiet hpc rfl rfl rfl rfl rfl
  | gives hgives => exact hgives.follows.quiet hpc rfl rfl rfl rfl rfl
  | uses huses => exact huses.follows.quiet hpc rfl rfl rfl rfl rfl
  | noSubTask | noRefresherTask | deleteSelf =>
      exact hended.quiet hpc rfl rfl rfl rfl rfl
  | createRefresher =>
      have hfollows : MainPlace.Follows .createRefresher (.running .createSub) :=
        ⟨by rintro ⟨⟩, by rintro ⟨⟩, fun _ => rfl⟩
      refine hfollows.keepsSessions hpc rfl rfl rfl ?_
        fun _ habsent hnew => absurd habsent hnew
      intro k habsent hnew
      by_contra hk
      have hne : k ≠ n := fun heq => hk ⟨heq, rfl⟩
      exact hnew ((Function.update_of_ne hne ..).trans habsent)
  | createSub =>
      refine (hpast _ rfl rfl).keepsSessions hpc rfl rfl rfl
        (fun _ habsent hnew => absurd habsent hnew) ?_
      intro k habsent hnew
      by_contra hk
      have hne : k ≠ n := fun heq => hk ⟨heq, rfl⟩
      exact hnew ((Function.update_of_ne hne ..).trans habsent)
  | deleteSub last k hhandle halive =>
      refine (hpast _ rfl rfl).keepsSessions hpc rfl rfl rfl
        (fun _ habsent hnew => absurd habsent hnew) ?_
      intro i habsent hnew
      exact absurd (update_absent (SubPlace.ne_absent halive) habsent) hnew
  | deleteRefresher last k hhandle halive =>
      refine (hpast _ rfl rfl).keepsSessions hpc rfl rfl rfl ?_
        fun _ habsent hnew => absurd habsent hnew
      intro i habsent hnew
      exact absurd (update_absent (RefresherPlace.ne_absent halive) habsent) hnew
  | clearRefresher last =>
      cases last <;> exact (hpast _ rfl rfl).quiet hpc rfl rfl rfl rfl rfl
  | _ => exact (hpast _ rfl rfl).quiet hpc rfl rfl rfl rfl rfl

theorem RefresherMoves.keepsSessions
    (h : RefresherMoves s n (s.refreshers n) s')
    (halive : (s.refreshers n).alive = true) : s.KeepsSessions s' := by
  have hset : ∀ place k, s.refreshers k = .absent →
      Function.update s.refreshers n place k = .absent :=
    fun place k => update_absent (RefresherPlace.ne_absent halive)
  generalize hplace : s.refreshers n = place at h
  cases h with
  | stays | halt =>
      exact ⟨rfl, fun _ => id, fun _ => Iff.rfl, fun _ h => ⟨h, id⟩,
        fun _ h => ⟨h, id⟩⟩
  | _ =>
      exact ⟨rfl, fun _ => id, fun _ => Iff.rfl, fun k h => ⟨h, hset _ k⟩,
        fun _ h => ⟨h, id⟩⟩

theorem SubMoves.keepsSessions (h : SubMoves s n (s.subs n) s')
    (halive : (s.subs n).alive = true) : s.KeepsSessions s' := by
  have hset : ∀ place k, s.subs k = .absent →
      Function.update s.subs n place k = .absent :=
    fun place k => update_absent (SubPlace.ne_absent halive)
  generalize hplace : s.subs n = place at h
  cases h with
  | halt =>
      exact ⟨rfl, fun _ => id, fun _ => Iff.rfl, fun _ h => ⟨h, id⟩,
        fun _ h => ⟨h, id⟩⟩
  | _ =>
      exact ⟨rfl, fun _ => id, fun _ => Iff.rfl, fun _ h => ⟨h, id⟩,
        fun k h => ⟨h, hset _ k⟩⟩

theorem MqttSystem.FreshSessions.start (h : s.FreshSessions)
    (hmoves : StartMoves s s.caller s') : s'.FreshSessions := by
  generalize hcaller : s.caller = pc at hmoves
  have hcreating := h.creating
  rw [hcaller] at hcreating
  have hkeeps : (∀ k, s'.caller.creating = some k → pc.creating = some k) →
      s'.sessionCount = s.sessionCount → s'.mains = s.mains →
      s'.refreshers = s.refreshers → s'.subs = s.subs → s'.FreshSessions := by
    intro hpc hcount hmains hrefreshers hsubs
    apply h.keep
    refine ⟨hcount, ?_, fun k => by rw [hmains], ?_, ?_⟩
    · rw [hcaller]
      exact hpc
    · intro k hk
      rw [hmains] at hk
      rw [hrefreshers]
      exact ⟨hk, id⟩
    · intro k hk
      rw [hmains] at hk
      rw [hsubs]
      exact ⟨hk, id⟩
  cases hmoves with
  | createTask n =>
      obtain ⟨hlt, habsent⟩ := hcreating n rfl
      refine ⟨?_, ?_, ?_, ?_⟩
      · intro k hk
        have hne : k ≠ n := by
          rintro rfl
          exact absurd hlt (Nat.not_lt.mpr hk)
        exact (Function.update_of_ne hne ..).trans (h.ahead k hk)
      · rintro k ⟨⟩
      · intro k hk
        by_cases hkn : k = n
        · subst hkn
          exact h.refresher k (by rw [habsent]; rfl)
        · change (Function.update s.mains n _ k).refresherAhead = true at hk
          rw [Function.update_of_ne hkn] at hk
          exact h.refresher k hk
      · intro k hk
        by_cases hkn : k = n
        · subst hkn
          exact h.sub k (by rw [habsent]; rfl)
        · change (Function.update s.mains n _ k).subAhead = true at hk
          rw [Function.update_of_ne hkn] at hk
          exact h.sub k hk
  | halt =>
      refine hkeeps ?_ rfl rfl rfl rfl
      rw [← hcaller]
      exact fun _ => id
  | noEvents => exact hkeeps (by rintro k ⟨⟩) rfl rfl rfl rfl
  | raise => exact hkeeps (by rintro k ⟨⟩) rfl rfl rfl rfl
  | undoEventsField => exact hkeeps (by rintro k ⟨⟩) rfl rfl rfl rfl
  | _ => exact hkeeps (fun _ => id) rfl rfl rfl rfl

/-- Along every run session numbers are used once. -/
theorem mqttMachine_freshSessions {guard : MqttSystem → MqttAction → Prop}
    (h : mqttMachine.ReachableVia guard s) : s.FreshSessions := by
  apply h.invariant
  · rintro s rfl
    exact ⟨fun _ _ => rfl, by rintro n ⟨⟩, fun _ _ => rfl, fun _ _ => rfl⟩
  · intro s a s' hs _ hstep
    cases mqttMachine_moves hstep with
    | started hidle hstarted => exact hs
    | start hidle hstarted =>
        refine ⟨fun n hn => hs.ahead n (Nat.le_of_succ_le hn), ?_, hs.refresher,
          hs.sub⟩
        rintro n ⟨⟩
        exact ⟨Nat.lt_succ_self _, hs.ahead _ (Nat.le_refl _)⟩
    | caller ok hmoves => exact hs.start hmoves
    | main n a pc hpc hmoves => exact hs.keep (hmoves.keepsSessions hpc)
    | refresher n ok halive hmoves => exact hs.keep (hmoves.keepsSessions halive)
    | sub n halive hmoves => exact hs.keep (hmoves.keepsSessions halive)

end Frames

/-! ## Pieces of runs -/

/-- A call of `APP_MQTT_Start` in which everything succeeds. -/
def startSession : List MqttAction := .start :: List.replicate 5 (.caller true)

/-- The task of session `n` up to the connected socket. -/
def openSocket (n : ℕ) : List MqttAction :=
  [.main n .ok, .main n .ok, .main n (.tcp true true)]

/-- The task of session `n` from the TLS configuration to its loop. -/
def connectBroker (n : ℕ) : List MqttAction :=
  [.main n .ok, .main n (.tls ⟨true, true, .done, 0⟩)] ++
    List.replicate 6 (.main n .ok)

/-- The task of session `n` publishes, which fails. -/
def failPublish (n : ℕ) : List MqttAction :=
  [.main n .ok, .main n .ok, .main n .failed]

/-- The task of session `n` behind the label `_exit`. -/
def exitSession (n : ℕ) : List MqttAction := List.replicate 11 (.main n .ok)

end RtpMulticast
