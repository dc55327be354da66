import RtpMulticast.Mqtt.Definitions

/-!
# The MQTT task

`APP_MQTT_Task` with the functions it calls, one step for each access of a
shared variable, the mutex or the scheduler.  The answers of the other
functions are part of the actions.
-/

namespace RtpMulticast

/-! ## Connecting -/

/-- `tcp_client_connect` over the answers of `lwip_socket` and `lwip_connect`;
a socket that does not connect is closed again. -/
def tcpClientConnect (r : SessionResources) (socket connected : Bool) :
    SessionResources :=
  if !socket then r
  else if !connected then
    { r with opened := r.opened + 1, closes := r.closes + 1 }
  else { r with sockfd := true, opened := r.opened + 1 }

/-- The call of `ssl_secure_connection`; `ssl_configure` asks for an optional
verification of the peer. -/
def secureSession (r : SessionResources) (answers : SecureAnswers) :
    SessionResources :=
  let result := sslSecureConnection true .optional answers
  { r with
    closes := r.closes + result.closes
    connection := result.connection }

/-- `if (sockfd >= 0) close(sockfd)` -/
def closeSocket (r : SessionResources) : SessionResources :=
  if r.sockfd then { r with closes := r.closes + 1 } else r

/-! ## Steps -/

/-- What a called function answers.  `pending` is a resolution in progress. -/
inductive MainAnswer where
  | ok
  | failed
  | pending
  | tcp (socket connected : Bool)
  | tls (answers : SecureAnswers)
  deriving DecidableEq, Repr

def MainAnswer.isOk : MainAnswer → Bool
  | .ok => true
  | _ => false

/-- Where the task goes on behind `APP_MQTT_StopAuxTasks`. -/
def afterStop (last : Bool) : MainPc :=
  if last then .testQueue else .takeDisconnect

namespace MqttSystem

/-- `xSemaphoreTake` with a timeout. -/
def takeMutex (s : MqttSystem) (n : ℕ) (held timeout : MainPc) : MqttSystem :=
  if s.clientMutex = none then (s.setMutex (some (.main n))).goto n held
  else s.goto n timeout

/-- `APP_MQTT_StopAuxTasks` in the task of session `n`.  Deleting the task NULL
deletes the caller, and a task can be deleted once. -/
def stopAuxTasksStep (s : MqttSystem) (n : ℕ) (last : Bool) :
    StopStage → MqttSystem
  | .testSub =>
      s.goto n (.stop last
        (if s.subTask.isSome then .deleteSub else .testRefresher))
  | .deleteSub =>
      match s.subTask with
      | none => s.setMain n .ended
      | some k =>
          if (s.subs k).alive then
            (s.setSub k .deleted).goto n (.stop last .clearSub)
          else s.halt
  | .clearSub => { s with subTask := none }.goto n (.stop last .testRefresher)
  | .testRefresher =>
      s.goto n (if s.refresherTask.isSome then .stop last .deleteRefresher
        else afterStop last)
  | .deleteRefresher =>
      match s.refresherTask with
      | none => s.setMain n .ended
      | some k =>
          if (s.refreshers k).alive then
            (s.setRefresher k .deleted).goto n (.stop last .clearRefresher)
          else s.halt
  | .clearRefresher => { s with refresherTask := none }.goto n (afterStop last)

/-- A step of `APP_MQTT_Task` of session `n`. -/
def appMqttTaskStep (s : MqttSystem) (n : ℕ) (a : MainAnswer) :
    MainPc → Option MqttSystem
  | .mac => some (s.goto n (if a.isOk then .dns else .clearStarted))
  | .dns =>
      match a with
      | .ok => some (s.goto n .connect)
      | .pending => some (s.goto n .dnsWait)
      | _ => some (s.goto n .clearStarted)
  | .dnsWait =>
      match s.dnsEventFlags with
      | none => some s.halt
      | some e =>
          if s.eventGroups e = .live then some (s.goto n .dnsWaiting)
          else some s.halt
  | .dnsWaiting => some (s.goto n (if a.isOk then .connect else .clearStarted))
  | .connect =>
      match a with
      | .tcp socket connected =>
          let r := tcpClientConnect (s.resources n) socket connected
          some ((s.setResources n r).goto n
            (if r.sockfd then .sslConfigure else .clearStarted))
      | _ => none
  | .sslConfigure =>
      if a.isOk then
        some ((s.setResources n
          { s.resources n with configuration := true }).goto n .secure)
      else some (s.goto n .closeSock)
  | .secure =>
      match a with
      | .tls answers =>
          let r := secureSession (s.resources n) answers
          some ((s.setResources n r).goto n
            (if r.connection then .takeConnect else .closeSock))
      | _ => none
  | .takeConnect => some (s.takeMutex n .connectHeld .closeSock)
  | .connectHeld =>
      some ((s.setMutex none).goto n
        (if a.isOk then .createRefresher else .closeSock))
  | .createRefresher =>
      -- The handle is written before the new task can run.
      if a.isOk then
        some ({ s.setRefresher n .waiting with
          refresherTask := some n }.goto n .createSub)
      else some (s.goto n (.stop false .testSub))
  | .createSub =>
      if a.isOk then
        some ({ s.setSub n .receiving with
          subTask := some n }.goto n .takeSubscribe)
      else some (s.goto n (.stop false .testSub))
  | .takeSubscribe => some (s.takeMutex n .subscribeHeld .loop)
  | .subscribeHeld => some ((s.setMutex none).goto n .loop)
  | .loop => some (s.goto n (if a.isOk then .takePublish else .loop))
  | .takePublish => some (s.takeMutex n .publishHeld .loop)
  | .publishHeld =>
      some ((s.setMutex none).goto n
        (if a.isOk then .loop else .stop false .testSub))
  | .stop last stage => some (s.stopAuxTasksStep n last stage)
  | .takeDisconnect => some (s.takeMutex n .disconnectHeld .closeSock)
  | .disconnectHeld => some ((s.setMutex none).goto n .closeSock)
  | .closeSock =>
      some ((s.setResources n (closeSocket (s.resources n))).goto n
        .clearStarted)
  | .clearStarted =>
      some ({ s with started := false }.goto n (.stop true .testSub))
  | .testQueue =>
      some (s.goto n
        (if s.subMsgQueue.isSome then .deleteQueue else .testEvents))
  | .deleteQueue =>
      match s.subMsgQueue with
      | none => some s.halt
      | some q =>
          if (s.queues q).state = .live then
            some ({ s.setQueue q ⟨.deleted, []⟩ with
              removals := ⟨n, q⟩ :: s.removals }.goto n .clearQueue)
          else some s.halt
  | .clearQueue => some ({ s with subMsgQueue := none }.goto n .testEvents)
  | .testEvents =>
      some (s.goto n
        (if s.dnsEventFlags.isSome then .deleteEvents else .clearCtx))
  | .deleteEvents =>
      match s.dnsEventFlags with
      | none => some s.halt
      | some e =>
          if s.eventGroups e = .live then
            some ({ s.setEvents e .deleted with
              removals := ⟨n, e⟩ :: s.removals }.goto n .clearEvents)
          else some s.halt
  | .clearEvents => some ({ s with dnsEventFlags := none }.goto n .clearCtx)
  | .clearCtx =>
      some ({ s with
        sCtx := none
        removals :=
          match s.sCtx with
          | some k => ⟨n, k⟩ :: s.removals
          | none => s.removals }.goto n .deleteSelf)
  | .deleteSelf => some (s.setMain n .ended)

end MqttSystem

/-! ## What a step is -/

/-- Steps that write no shared variable, with what they have read. -/
inductive Goes (s : MqttSystem) : MainPc → MainPc → Prop
  | macOk : Goes s .mac .dns
  | macFailed : Goes s .mac .clearStarted
  | dnsOk : Goes s .dns .connect
  | dnsPending : Goes s .dns .dnsWait
  | dnsFailed : Goes s .dns .clearStarted
  | dnsWait : Goes s .dnsWait .dnsWaiting
  | dnsResolved : Goes s .dnsWaiting .connect
  | dnsTimeout : Goes s .dnsWaiting .clearStarted
  | configureFailed : Goes s .sslConfigure .closeSock
  | connectTimeout : Goes s .takeConnect .closeSock
  | refresherFailed : Goes s .createRefresher (.stop false .testSub)
  | subFailed : Goes s .createSub (.stop false .testSub)
  | subscribeTimeout : Goes s .takeSubscribe .loop
  | skip : Goes s .loop .loop
  | publish : Goes s .loop .takePublish
  | publishTimeout : Goes s .takePublish .loop
  | noSub (last : Bool) (h : s.subTask = none) :
      Goes s (.stop last .testSub) (.stop last .testRefresher)
  | sub (last : Bool) (k : ℕ) (h : s.subTask = some k) :
      Goes s (.stop last .testSub) (.stop last .deleteSub)
  | noRefresher (last : Bool) (h : s.refresherTask = none) :
      Goes s (.stop last .testRefresher) (afterStop last)
  | refresher (last : Bool) (k : ℕ) (h : s.refresherTask = some k) :
      Goes s (.stop last .testRefresher) (.stop last .deleteRefresher)
  | disconnectTimeout : Goes s .takeDisconnect .closeSock
  | noQueue (h : s.subMsgQueue = none) : Goes s .testQueue .testEvents
  | queue (q : ℕ) (h : s.subMsgQueue = some q) : Goes s .testQueue .deleteQueue
  | noEvents (h : s.dnsEventFlags = none) : Goes s .testEvents .clearCtx
  | events (e : ℕ) (h : s.dnsEventFlags = some e) :
      Goes s .testEvents .deleteEvents

/-- A place where the mutex is taken and the place behind it. -/
inductive Takes : MainPc → MainPc → Prop
  | connect : Takes .takeConnect .connectHeld
  | subscribe : Takes .takeSubscribe .subscribeHeld
  | publish : Takes .takePublish .publishHeld
  | disconnect : Takes .takeDisconnect .disconnectHeld

/-- A place where the mutex is given back and a place behind it. -/
inductive Gives : MainPc → MainPc → Prop
  | connected : Gives .connectHeld .createRefresher
  | connectFailed : Gives .connectHeld .closeSock
  | subscribed : Gives .subscribeHeld .loop
  | published : Gives .publishHeld .loop
  | publishFailed : Gives .publishHeld (.stop false .testSub)
  | disconnected : Gives .disconnectHeld .closeSock

/-- Steps that change the socket or the TLS objects. -/
inductive Uses (r : SessionResources) :
    MainPc → SessionResources → MainPc → Prop
  | connected (socket connected : Bool)
      (h : (tcpClientConnect r socket connected).sockfd = true) :
      Uses r .connect (tcpClientConnect r socket connected) .sslConfigure
  | connectFailed (socket connected : Bool)
      (h : (tcpClientConnect r socket connected).sockfd = false) :
      Uses r .connect (tcpClientConnect r socket connected) .clearStarted
  | configured :
      Uses r .sslConfigure { r with configuration := true } .secure
  | secured (answers : SecureAnswers)
      (h : (secureSession r answers).connection = true) :
      Uses r .secure (secureSession r answers) .takeConnect
  | secureFailed (answers : SecureAnswers)
      (h : (secureSession r answers).connection = false) :
      Uses r .secure (secureSession r answers) .closeSock
  | close : Uses r .closeSock (closeSocket r) .clearStarted

open MqttSystem

/-- The steps of the task of session `n` by what they write. -/
inductive MainMoves (s : MqttSystem) (n : ℕ) : MainPc → MqttSystem → Prop
  | goes {pc pc' : MainPc} (h : Goes s pc pc') : MainMoves s n pc (s.goto n pc')
  | takes {pc pc' : MainPc} (h : Takes pc pc') (hfree : s.clientMutex = none) :
      MainMoves s n pc ((s.setMutex (some (.main n))).goto n pc')
  | gives {pc pc' : MainPc} (h : Gives pc pc') :
      MainMoves s n pc ((s.setMutex none).goto n pc')
  | uses {pc pc' : MainPc} {r : SessionResources}
      (h : Uses (s.resources n) pc r pc') :
      MainMoves s n pc ((s.setResources n r).goto n pc')
  | createRefresher :
      MainMoves s n .createRefresher
        ({ s.setRefresher n .waiting with
          refresherTask := some n }.goto n .createSub)
  | createSub :
      MainMoves s n .createSub
        ({ s.setSub n .receiving with subTask := some n }.goto n .takeSubscribe)
  | deleteSub (last : Bool) (k : ℕ) (hhandle : s.subTask = some k)
      (halive : (s.subs k).alive = true) :
      MainMoves s n (.stop last .deleteSub)
        ((s.setSub k .deleted).goto n (.stop last .clearSub))
  | clearSub (last : Bool) :
      MainMoves s n (.stop last .clearSub)
        ({ s with subTask := none }.goto n (.stop last .testRefresher))
  | deleteRefresher (last : Bool) (k : ℕ) (hhandle : s.refresherTask = some k)
      (halive : (s.refreshers k).alive = true) :
      MainMoves s n (.stop last .deleteRefresher)
        ((s.setRefresher k .deleted).goto n (.stop last .clearRefresher))
  | clearRefresher (last : Bool) :
      MainMoves s n (.stop last .clearRefresher)
        ({ s with refresherTask := none }.goto n (afterStop last))
  | noSubTask (last : Bool) (hhandle : s.subTask = none) :
      MainMoves s n (.stop last .deleteSub) (s.setMain n .ended)
  | noRefresherTask (last : Bool) (hhandle : s.refresherTask = none) :
      MainMoves s n (.stop last .deleteRefresher) (s.setMain n .ended)
  | clearStarted :
      MainMoves s n .clearStarted
        ({ s with started := false }.goto n (.stop true .testSub))
  | deleteQueue (q : ℕ) (hhandle : s.subMsgQueue = some q)
      (hlive : (s.queues q).state = .live) :
      MainMoves s n .deleteQueue
        ({ s.setQueue q ⟨.deleted, []⟩ with
          removals := ⟨n, q⟩ :: s.removals }.goto n .clearQueue)
  | clearQueue :
      MainMoves s n .clearQueue ({ s with subMsgQueue := none }.goto n .testEvents)
  | deleteEvents (e : ℕ) (hhandle : s.dnsEventFlags = some e)
      (hlive : s.eventGroups e = .live) :
      MainMoves s n .deleteEvents
        ({ s.setEvents e .deleted with
          removals := ⟨n, e⟩ :: s.removals }.goto n .clearEvents)
  | clearEvents :
      MainMoves s n .clearEvents ({ s with dnsEventFlags := none }.goto n .clearCtx)
  | clearCtx {removals : List Removal}
      (hremovals : removals = s.removals ∨
        ∃ k, s.sCtx = some k ∧ removals = ⟨n, k⟩ :: s.removals) :
      MainMoves s n .clearCtx
        ({ s with sCtx := none, removals := removals }.goto n .deleteSelf)
  | deleteSelf : MainMoves s n .deleteSelf (s.setMain n .ended)
  | halt {pc : MainPc} : MainMoves s n pc s.halt

section Moves

variable {s s' : MqttSystem} {n : ℕ} {a : MainAnswer} {pc : MainPc}

/-- Either branch of an answer is a step. -/
theorem MainMoves.ite {t t' : MqttSystem} {c : Prop} [Decidable c]
    (ht : c → MainMoves s n pc t) (ht' : ¬ c → MainMoves s n pc t') :
    MainMoves s n pc (if c then t else t') := by
  split
  · next hc => exact ht hc
  · next hc => exact ht' hc

theorem MainMoves.gotoIte {first second : MainPc} {c : Prop} [Decidable c]
    (hfirst : c → Goes s pc first) (hsecond : ¬ c → Goes s pc second) :
    MainMoves s n pc (s.goto n (if c then first else second)) := by
  split
  · next hc => exact .goes (hfirst hc)
  · next hc => exact .goes (hsecond hc)

theorem takeMutex_moves {held timeout : MainPc} (htakes : Takes pc held)
    (hgoes : Goes s pc timeout) :
    MainMoves s n pc (s.takeMutex n held timeout) :=
  .ite (fun hfree => .takes htakes hfree) fun _ => .goes hgoes

theorem stopAuxTasksStep_moves (last : Bool) (stage : StopStage) :
    MainMoves s n (.stop last stage) (s.stopAuxTasksStep n last stage) := by
  cases stage with
  | testSub =>
      cases hsub : s.subTask with
      | none =>
          simp only [stopAuxTasksStep, hsub]
          exact .goes (.noSub last hsub)
      | some k =>
          simp only [stopAuxTasksStep, hsub]
          exact .goes (.sub last k hsub)
  | deleteSub =>
      cases hsub : s.subTask with
      | none =>
          simp only [stopAuxTasksStep, hsub]
          exact .noSubTask last hsub
      | some k =>
          simp only [stopAuxTasksStep, hsub]
          exact .ite (fun halive => .deleteSub last k hsub halive) fun _ => .halt
  | clearSub => exact .clearSub last
  | testRefresher =>
      cases hrefresher : s.refresherTask with
      | none =>
          simp only [stopAuxTasksStep, hrefresher]
          exact .goes (.noRefresher last hrefresher)
      | some k =>
          simp only [stopAuxTasksStep, hrefresher]
          exact .goes (.refresher last k hrefresher)
  | deleteRefresher =>
      cases hrefresher : s.refresherTask with
      | none =>
          simp only [stopAuxTasksStep, hrefresher]
          exact .noRefresherTask last hrefresher
      | some k =>
          simp only [stopAuxTasksStep, hrefresher]
          exact .ite (fun halive => .deleteRefresher last k hrefresher halive)
            fun _ => .halt
  | clearRefresher => exact .clearRefresher last

/-- Every step of the task is one of the moves. -/
theorem appMqttTaskStep_moves (h : s.appMqttTaskStep n a pc = some s') :
    MainMoves s n pc s' := by
  cases pc with
  | mac =>
      cases h
      exact .gotoIte (fun _ => .macOk) fun _ => .macFailed
  | dns =>
      cases a with
      | ok =>
          cases h
          exact .goes .dnsOk
      | pending =>
          cases h
          exact .goes .dnsPending
      | _ =>
          cases h
          exact .goes .dnsFailed
  | dnsWait =>
      simp only [appMqttTaskStep] at h
      split at h
      · cases h
        exact .halt
      · split at h <;> cases h
        · exact .goes .dnsWait
        · exact .halt
  | dnsWaiting =>
      cases h
      exact .gotoIte (fun _ => .dnsResolved) fun _ => .dnsTimeout
  | connect =>
      cases a with
      | tcp socket connected =>
        cases h
        cases hfd : (tcpClientConnect (s.resources n) socket connected).sockfd with
        | true => exact .uses (.connected socket connected hfd)
        | false => exact .uses (.connectFailed socket connected hfd)
      | _ => cases h
  | sslConfigure =>
      simp only [appMqttTaskStep] at h
      split at h <;> cases h
      · exact .uses .configured
      · exact .goes .configureFailed
  | secure =>
      cases a with
      | tls answers =>
        cases h
        cases hconn : (secureSession (s.resources n) answers).connection with
        | true => exact .uses (.secured answers hconn)
        | false => exact .uses (.secureFailed answers hconn)
      | _ => cases h
  | takeConnect =>
      cases h
      exact takeMutex_moves .connect .connectTimeout
  | connectHeld =>
      cases h
      split
      · exact .gives .connected
      · exact .gives .connectFailed
  | createRefresher =>
      simp only [appMqttTaskStep] at h
      split at h <;> cases h
      · exact .createRefresher
      · exact .goes .refresherFailed
  | createSub =>
      simp only [appMqttTaskStep] at h
      split at h <;> cases h
      · exact .createSub
      · exact .goes .subFailed
  | takeSubscribe =>
      cases h
      exact takeMutex_moves .subscribe .subscribeTimeout
  | subscribeHeld =>
      cases h
      exact .gives .subscribed
  | loop =>
      cases h
      exact .gotoIte (fun _ => .publish) fun _ => .skip
  | takePublish =>
      cases h
      exact takeMutex_moves .publish .publishTimeout
  | publishHeld =>
      cases h
      split
      · exact .gives .published
      · exact .gives .publishFailed
  | stop last stage =>
      cases h
      exact stopAuxTasksStep_moves last stage
  | takeDisconnect =>
      cases h
      exact takeMutex_moves .disconnect .disconnectTimeout
  | disconnectHeld =>
      cases h
      exact .gives .disconnected
  | closeSock =>
      cases h
      exact .uses .close
  | clearStarted =>
      cases h
      exact .clearStarted
  | testQueue =>
      cases h
      cases hqueue : s.subMsgQueue with
      | none => exact .goes (.noQueue hqueue)
      | some q => exact .goes (.queue q hqueue)
  | deleteQueue =>
      simp only [appMqttTaskStep] at h
      split at h
      · cases h
        exact .halt
      · next q hqueue =>
          split at h <;> cases h
          · next hlive => exact .deleteQueue q hqueue hlive
          · exact .halt
  | clearQueue =>
      cases h
      exact .clearQueue
  | testEvents =>
      cases h
      cases hevents : s.dnsEventFlags with
      | none => exact .goes (.noEvents hevents)
      | some e => exact .goes (.events e hevents)
  | deleteEvents =>
      simp only [appMqttTaskStep] at h
      split at h
      · cases h
        exact .halt
      · next e hevents =>
          split at h <;> cases h
          · next hlive => exact .deleteEvents e hevents hlive
          · exact .halt
  | clearEvents =>
      cases h
      exact .clearEvents
  | clearCtx =>
      cases h
      cases hctx : s.sCtx with
      | none => exact .clearCtx (Or.inl rfl)
      | some k => exact .clearCtx (Or.inr ⟨k, hctx, rfl⟩)
  | deleteSelf =>
      cases h
      exact .deleteSelf

end Moves

end RtpMulticast
