import RtpMulticast.Mqtt.Sessions

/-!
# Socket and TLS objects of a session

What a session has opened and closed, followed along the places of
`APP_MQTT_Task`.  Nothing in the module destroys the configuration of
`ssl_configure`, and a failed `ssl_secure_connection` has closed the socket
before the label `_close_sock` closes it again.  A task therefore releases
everything once exactly when it ends before it has a configuration.
-/

namespace RtpMulticast

/-- The socket was closed once if it was opened, and each TLS object destroyed
once if it was returned. -/
structure SessionResources.ReleasedOnce (r : SessionResources) : Prop where
  opened : r.opened ≤ 1
  socket : r.closes = r.opened
  configuration :
    r.configurationDestroys = if r.configuration then 1 else 0
  connection : r.connectionDestroys = if r.connection then 1 else 0

/-! ## Stages of the task -/

/-- The socket is open and there is no TLS object. -/
def openedSocket : SessionResources := ⟨true, 1, 0, false, 0, false, 0⟩

/-- There is a configuration, and nothing has destroyed it. -/
def SessionResources.Configured (r : SessionResources) : Prop :=
  r.configuration = true ∧ r.configurationDestroys = 0

/-- What was opened is closed, and there is no TLS object. -/
def SessionResources.Closed (r : SessionResources) : Prop :=
  r.ReleasedOnce ∧ r.configuration = false

inductive ResourceStage where
  | opening
  | connected
  | secured
  | closing
  | released
  deriving DecidableEq, Repr

def MainPc.resourceStage : MainPc → ResourceStage
  | .mac | .dns | .dnsWait | .dnsWaiting | .connect => .opening
  | .sslConfigure => .connected
  | .closeSock => .closing
  | .secure | .takeConnect | .connectHeld | .createRefresher | .createSub
  | .takeSubscribe | .subscribeHeld | .loop | .takePublish | .publishHeld
  | .stop false _ | .takeDisconnect | .disconnectHeld => .secured
  | .clearStarted | .stop true _ | .testQueue | .deleteQueue | .clearQueue
  | .testEvents | .deleteEvents | .clearEvents | .clearCtx | .deleteSelf =>
      .released

/-- What a session has in a stage. -/
def ResourceStage.Holds (r : SessionResources) : ResourceStage → Prop
  | .opening => r = noResources
  | .connected => r = openedSocket
  | .secured => r.Configured
  | .closing => r = openedSocket ∨ r.Configured
  | .released => r.Closed ∨ r.Configured

def MainPlace.resourceStage : MainPlace → ResourceStage
  | .absent => .opening
  | .running pc => pc.resourceStage
  | .ended => .released

section Steps

variable {s s' : MqttSystem} {n : ℕ} {pc pc' : MainPc}
  {r r' : SessionResources}

theorem noResources_closed : noResources.Closed :=
  ⟨⟨Nat.zero_le _, rfl, rfl, rfl⟩, rfl⟩

/-- Steps that write nothing lead to a stage that asks for no more. -/
theorem Goes.holds (h : Goes s pc pc') (hr : pc.resourceStage.Holds r) :
    pc'.resourceStage.Holds r := by
  cases h with
  | macFailed | dnsFailed | dnsTimeout =>
      have heq : r = noResources := hr
      rw [heq]
      exact Or.inl noResources_closed
  | configureFailed => exact Or.inl hr
  | connectTimeout | disconnectTimeout => exact Or.inr hr
  | noSub last | sub last | refresher last => cases last <;> exact hr
  | noRefresher last => cases last <;> exact hr
  | _ => exact hr

theorem Takes.resourceStage (h : Takes pc pc') :
    pc'.resourceStage = pc.resourceStage := by
  cases h <;> rfl

theorem Gives.holds (h : Gives pc pc') (hr : pc.resourceStage.Holds r) :
    pc'.resourceStage.Holds r := by
  cases h with
  | connectFailed | disconnected => exact Or.inr hr
  | _ => exact hr

theorem tcpClientConnect_refused (socket connected : Bool)
    (h : (tcpClientConnect noResources socket connected).sockfd = false) :
    (tcpClientConnect noResources socket connected).Closed := by
  cases socket <;> cases connected
  · exact noResources_closed
  · exact noResources_closed
  · exact ⟨⟨Nat.le_refl _, rfl, rfl, rfl⟩, rfl⟩
  · cases h

theorem tcpClientConnect_connected (socket connected : Bool)
    (h : (tcpClientConnect noResources socket connected).sockfd = true) :
    tcpClientConnect noResources socket connected = openedSocket := by
  cases socket <;> cases connected
  · cases h
  · cases h
  · cases h
  · rfl

theorem openedSocket_closed : (closeSocket openedSocket).Closed :=
  ⟨⟨Nat.le_refl _, rfl, rfl, rfl⟩, rfl⟩

theorem SessionResources.Configured.secureSession (h : r.Configured)
    (answers : SecureAnswers) : (secureSession r answers).Configured := h

theorem SessionResources.Configured.closeSocket (h : r.Configured) :
    (closeSocket r).Configured := by
  unfold RtpMulticast.closeSocket
  split
  · exact h
  · exact h

/-- Steps that open or close lead to the next stage. -/
theorem Uses.holds (h : Uses r pc r' pc') (hr : pc.resourceStage.Holds r) :
    pc'.resourceStage.Holds r' := by
  cases h with
  | connected socket connected hfd =>
      have heq : r = noResources := hr
      subst heq
      exact tcpClientConnect_connected socket connected hfd
  | connectFailed socket connected hfd =>
      have heq : r = noResources := hr
      subst heq
      exact Or.inl (tcpClientConnect_refused socket connected hfd)
  | configured =>
      have heq : r = openedSocket := hr
      subst heq
      exact ⟨rfl, rfl⟩
  | secured answers hconn => exact hr.secureSession answers
  | secureFailed answers hconn => exact Or.inr (hr.secureSession answers)
  | close =>
      rcases hr with heq | hconfigured
      · subst heq
        exact Or.inl openedSocket_closed
      · exact Or.inr hconfigured.closeSocket

/-- Every session has what the stage of its task says. -/
def MqttSystem.ResourcesHold (s : MqttSystem) : Prop :=
  ∀ n, (s.mains n).resourceStage.Holds (s.resources n)

theorem MqttSystem.ResourcesHold.move {place : MainPlace}
    (h : s.ResourcesHold)
    (hmains : s'.mains = Function.update s.mains n place)
    (hresources : ∀ k, k ≠ n → s'.resources k = s.resources k)
    (hplace : place.resourceStage.Holds (s'.resources n)) :
    s'.ResourcesHold := by
  intro k
  rw [hmains]
  by_cases hk : k = n
  · subst hk
    rw [Function.update_self]
    exact hplace
  · rw [Function.update_of_ne hk, hresources k hk]
    exact h k

theorem MainMoves.resourcesHold (h : MainMoves s n pc s')
    (hpc : s.mains n = .running pc) (hs : s.ResourcesHold) :
    s'.ResourcesHold := by
  have hr : pc.resourceStage.Holds (s.resources n) := by
    have hn := hs n
    rw [hpc] at hn
    exact hn
  have hkeep : ∀ place : MainPlace, s'.mains = Function.update s.mains n place →
      s'.resources = s.resources →
      place.resourceStage.Holds (s.resources n) → s'.ResourcesHold := by
    intro place hmains hresources hplace
    refine hs.move hmains (fun k _ => by rw [hresources]) ?_
    rw [hresources]
    exact hplace
  cases h with
  | goes hgoes => exact hkeep _ rfl rfl (hgoes.holds hr)
  | takes htakes hfree =>
      refine hkeep _ rfl rfl ?_
      rw [MainPlace.resourceStage, htakes.resourceStage]
      exact hr
  | gives hgives => exact hkeep _ rfl rfl (hgives.holds hr)
  | uses huses =>
      refine hs.move rfl (fun k hk => Function.update_of_ne hk ..) ?_
      change ResourceStage.Holds (Function.update s.resources n _ n) _
      rw [Function.update_self]
      exact huses.holds hr
  | noSubTask last hhandle =>
      refine hkeep _ rfl rfl ?_
      cases last
      · exact Or.inr hr
      · exact hr
  | noRefresherTask last hhandle =>
      refine hkeep _ rfl rfl ?_
      cases last
      · exact Or.inr hr
      · exact hr
  | deleteSub last | clearSub last | deleteRefresher last =>
      refine hkeep _ rfl rfl ?_
      cases last <;> exact hr
  | clearRefresher last =>
      refine hkeep _ rfl rfl ?_
      cases last <;> exact hr
  | halt => exact hs
  | _ => exact hkeep _ rfl rfl hr

theorem mqttMachine_resourcesHold {guard : MqttSystem → MqttAction → Prop}
    (h : mqttMachine.ReachableVia guard s) : s.ResourcesHold := by
  apply h.strengthen
  · rintro s rfl n
    rfl
  · intro s a s' hreach hs _ hstep
    cases mqttMachine_moves hstep with
    | started hidle hstarted => exact hs
    | start hidle hstarted => exact hs
    | main n a pc hpc hmoves => exact hmoves.resourcesHold hpc hs
    | refresher n ok halive hmoves =>
        generalize s.refreshers n = place at hmoves
        cases hmoves <;> exact hs
    | sub n halive hmoves =>
        generalize s.subs n = place at hmoves
        cases hmoves <;> exact hs
    | caller ok hmoves =>
        have hfresh := mqttMachine_freshSessions hreach
        generalize hcaller : s.caller = pc at hmoves
        cases hmoves with
        | createTask n =>
            obtain ⟨-, habsent⟩ := hfresh.creating n (by rw [hcaller]; rfl)
            refine hs.move rfl (fun _ _ => rfl) ?_
            have hn := hs n
            rw [habsent] at hn
            exact hn
        | _ => exact hs

end Steps

/-! ## The end of a session -/

theorem SessionResources.Configured.not_releasedOnce {r : SessionResources}
    (h : r.Configured) : ¬ r.ReleasedOnce := by
  intro honce
  have hdestroys := honce.configuration
  rw [h.1, h.2] at hdestroys
  cases hdestroys

/-- An ended task has released everything once if and only if it ended before
`ssl_configure` returned a configuration. -/
theorem mqttMachine_releasedOnce_iff {s : MqttSystem} {n : ℕ}
    (h : mqttMachine.Reachable s) (hended : s.mains n = .ended) :
    (s.resources n).ReleasedOnce ↔ (s.resources n).configuration = false := by
  have hn := mqttMachine_resourcesHold h n
  rw [hended] at hn
  rcases hn with hclosed | hconfigured
  · exact iff_of_true hclosed.1 hclosed.2
  · refine iff_of_false hconfigured.not_releasedOnce ?_
    rw [hconfigured.1]
    rintro ⟨⟩

/-- The server is not there: the socket is closed once. -/
theorem mqttMachine_releasedOnce_unconnected :
    ∃ s : MqttSystem, s.mains 0 = .ended ∧ (s.resources 0).opened = 1 ∧
      (s.resources 0).closes = 1 ∧ ((s.resources 0).ReleasedOnce ↔
        (s.resources 0).configuration = false) := by
  have hrun : ((mqttMachine.run newMqttSystem
      (startSession ++ [.main 0 .ok, .main 0 .ok, .main 0 (.tcp true false)] ++
        exitSession 0)).map
      fun s => (s.mains 0, (s.resources 0).opened, (s.resources 0).closes)) =
      some (.ended, 1, 1) := by
    decide +kernel
  obtain ⟨s, hs, hend⟩ := Option.map_eq_some_iff.mp hrun
  rw [Prod.mk.injEq, Prod.mk.injEq] at hend
  obtain ⟨hended, hopened, hcloses⟩ := hend
  exact ⟨s, hended, hopened, hcloses,
    mqttMachine_releasedOnce_iff (Machine.reachable_of_run rfl _ hs) hended⟩

/-- The TLS handshake fails: the socket is closed twice, and the configuration
is never destroyed. -/
theorem mqttMachine_not_releasedOnce :
    ∃ s, mqttMachine.Reachable s ∧ s.mains 0 = .ended ∧
      (s.resources 0).opened = 1 ∧ (s.resources 0).closes = 2 ∧
      ¬ (s.resources 0).ReleasedOnce := by
  have hrun : ((mqttMachine.run newMqttSystem
      (startSession ++ openSocket 0 ++
        [.main 0 .ok, .main 0 (.tls ⟨true, true, .failed, 0⟩), .main 0 .ok] ++
        exitSession 0)).map
      fun s => (s.mains 0, (s.resources 0).opened, (s.resources 0).closes)) =
      some (.ended, 1, 2) := by
    decide +kernel
  obtain ⟨s, hs, hend⟩ := Option.map_eq_some_iff.mp hrun
  rw [Prod.mk.injEq, Prod.mk.injEq] at hend
  obtain ⟨hended, hopened, hcloses⟩ := hend
  refine ⟨s, Machine.reachable_of_run rfl _ hs, hended, hopened, hcloses, ?_⟩
  intro honce
  have hsocket := honce.socket
  rw [hopened, hcloses] at hsocket
  cases hsocket

end RtpMulticast
