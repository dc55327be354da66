import RtpMulticast.Mqtt.SessionOrder

/-!
# The client mutex

`main_app` creates the mutex once for all sessions.  A task holds it between its
take and its give, so nobody who is gone holds it, with one exception:
`APP_MQTT_StopAuxTasks` deletes `client_refresher` wherever it is, also inside
`mqtt_sync`.  `vTaskDelete` releases no mutex, and every later session then
times out.
-/

namespace RtpMulticast

open MqttSystem

/-! ## Places with the mutex -/

def MainPc.holdsMutex : MainPc → Bool
  | .connectHeld | .subscribeHeld | .publishHeld | .disconnectHeld => true
  | _ => false

def MainPlace.holdsMutex : MainPlace → Bool
  | .running pc => pc.holdsMutex
  | .absent | .ended => false

def RefresherPlace.holdsMutex : RefresherPlace → Bool
  | .absent | .waiting | .deleted => false
  | _ => true

/-- The task is between its take and its give. -/
def MutexHolder.holding (s : MqttSystem) : MutexHolder → Bool
  | .main n => (s.mains n).holdsMutex
  | .refresher n => (s.refreshers n).holdsMutex

/-- The task has ended or was deleted. -/
def MutexHolder.Gone (s : MqttSystem) : MutexHolder → Prop
  | .main n => s.mains n = .ended
  | .refresher n => s.refreshers n = .deleted

/-- The mutex is held by a task that is gone. -/
def MqttSystem.Stranded (s : MqttSystem) : Prop :=
  ∃ holder : MutexHolder, s.clientMutex = some holder ∧ holder.Gone s

/-- The refresher that the MQTT task deletes does not hold the mutex. -/
def DeletesUnlocked (s : MqttSystem) : MqttAction → Prop
  | .main n _ => ∀ last k, s.mains n = .running (.stop last .deleteRefresher) →
      s.refresherTask = some k → (s.refreshers k).holdsMutex = false
  | _ => True

instance (s : MqttSystem) : DecidablePred (DeletesUnlocked s)
  | .main n _ =>
      decidable_of_iff (∀ last, s.mains n = .running (.stop last .deleteRefresher) →
          ∀ k ∈ s.refresherTask, (s.refreshers k).holdsMutex = false)
        ⟨fun h last k hpc hk => h last hpc k hk, fun h last hpc k hk => h last k hpc hk⟩
  | .start | .caller _ | .refresher .. | .sub _ => isTrue trivial

/-! ## What a step does to the mutex -/

/-- The mutex is left alone, taken or given back, or a refresher is deleted. -/
inductive MutexStep (s s' : MqttSystem) : Prop
  | same (hmutex : s'.clientMutex = s.clientMutex)
      (hholding : ∀ h : MutexHolder, h.holding s' = h.holding s)
  | take (h₀ : MutexHolder) (hfree : s.clientMutex = none)
      (hmutex : s'.clientMutex = some h₀) (hheld : h₀.holding s' = true)
      (hholding : ∀ h : MutexHolder, h ≠ h₀ → h.holding s' = h.holding s)
  | give (h₀ : MutexHolder) (hheld : h₀.holding s = true)
      (hmutex : s'.clientMutex = none) (hgiven : h₀.holding s' = false)
      (hholding : ∀ h : MutexHolder, h ≠ h₀ → h.holding s' = h.holding s)
  | delete (k : ℕ) (hmutex : s'.clientMutex = s.clientMutex)
      (hdeleted : s'.refreshers k = .deleted)
      (hholding : ∀ h : MutexHolder, h ≠ .refresher k →
        h.holding s' = h.holding s)

section Steps

variable {s s' : MqttSystem} {n : ℕ} {pc pc' : MainPc}

theorem Goes.holdsMutex (h : Goes s pc pc') :
    pc'.holdsMutex = pc.holdsMutex := by
  cases h with
  | noRefresher last => cases last <;> rfl
  | _ => rfl

theorem Takes.holdsMutex (h : Takes pc pc') : pc'.holdsMutex = true := by
  cases h <;> rfl

theorem Gives.holdsMutex (h : Gives pc pc') :
    pc.holdsMutex = true ∧ pc'.holdsMutex = false := by
  cases h <;> exact ⟨rfl, rfl⟩

theorem Uses.holdsMutex {r r' : SessionResources} (h : Uses r pc r' pc') :
    pc'.holdsMutex = pc.holdsMutex := by
  cases h <;> rfl

theorem holding_of_mains {place : MainPlace}
    (hmains : s'.mains = Function.update s.mains n place)
    (hrefreshers : s'.refreshers = s.refreshers) (h : MutexHolder)
    (hh : h ≠ .main n) : h.holding s' = h.holding s := by
  cases h with
  | main k =>
      have hk : k ≠ n := fun heq => hh (by rw [heq])
      simp only [MutexHolder.holding, hmains, Function.update_of_ne hk]
  | refresher k => simp only [MutexHolder.holding, hrefreshers]

theorem holding_of_refreshers {place : RefresherPlace}
    (hmains : s'.mains = s.mains)
    (hrefreshers : s'.refreshers = Function.update s.refreshers n place)
    (h : MutexHolder) (hh : h ≠ .refresher n) : h.holding s' = h.holding s := by
  cases h with
  | main k => simp only [MutexHolder.holding, hmains]
  | refresher k =>
      have hk : k ≠ n := fun heq => hh (by rw [heq])
      simp only [MutexHolder.holding, hrefreshers, Function.update_of_ne hk]

theorem MutexStep.of_main {place : MainPlace}
    (hmains : s'.mains = Function.update s.mains n place)
    (hrefreshers : s'.refreshers = s.refreshers)
    (hmutex : s'.clientMutex = s.clientMutex)
    (hplace : place.holdsMutex = (s.mains n).holdsMutex) : MutexStep s s' := by
  refine .same hmutex fun h => ?_
  cases h with
  | main k =>
      simp only [MutexHolder.holding, hmains]
      exact update_keeps MainPlace.holdsMutex hplace k
  | refresher k => simp only [MutexHolder.holding, hrefreshers]

theorem MutexStep.of_refresher {place : RefresherPlace}
    (hmains : s'.mains = s.mains)
    (hrefreshers : s'.refreshers = Function.update s.refreshers n place)
    (hmutex : s'.clientMutex = s.clientMutex)
    (hplace : place.holdsMutex = (s.refreshers n).holdsMutex) :
    MutexStep s s' := by
  refine .same hmutex fun h => ?_
  cases h with
  | main k => simp only [MutexHolder.holding, hmains]
  | refresher k =>
      simp only [MutexHolder.holding, hrefreshers]
      exact update_keeps RefresherPlace.holdsMutex hplace k

theorem MainMoves.mutexStep (h : MainMoves s n pc s')
    (hpc : s.mains n = .running pc) (hfresh : s.FreshSessions) :
    MutexStep s s' := by
  have hself : (s.mains n).holdsMutex = pc.holdsMutex := by
    rw [hpc]
    rfl
  have hkeep : ∀ place : MainPlace, s'.mains = Function.update s.mains n place →
      s'.refreshers = s.refreshers → s'.clientMutex = s.clientMutex →
      place.holdsMutex = pc.holdsMutex → MutexStep s s' := by
    intro place hmains hrefreshers hmutex hplace
    exact .of_main hmains hrefreshers hmutex (hplace.trans hself.symm)
  cases h with
  | halt => exact .same rfl fun _ => rfl
  | goes hgoes => exact hkeep _ rfl rfl rfl hgoes.holdsMutex
  | uses huses => exact hkeep _ rfl rfl rfl huses.holdsMutex
  | takes htakes hfree =>
      refine .take (.main n) hfree rfl ?_ (holding_of_mains rfl rfl)
      exact update_self_eq MainPlace.holdsMutex htakes.holdsMutex
  | gives hgives =>
      obtain ⟨hheld, hgiven⟩ := hgives.holdsMutex
      refine .give (.main n) (hself.trans hheld) rfl ?_ (holding_of_mains rfl rfl)
      exact update_self_eq MainPlace.holdsMutex hgiven
  | createRefresher =>
      have habsent : s.refreshers n = .absent :=
        hfresh.refresher n (by rw [hpc]; rfl)
      have hplace : (MainPlace.running .createSub).holdsMutex =
          (s.mains n).holdsMutex := hself.symm
      refine .same rfl fun h => ?_
      cases h with
      | main k => exact update_keeps MainPlace.holdsMutex hplace k
      | refresher k =>
          exact update_keeps RefresherPlace.holdsMutex (by rw [habsent]; rfl) k
  | deleteRefresher last k hhandle halive =>
      have hplace : (MainPlace.running (.stop last .clearRefresher)).holdsMutex =
          (s.mains n).holdsMutex := hself.symm
      refine .delete k rfl (Function.update_self ..) fun h hh => ?_
      cases h with
      | main i => exact update_keeps MainPlace.holdsMutex hplace i
      | refresher i =>
          have hi : i ≠ k := fun heq => hh (by rw [heq])
          exact congrArg RefresherPlace.holdsMutex (Function.update_of_ne hi ..)
  | clearRefresher last => cases last <;> exact hkeep _ rfl rfl rfl rfl
  | _ => exact hkeep _ rfl rfl rfl rfl

theorem RefresherMoves.mutexStep (h : RefresherMoves s n (s.refreshers n) s') :
    MutexStep s s' := by
  generalize hplace : s.refreshers n = place at h
  have hkeep : ∀ place' : RefresherPlace, s'.mains = s.mains →
      s'.refreshers = Function.update s.refreshers n place' →
      s'.clientMutex = s.clientMutex →
      place'.holdsMutex = place.holdsMutex → MutexStep s s' := by
    intro place' hmains hrefreshers hmutex heq
    exact .of_refresher hmains hrefreshers hmutex (by rw [hplace]; exact heq)
  cases h with
  | stays => exact .same rfl fun _ => rfl
  | halt => exact .same rfl fun _ => rfl
  | takes hfree =>
      refine .take (.refresher n) hfree rfl ?_ (holding_of_refreshers rfl rfl)
      exact update_self_eq RefresherPlace.holdsMutex rfl
  | gives =>
      refine .give (.refresher n) ?_ rfl ?_ (holding_of_refreshers rfl rfl)
      · change (s.refreshers n).holdsMutex = true
        rw [hplace]
        rfl
      · exact update_self_eq RefresherPlace.holdsMutex rfl
  | _ => exact hkeep _ rfl rfl rfl rfl

theorem SubMoves.mutexStep {place : SubPlace} (h : SubMoves s n place s') :
    MutexStep s s' := by
  cases h <;> exact .same rfl fun h => by cases h <;> rfl

theorem StartMoves.mutexStep (h : StartMoves s s.caller s')
    (hfresh : s.FreshSessions) : MutexStep s s' := by
  generalize hcaller : s.caller = pc at h
  cases h with
  | createTask n =>
      obtain ⟨-, habsent⟩ := hfresh.creating n (by rw [hcaller]; rfl)
      exact .of_main rfl rfl rfl (by rw [habsent]; rfl)
  | _ => exact .same rfl fun h => by cases h <;> rfl

theorem mqttMachine_mutexStep {a : MqttAction} (hfresh : s.FreshSessions)
    (hstep : mqttMachine.step s a = some s') : MutexStep s s' := by
  cases mqttMachine_moves hstep with
  | started hidle hstarted => exact .same rfl fun _ => rfl
  | start hidle hstarted => exact .same rfl fun h => by cases h <;> rfl
  | caller ok hmoves => exact hmoves.mutexStep hfresh
  | main n a pc hpc hmoves => exact hmoves.mutexStep hpc hfresh
  | refresher n ok halive hmoves => exact hmoves.mutexStep
  | sub n halive hmoves => exact hmoves.mutexStep

/-! ## The holder -/

/-- Only one task at a time is between its take and its give. -/
def MqttSystem.HolderEntered (s : MqttSystem) : Prop :=
  ∀ h : MutexHolder, h.holding s = true → s.clientMutex = some h

/-- The holder of the mutex is between its take and its give. -/
def MqttSystem.HolderInside (s : MqttSystem) : Prop :=
  ∀ h : MutexHolder, s.clientMutex = some h → h.holding s = true

theorem MutexStep.entered (hstep : MutexStep s s') (hs : s.HolderEntered) :
    s'.HolderEntered := by
  intro h hh
  cases hstep with
  | same hmutex hholding =>
      rw [hholding] at hh
      rw [hmutex]
      exact hs h hh
  | take h₀ hfree hmutex hheld hholding =>
      by_cases heq : h = h₀
      · rw [hmutex, heq]
      · rw [hholding h heq] at hh
        have hmine := hs h hh
        rw [hfree] at hmine
        cases hmine
  | give h₀ hheld hmutex hgiven hholding =>
      by_cases heq : h = h₀
      · rw [heq, hgiven] at hh
        cases hh
      · rw [hholding h heq] at hh
        have htwo := (hs h hh).symm.trans (hs h₀ hheld)
        exact absurd (Option.some.inj htwo) heq
  | delete k hmutex hdeleted hholding =>
      by_cases heq : h = .refresher k
      · subst heq
        change (s'.refreshers k).holdsMutex = true at hh
        rw [hdeleted] at hh
        cases hh
      · rw [hholding h heq] at hh
        rw [hmutex]
        exact hs h hh

theorem MutexStep.inside (hstep : MutexStep s s') (hs : s.HolderInside)
    (hdelete : ∀ k, s'.refreshers k = .deleted → s.refreshers k ≠ .deleted →
      (s.refreshers k).holdsMutex = false) : s'.HolderInside := by
  intro h hh
  cases hstep with
  | same hmutex hholding =>
      rw [hmutex] at hh
      rw [hholding]
      exact hs h hh
  | take h₀ hfree hmutex hheld hholding =>
      cases hh.symm.trans hmutex
      exact hheld
  | give h₀ hheld hmutex hgiven hholding =>
      rw [hmutex] at hh
      cases hh
  | delete k hmutex hdeleted hholding =>
      rw [hmutex] at hh
      have hinside := hs h hh
      by_cases heq : h = .refresher k
      · subst heq
        have hlive : s.refreshers k ≠ .deleted := by
          intro hdead
          change (s.refreshers k).holdsMutex = true at hinside
          rw [hdead] at hinside
          cases hinside
        have hfalse := hdelete k hdeleted hlive
        exact absurd (hfalse.symm.trans hinside) (by decide)
      · rw [hholding h heq]
        exact hinside

theorem mqttMachine_holderEntered {guard : MqttSystem → MqttAction → Prop}
    (h : mqttMachine.ReachableVia guard s) : s.HolderEntered := by
  apply h.strengthen
  · rintro s rfl (n | n) hh <;> cases hh
  · intro s a s' hreach hs _ hstep
    exact (mqttMachine_mutexStep (mqttMachine_freshSessions hreach) hstep).entered
      hs

/-- A refresher is deleted by `APP_MQTT_StopAuxTasks` only. -/
theorem mqttMachine_deletes {a : MqttAction} {k : ℕ}
    (hstep : mqttMachine.step s a = some s')
    (hdeleted : s'.refreshers k = .deleted)
    (hlive : s.refreshers k ≠ .deleted) :
    ∃ n b last, a = .main n b ∧
      s.mains n = .running (.stop last .deleteRefresher) ∧
      s.refresherTask = some k := by
  have hne : s'.refreshers ≠ s.refreshers := by
    intro heq
    rw [heq] at hdeleted
    exact hlive hdeleted
  have hset : ∀ n place, place ≠ RefresherPlace.deleted →
      s'.refreshers ≠ Function.update s.refreshers n place := by
    intro n place hplace heq
    rw [heq] at hdeleted
    by_cases hk : k = n
    · subst hk
      rw [Function.update_self] at hdeleted
      exact hplace hdeleted
    · rw [Function.update_of_ne hk] at hdeleted
      exact hlive hdeleted
  cases mqttMachine_moves hstep with
  | started hidle hstarted => exact absurd rfl hne
  | start hidle hstarted => exact absurd rfl hne
  | caller ok hmoves =>
      generalize s.caller = pc at hmoves
      cases hmoves <;> exact absurd rfl hne
  | sub n halive hmoves =>
      generalize s.subs n = place at hmoves
      cases hmoves <;> exact absurd rfl hne
  | refresher n ok halive hmoves =>
      generalize s.refreshers n = place at hmoves
      cases hmoves with
      | stays | halt => exact absurd rfl hne
      | _ => exact absurd rfl (hset n _ (by rintro ⟨⟩))
  | main n b pc hpc hmoves =>
      cases hmoves with
      | createRefresher => exact absurd rfl (hset n .waiting (by rintro ⟨⟩))
      | deleteRefresher last i hhandle halive =>
          refine ⟨n, b, last, rfl, hpc, ?_⟩
          by_cases hk : k = i
          · rw [hk]
            exact hhandle
          · change Function.update s.refreshers i _ k = .deleted at hdeleted
            rw [Function.update_of_ne hk] at hdeleted
            exact absurd hdeleted hlive
      | _ => exact absurd rfl hne

theorem mqttMachine_holderInside {guard : MqttSystem → MqttAction → Prop}
    (hunlocked : ∀ s a, guard s a → DeletesUnlocked s a)
    (h : mqttMachine.ReachableVia guard s) : s.HolderInside := by
  apply h.strengthen
  · rintro s rfl holder ⟨⟩
  · intro s a s' hreach hs hguard hstep
    have hfresh := mqttMachine_freshSessions hreach
    refine (mqttMachine_mutexStep hfresh hstep).inside hs ?_
    intro k hdeleted hlive
    obtain ⟨n, b, last, rfl, hpc, hhandle⟩ :=
      mqttMachine_deletes hstep hdeleted hlive
    exact hunlocked s _ hguard last k hpc hhandle

theorem MutexHolder.Gone.not_holding {h : MutexHolder} (hgone : h.Gone s) :
    h.holding s = false := by
  cases h with
  | main n =>
      change (s.mains n).holdsMutex = false
      rw [hgone]
      rfl
  | refresher n =>
      change (s.refreshers n).holdsMutex = false
      rw [hgone]
      rfl

theorem MqttSystem.HolderInside.not_stranded (h : s.HolderInside) :
    ¬ s.Stranded := by
  rintro ⟨holder, hmutex, hgone⟩
  exact absurd (hgone.not_holding.symm.trans (h holder hmutex)) (by decide)

/-! ## The next session -/

theorem RefresherPlace.alive_of_holdsMutex {place : RefresherPlace}
    (h : place.holdsMutex = true) : place.alive = true := by
  cases place <;> first | rfl | cases h

theorem MainPlace.alive_of_holdsMutex {place : MainPlace}
    (h : place.holdsMutex = true) : place.alive = true := by
  cases place <;> first | rfl | cases h

/-- With the sessions one after the other, a task that comes to connect finds
the mutex free. -/
theorem MqttSystem.HolderInside.free (h : s.HolderInside) (hs : s.Ordered)
    (hpc : s.mains n = .running .takeConnect) : s.clientMutex = none := by
  obtain ⟨m, p, hat⟩ := hs
  obtain ⟨rfl, -, hholds⟩ := hat.task hpc
  cases hmutex : s.clientMutex with
  | none => rfl
  | some holder =>
      have hinside := h holder hmutex
      cases holder with
      | main k =>
          change (s.mains k).holdsMutex = true at hinside
          by_cases hk : k = n
          · rw [hk, hpc] at hinside
            cases hinside
          · have halive := MainPlace.alive_of_holdsMutex hinside
            rw [(hat.others k hk).main] at halive
            cases halive
      | refresher k =>
          have halive := RefresherPlace.alive_of_holdsMutex hinside
          by_cases hk : k = n
          · rw [hk, hholds.refresher.2] at halive
            cases halive
          · rw [(hat.others k hk).refresher] at halive
            cases halive

/-! ## A stranded mutex -/

theorem MutexHolder.Gone.keep {h : MutexHolder} (hgone : h.Gone s)
    (hmains : ∀ k, s.mains k = .ended → s'.mains k = .ended)
    (hrefreshers : ∀ k, s.refreshers k = .deleted → s'.refreshers k = .deleted) :
    h.Gone s' := by
  cases h with
  | main k => exact hmains k hgone
  | refresher k => exact hrefreshers k hgone

theorem update_deleted {f : ℕ → RefresherPlace} {k : ℕ} (hk : f k = .deleted) :
    Function.update f n .deleted k = .deleted := by
  by_cases hkn : k = n
  · rw [hkn, Function.update_self]
  · rw [Function.update_of_ne hkn, hk]

/-- Who is gone stays gone. -/
theorem mqttMachine_gone {a : MqttAction} (hfresh : s.FreshSessions)
    (hstep : mqttMachine.step s a = some s') {h : MutexHolder} (hgone : h.Gone s) :
    h.Gone s' := by
  cases mqttMachine_moves hstep with
  | started hidle hstarted => exact hgone
  | start hidle hstarted => exact hgone.keep (fun _ => id) fun _ => id
  | caller ok hmoves =>
      generalize hcaller : s.caller = pc at hmoves
      cases hmoves with
      | createTask n =>
          obtain ⟨-, habsent⟩ := hfresh.creating n (by rw [hcaller]; rfl)
          have hn : s.mains n ≠ .ended := by
            rw [habsent]
            rintro ⟨⟩
          exact hgone.keep (fun _ => update_absent hn) fun _ => id
      | _ => exact hgone.keep (fun _ => id) fun _ => id
  | sub n halive hmoves =>
      generalize s.subs n = place at hmoves
      cases hmoves <;> exact hgone.keep (fun _ => id) fun _ => id
  | refresher n ok halive hmoves =>
      have hn : s.refreshers n ≠ .deleted := by
        intro hdead
        rw [hdead] at halive
        cases halive
      generalize s.refreshers n = place at hmoves
      cases hmoves with
      | stays | halt => exact hgone.keep (fun _ => id) fun _ => id
      | _ => exact hgone.keep (fun _ => id) fun _ => update_absent hn
  | main n b pc hpc hmoves =>
      have hn : s.mains n ≠ .ended := by
        rw [hpc]
        rintro ⟨⟩
      cases hmoves with
      | halt => exact hgone.keep (fun _ => id) fun _ => id
      | createRefresher =>
          have hnew : s.refreshers n ≠ .deleted := by
            rw [hfresh.refresher n (by rw [hpc]; rfl)]
            rintro ⟨⟩
          exact hgone.keep (fun _ => update_absent hn) fun _ => update_absent hnew
      | deleteRefresher last k hhandle halive =>
          exact hgone.keep (fun _ => update_absent hn) fun _ => update_deleted
      | _ => exact hgone.keep (fun _ => update_absent hn) fun _ => id

/-- A mutex that is held by a task that is gone stays so. -/
theorem mqttMachine_stranded_step {a : MqttAction} (hfresh : s.FreshSessions)
    (hentered : s.HolderEntered) (hstep : mqttMachine.step s a = some s')
    (hs : s.Stranded) : s'.Stranded := by
  obtain ⟨holder, hmutex, hgone⟩ := hs
  refine ⟨holder, ?_, mqttMachine_gone hfresh hstep hgone⟩
  cases mqttMachine_mutexStep hfresh hstep with
  | same hsame hholding => rw [hsame, hmutex]
  | delete k hsame hdeleted hholding => rw [hsame, hmutex]
  | take h₀ hfree hmutex' hheld hholding =>
      rw [hfree] at hmutex
      cases hmutex
  | give h₀ hheld hmutex' hgiven hholding =>
      -- Whoever gives is the holder, and the holder is gone.
      have hsome := (hentered h₀ hheld).symm.trans hmutex
      obtain rfl := Option.some.inj hsome
      exact absurd (hgone.not_holding.symm.trans hheld) (by decide)

/-- A refresher deleted with the mutex strands it. -/
theorem mqttMachine_strands {a : MqttAction} (hentered : s.HolderEntered)
    (ha : ¬ DeletesUnlocked s a) (hstep : mqttMachine.step s a = some s') :
    s'.Stranded := by
  cases a with
  | main n b =>
      simp only [DeletesUnlocked, not_forall, Bool.not_eq_false] at ha
      obtain ⟨last, k, hpc, hhandle, hholds⟩ := ha
      have halive := RefresherPlace.alive_of_holdsMutex hholds
      have hmutex := hentered (.refresher k) hholds
      simp only [mqttMachine, hpc, appMqttTaskStep, stopAuxTasksStep, hhandle,
        halive, if_true] at hstep
      split at hstep <;> cases hstep
      exact ⟨.refresher k, hmutex, Function.update_self ..⟩
  | _ => exact absurd trivial ha

/-- From then on it is stranded in every state, in this and in every later
session. -/
theorem mqttMachine_stranded_forever (hreach : mqttMachine.Reachable s)
    (hs : s.Stranded) {actions : List MqttAction}
    (hrun : mqttMachine.run s actions = some s') : s'.Stranded := by
  refine hreach.run_keeps ?_ hs hrun
  intro t a t' ht hstranded hstep
  exact mqttMachine_stranded_step (mqttMachine_freshSessions ht)
    (mqttMachine_holderEntered ht) hstep hstranded

/-- When no refresher is deleted with the mutex, no task that is gone ever holds
it, and in sessions that start one after the other the mutex is free for each
connection. -/
theorem mqttMachine_not_stranded
    (h : mqttMachine.ReachableVia DeletesUnlocked s) :
    ¬ s.Stranded ∧
      (mqttMachine.ReachableVia
          (fun s a => DeletesUnlocked s a ∧ StartsAlone s a) s →
        ∀ n, s.mains n = .running .takeConnect → s.clientMutex = none) := by
  have hinside := mqttMachine_holderInside (fun _ _ => id) h
  refine ⟨hinside.not_stranded, ?_⟩
  intro halone n hpc
  exact hinside.free (mqttMachine_ordered (fun _ _ => And.right) halone) hpc

/-! ## Runs -/

/-- A publication fails while the refresher waits, which is then deleted; the task of the
next session comes to its connection. -/
def secondConnection : List MqttAction :=
  startSession ++ openSocket 0 ++ connectBroker 0 ++ failPublish 0 ++
    List.replicate 9 (.main 0 .ok) ++ exitSession 0 ++ startSession ++ openSocket 1 ++
    [.main 1 .ok, .main 1 (.tls ⟨true, true, .done, 0⟩)]

theorem mqttMachine_not_stranded_second :
    ∃ s : MqttSystem, s.refreshers 0 = .deleted ∧ s.mains 1 = .running .takeConnect ∧
      ¬ s.Stranded ∧ s.clientMutex = none := by
  have hmeets : mqttMachine.Meets
      (fun s a => DeletesUnlocked s a ∧ StartsAloneOfOpened s a) newMqttSystem
      secondConnection := by
    decide +kernel
  have hrun : ((mqttMachine.run newMqttSystem secondConnection).map
      fun s => (s.refreshers 0, s.mains 1)) =
      some (.deleted, .running .takeConnect) := by
    decide +kernel
  obtain ⟨s, hs, hend⟩ := Option.map_eq_some_iff.mp hrun
  obtain ⟨hdeleted, hconnect⟩ := Prod.mk.inj hend
  have hreach : mqttMachine.ReachableVia
      (fun s a => DeletesUnlocked s a ∧ StartsAlone s a) s := by
    refine ((Machine.ReachableVia.init rfl).run _ hmeets hs).mono ?_
    intro s a hreach hguard
    exact ⟨hguard.1, (mqttMachine_freshSessions hreach).startsAlone hguard.2⟩
  obtain ⟨hstranded, hfree⟩ :=
    mqttMachine_not_stranded (hreach.mono fun _ _ _ => And.left)
  exact ⟨s, hdeleted, hconnect, hstranded, hfree hreach 1 hconnect⟩

/-- A publication fails.  The refresher then takes the mutex and is deleted
inside `mqtt_sync`; the task of the next session comes to its connection. -/
theorem mqttMachine_stranded :
    ∃ s, mqttMachine.Reachable s ∧ s.mains 0 = .ended ∧
      s.mains 1 = .running .takeConnect ∧ s.Stranded := by
  have hrun : ((mqttMachine.run newMqttSystem
      (startSession ++ openSocket 0 ++ connectBroker 0 ++ failPublish 0 ++
        [.refresher 0 true] ++ List.replicate 8 (.main 0 .ok) ++
        exitSession 0 ++ startSession ++ openSocket 1 ++
        [.main 1 .ok, .main 1 (.tls ⟨true, true, .done, 0⟩)])).map
      fun s => (s.mains 0, s.mains 1, s.clientMutex, s.refreshers 0)) =
      some (.ended, .running .takeConnect, some (.refresher 0), .deleted) := by
    decide +kernel
  obtain ⟨s, hs, hend⟩ := Option.map_eq_some_iff.mp hrun
  simp only [Prod.mk.injEq] at hend
  obtain ⟨hended, hconnect, hmutex, hdeleted⟩ := hend
  exact ⟨s, Machine.reachable_of_run rfl _ hs, hended, hconnect,
    .refresher 0, hmutex, hdeleted⟩

end Steps

end RtpMulticast
