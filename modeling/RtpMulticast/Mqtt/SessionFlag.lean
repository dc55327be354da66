import RtpMulticast.Mqtt.SessionOrder

/-!
# The flag of a session

`mqtt_started` is down while a task exists in every session: from its creation
to the end of `APP_MQTT_Start`, and from the label `_exit` to the end of the
task.  When no call of `APP_MQTT_Start` meets the second of
these windows and none raises the flag after it, sessions do not overlap, an
ending task removes its own objects only, and the flag is right outside the
windows.
-/

namespace RtpMulticast

open MqttSystem

/-- The task has not cleared `mqtt_started` yet. -/
def MainPc.beforeClear : MainPc → Bool
  | .stop true _ | .testQueue | .deleteQueue | .clearQueue | .testEvents
  | .deleteEvents | .clearEvents | .clearCtx | .deleteSelf => false
  | _ => true

/-- A task that exists and has not cleared `mqtt_started` yet. -/
def MainPlace.beforeClear : MainPlace → Bool
  | .running pc => pc.beforeClear
  | .absent | .ended => false

/-- At most one task exists, the flag is up exactly while one exists or is being
created, and no ending task has removed something of a newer session. -/
structure MqttSystem.SessionsApart (s : MqttSystem) : Prop where
  one : ∀ n m, (s.mains n).alive = true → (s.mains m).alive = true → n = m
  flag : s.started = true ↔
    (∃ n, (s.mains n).alive = true) ∨ ∃ n, s.caller = .createTask n
  removals : ∀ r ∈ s.removals, r.owner ≤ r.task

/-- The flag is up while a task has not come to clear it, but for the last step
of the start. -/
structure FlagRight (s : MqttSystem) : Prop where
  raised : ∀ n, (s.mains n).beforeClear = true →
    s.started = true ∨ s.caller = .raise n
  lowered : s.started = true → ∃ n, (s.mains n).beforeClear = true

/-- What of it holds while sessions start one after the other. -/
structure MqttSystem.SessionsSeparate (s : MqttSystem) : Prop where
  one : ∀ n m, (s.mains n).alive = true → (s.mains m).alive = true → n = m
  flag : FlagRight s
  removals : ∀ r ∈ s.removals, r.owner = r.task

/-- `APP_MQTT_Start` does not come to the creation of its task. -/
def CreatesNoTask (s : MqttSystem) : MqttAction → Prop
  | .caller ok => ok = true → ∀ n, s.caller ≠ .createQueue n
  | _ => True

/-- `APP_MQTT_Start` gets past its check only when no task is left, and raises
the flag before the task it has created comes to clear it. -/
def StartsApart (s : MqttSystem) : MqttAction → Prop
  | .start => s.started = false → ∀ n, (s.mains n).alive = false
  | .caller _ => ∀ n, s.caller = .raise n → (s.mains n).beforeClear = true
  | _ => True

/-- The session whose flag `APP_MQTT_Start` is about to raise. -/
def StartPc.raising : StartPc → Option ℕ
  | .raise n => some n
  | _ => none

/-- `StartsApart` for the sessions that were opened. -/
def StartsApartOfOpened (s : MqttSystem) : MqttAction → Prop
  | .start => s.started = false → ∀ n < s.sessionCount, (s.mains n).alive = false
  | .caller _ => ∀ n ∈ s.caller.raising, (s.mains n).beforeClear = true
  | _ => True

instance (s : MqttSystem) : DecidablePred (StartsApartOfOpened s)
  | .start => inferInstanceAs (Decidable
      (s.started = false → ∀ n < s.sessionCount, (s.mains n).alive = false))
  | .caller _ => inferInstanceAs (Decidable
      (∀ n ∈ s.caller.raising, (s.mains n).beforeClear = true))
  | .main .. | .refresher .. | .sub _ => isTrue trivial

theorem MqttSystem.FreshSessions.startsApart {s : MqttSystem} {a : MqttAction}
    (h : s.FreshSessions) (hapart : StartsApartOfOpened s a) : StartsApart s a := by
  cases a with
  | start => exact h.startsAlone (a := .start) hapart
  | caller ok =>
      intro n hraise
      refine hapart n ?_
      rw [hraise]
      rfl
  | _ => exact trivial

theorem StartsApart.startsAlone {s : MqttSystem} {a : MqttAction}
    (h : StartsApart s a) : StartsAlone s a := by
  cases a with
  | start => exact h
  | _ => trivial

section Flag

variable {s s' : MqttSystem} {n k : ℕ} {pc pc' : MainPc}

theorem MqttSystem.Ordered.one (h : s.Ordered) {m : ℕ}
    (hn : (s.mains n).alive = true) (hm : (s.mains m).alive = true) : n = m := by
  obtain ⟨i, p, hover, -, -⟩ := h
  have hi : ∀ j, (s.mains j).alive = true → j = i := by
    intro j hj
    by_contra hne
    rw [(hover j hne).main] at hj
    cases hj
  rw [hi n hn, hi m hm]

/-! ## Removals -/

/-- In an ordered state the task removes what is its own. -/
theorem MainMoves.removals (h : MainMoves s n pc s')
    (hpc : s.mains n = .running pc) (hs : s.Ordered) {r : Removal}
    (hr : r ∈ s'.removals) : r ∈ s.removals ∨ r.owner = r.task := by
  obtain ⟨m, p, hat⟩ := hs
  obtain ⟨rfl, -, hholds⟩ := hat.task hpc
  cases h with
  | deleteQueue q hhandle hlive =>
      rcases List.mem_cons.mp hr with rfl | hr
      · exact Or.inr (hholds.queue.owner hhandle)
      · exact Or.inl hr
  | deleteEvents e hhandle hlive =>
      rcases List.mem_cons.mp hr with rfl | hr
      · exact Or.inr (hholds.events.owner hhandle)
      · exact Or.inl hr
  | clearCtx hremovals =>
      rcases hremovals with rfl | ⟨k, hctx, rfl⟩
      · exact Or.inl hr
      · rcases List.mem_cons.mp hr with rfl | hr
        · refine Or.inr ?_
          have heq := hctx.symm.trans (hholds.ctx rfl)
          cases heq
          rfl
        · exact Or.inl hr
  | _ => exact Or.inl hr

/-! ## The flag along the task -/

theorem Goes.beforeClear (h : Goes s pc pc') :
    pc'.beforeClear = pc.beforeClear := by
  cases h with
  | noSub last | sub last | refresher last => cases last <;> rfl
  | noRefresher last => cases last <;> rfl
  | _ => rfl

theorem Takes.beforeClear (h : Takes pc pc') :
    pc'.beforeClear = pc.beforeClear := by
  cases h <;> rfl

theorem Gives.beforeClear (h : Gives pc pc') :
    pc'.beforeClear = pc.beforeClear := by
  cases h <;> rfl

theorem Uses.beforeClear {r r' : SessionResources} (h : Uses r pc r' pc') :
    pc'.beforeClear = pc.beforeClear := by
  cases h <;> rfl

/-- The flag is left alone by a task that does not pass its clearing step. -/
structure FlagStep (s s' : MqttSystem) (n : ℕ) : Prop where
  caller : s'.caller = s.caller
  others : ∀ k, k ≠ n → s'.mains k = s.mains k
  flag : s'.started = s.started ∧
      (s'.mains n).beforeClear = (s.mains n).beforeClear ∨
    s'.started = false ∧ (s'.mains n).beforeClear = false

theorem FlagStep.of_eq {place : MainPlace} (hcaller : s'.caller = s.caller)
    (hmains : s'.mains = Function.update s.mains n place)
    (hflag : s'.started = s.started ∧
        place.beforeClear = (s.mains n).beforeClear ∨
      s'.started = false ∧ place.beforeClear = false) : FlagStep s s' n := by
  refine ⟨hcaller, ?_, ?_⟩
  · intro k hk
    rw [hmains, Function.update_of_ne hk]
  · rw [hmains, Function.update_self]
    exact hflag

theorem MainMoves.flagStep (h : MainMoves s n pc s')
    (hpc : s.mains n = .running pc) (hs : s.Ordered) : FlagStep s s' n := by
  obtain ⟨m, p, hat⟩ := hs
  obtain ⟨rfl, -, hholds⟩ := hat.task hpc
  have hrunning : (s.mains n).beforeClear = pc.beforeClear := by
    rw [hpc]
    rfl
  have hkeep : ∀ place : MainPlace, s'.caller = s.caller →
      s'.mains = Function.update s.mains n place → s'.started = s.started →
      place.beforeClear = pc.beforeClear → FlagStep s s' n := by
    intro place hcaller hmains hstarted hplace
    exact .of_eq hcaller hmains (Or.inl ⟨hstarted, hplace.trans hrunning.symm⟩)
  cases h with
  | halt => exact ⟨rfl, fun _ _ => rfl, Or.inl ⟨rfl, rfl⟩⟩
  | goes hgoes => exact hkeep _ rfl rfl rfl hgoes.beforeClear
  | takes htakes => exact hkeep _ rfl rfl rfl htakes.beforeClear
  | gives hgives => exact hkeep _ rfl rfl rfl hgives.beforeClear
  | uses huses => exact hkeep _ rfl rfl rfl huses.beforeClear
  | noSubTask last hhandle =>
      exact absurd (hhandle.symm.trans hholds.sub.1) (by rintro ⟨⟩)
  | noRefresherTask last hhandle =>
      have hlive : s.refresherTask = some n := by
        cases last <;> exact hholds.refresher.1
      exact absurd (hhandle.symm.trans hlive) (by rintro ⟨⟩)
  | clearStarted => exact .of_eq rfl rfl (Or.inr ⟨rfl, rfl⟩)
  | deleteSub last | clearSub last | deleteRefresher last =>
      cases last <;> exact hkeep _ rfl rfl rfl rfl
  | clearRefresher last => cases last <;> exact hkeep _ rfl rfl rfl rfl
  | _ => exact hkeep _ rfl rfl rfl rfl

/-! ## Sessions one after the other -/

theorem FlagStep.flagRight (h : FlagStep s s' n)
    (hone : ∀ k, k ≠ n → (s.mains k).beforeClear = false)
    (hs : FlagRight s) : FlagRight s' := by
  have hother : ∀ k, k ≠ n → (s'.mains k).beforeClear = false := by
    intro k hk
    rw [h.others k hk]
    exact hone k hk
  have hself : ∀ k, (s'.mains k).beforeClear = true → k = n := by
    intro k hk
    by_contra hne
    rw [hother k hne] at hk
    cases hk
  rcases h.flag with ⟨hstarted, hbefore⟩ | ⟨hstarted, hbefore⟩
  · constructor
    · intro k hk
      obtain rfl := hself k hk
      rw [hstarted, h.caller]
      rw [hbefore] at hk
      exact hs.raised k hk
    · intro htrue
      rw [hstarted] at htrue
      obtain ⟨k, hk⟩ := hs.lowered htrue
      have hkn : k = n := by
        by_contra hne
        rw [hone k hne] at hk
        cases hk
      subst hkn
      exact ⟨k, hbefore.trans hk⟩
  · constructor
    · intro k hk
      obtain rfl := hself k hk
      rw [hbefore] at hk
      cases hk
    · intro htrue
      rw [hstarted] at htrue
      cases htrue

theorem MainPlace.alive_of_beforeClear {place : MainPlace}
    (h : place.beforeClear = true) : place.alive = true := by
  cases place with
  | running pc => rfl
  | absent => cases h
  | ended => cases h

theorem MqttSystem.Ordered.noTask (h : s.Ordered)
    (hcreating : s.caller.creating = some n) (k : ℕ) :
    (s.mains k).alive = false := by
  obtain ⟨m, p, hat⟩ := h
  obtain ⟨rfl, hmain, -⟩ := hat.start hcreating
  by_cases hk : k = n
  · rw [hk]
    exact hmain
  · exact (hat.others k hk).main

theorem FlagRight.caller (hs : FlagRight s) (hordered : s.Ordered)
    (hmoves : StartMoves s s.caller s')
    (hraise : ∀ n, s.caller = .raise n → (s.mains n).beforeClear = true) :
    FlagRight s' := by
  generalize hcaller : s.caller = pc at hmoves
  have hnone : ∀ n, pc.creating = some n → ∀ k, (s.mains k).beforeClear ≠ true := by
    intro n hcreating k hk
    have halive := MainPlace.alive_of_beforeClear hk
    rw [hordered.noTask (by rw [hcaller]; exact hcreating) k] at halive
    cases halive
  have hcreating : ∀ n, pc.creating = some n → s'.mains = s.mains →
      s'.started = s.started → FlagRight s' := by
    intro n hn hmains hstarted
    constructor
    · intro k hk
      rw [hmains] at hk
      exact absurd hk (hnone n hn k)
    · intro htrue
      rw [hstarted] at htrue
      obtain ⟨k, hk⟩ := hs.lowered htrue
      exact absurd hk (hnone n hn k)
  cases hmoves with
  | halt => exact ⟨fun k hk => hs.raised k hk, hs.lowered⟩
  | raise n => exact ⟨fun _ _ => Or.inl rfl, fun _ => ⟨n, hraise n hcaller⟩⟩
  | createTask n =>
      constructor
      · intro k hk
        by_cases hkn : k = n
        · rw [hkn]
          exact Or.inr rfl
        · change (Function.update s.mains n _ k).beforeClear = true at hk
          rw [Function.update_of_ne hkn] at hk
          exact absurd hk (hnone n rfl k)
      · intro htrue
        obtain ⟨k, hk⟩ := hs.lowered htrue
        exact absurd hk (hnone n rfl k)
  | setCtx n | createEvents n | noEvents n | createQueue n | noQueue n
  | noTask n | undoQueue n | undoQueueField n | undoEvents n
  | undoEventsField n => exact hcreating n rfl rfl rfl

theorem MqttSystem.Ordered.others (h : s.Ordered) (hn : s.mains n = .running pc)
    (k : ℕ) (hk : k ≠ n) : (s.mains k).beforeClear = false := by
  rw [Bool.eq_false_iff]
  intro hbefore
  have halive : (s.mains n).alive = true := by
    rw [hn]
    rfl
  exact hk (h.one (MainPlace.alive_of_beforeClear hbefore) halive)

theorem mqttMachine_flagRight_step {a : MqttAction} (hs : FlagRight s)
    (hordered : s.Ordered) (hguard : StartsApart s a)
    (hstep : mqttMachine.step s a = some s') : FlagRight s' := by
  cases mqttMachine_moves hstep with
  | started hidle hstarted => exact hs
  | start hidle hstarted =>
      refine ⟨?_, hs.lowered⟩
      intro n hn
      rcases hs.raised n hn with htrue | hraise
      · exact Or.inl htrue
      · rw [hidle] at hraise
        cases hraise
  | caller ok hmoves => exact hs.caller hordered hmoves hguard
  | main n a pc hpc hmoves =>
      exact (hmoves.flagStep hpc hordered).flagRight (hordered.others hpc) hs
  | refresher n ok halive hmoves =>
      generalize s.refreshers n = place at hmoves
      cases hmoves <;> exact ⟨hs.raised, hs.lowered⟩
  | sub n halive hmoves =>
      generalize s.subs n = place at hmoves
      cases hmoves <;> exact ⟨hs.raised, hs.lowered⟩

theorem mqttMachine_flagRight
    (h : mqttMachine.ReachableVia StartsApart s) : FlagRight s := by
  apply h.strengthen
  · rintro s rfl
    exact ⟨by rintro n ⟨⟩, by rintro ⟨⟩⟩
  · intro s a s' hreach hs hguard hstep
    have hordered := mqttMachine_ordered
      (fun _ _ => StartsApart.startsAlone) hreach
    exact mqttMachine_flagRight_step hs hordered hguard hstep

/-- What is removed belongs to the session that ends. -/
theorem mqttMachine_removals {guard : MqttSystem → MqttAction → Prop}
    (halone : ∀ s a, guard s a → StartsAlone s a)
    (h : mqttMachine.ReachableVia guard s) :
    ∀ r ∈ s.removals, r.owner = r.task := by
  apply h.strengthen
  · rintro s rfl r ⟨⟩
  · intro s a s' hreach hs _ hstep r hr
    cases mqttMachine_moves hstep with
    | started hidle hstarted => exact hs r hr
    | start hidle hstarted => exact hs r hr
    | caller ok hmoves =>
        generalize s.caller = pc at hmoves
        cases hmoves <;> exact hs r hr
    | main n a pc hpc hmoves =>
        have hordered := mqttMachine_ordered halone hreach
        exact (hmoves.removals hpc hordered hr).elim (hs r) id
    | refresher n ok halive hmoves =>
        generalize s.refreshers n = place at hmoves
        cases hmoves <;> exact hs r hr
    | sub n halive hmoves =>
        generalize s.subs n = place at hmoves
        cases hmoves <;> exact hs r hr

theorem mqttMachine_sessionsSeparate
    (h : mqttMachine.ReachableVia StartsApart s) : s.SessionsSeparate := by
  have halone : ∀ s a, StartsApart s a → StartsAlone s a :=
    fun _ _ => StartsApart.startsAlone
  have hordered := mqttMachine_ordered halone h
  exact ⟨fun n m => hordered.one, mqttMachine_flagRight h,
    mqttMachine_removals halone h⟩

/-! ## Runs without a task -/

/-- No call of `APP_MQTT_Start` has come to the creation of its task. -/
structure NoTaskYet (s : MqttSystem) : Prop where
  mains : ∀ n, s.mains n = .absent
  started : s.started = false
  creating : ∀ n, s.caller ≠ .createTask n
  raise : ∀ n, s.caller ≠ .raise n
  removals : s.removals = []

theorem NoTaskYet.sessionsApart (h : NoTaskYet s) : s.SessionsApart := by
  have hdead : ∀ n, (s.mains n).alive ≠ true := by
    intro n hn
    rw [h.mains n] at hn
    cases hn
  refine ⟨fun n _ hn _ => absurd hn (hdead n), ?_, ?_⟩
  · refine iff_of_false (Bool.eq_false_iff.mp h.started) ?_
    rintro (⟨n, hn⟩ | ⟨n, hn⟩)
    · exact hdead n hn
    · exact h.creating n hn
  · rw [h.removals]
    rintro r ⟨⟩

/-- What `APP_MQTT_Start` does before the creation of its task. -/
theorem NoTaskYet.start (h : NoTaskYet s) (hmoves : StartMoves s s.caller s')
    (hno : ∀ n, s'.caller ≠ .createTask n) : NoTaskYet s' := by
  obtain ⟨hmains, hstarted, hcreating, hraise, hremovals⟩ := h
  generalize heq : s.caller = pc at hmoves
  cases hmoves with
  | halt => exact ⟨hmains, hstarted, hcreating, hraise, hremovals⟩
  | raise n => exact absurd heq (hraise n)
  | createTask n => exact absurd heq (hcreating n)
  | _ => exact ⟨hmains, hstarted, hno, by rintro k ⟨⟩, hremovals⟩

theorem StartMoves.comes_to_create (h : StartMoves s s.caller s')
    (hn : s'.caller = .createTask n) :
    s.caller = .createTask n ∨ s.caller = .createQueue n := by
  generalize hcaller : s.caller = pc at h
  cases h with
  | halt =>
      rw [← hcaller]
      exact Or.inl hn
  | createQueue m =>
      cases hn
      exact Or.inr rfl
  | _ => cases hn

theorem mqttMachine_noTaskYet
    (h : mqttMachine.ReachableVia CreatesNoTask s) : NoTaskYet s := by
  apply h.invariant
  · rintro s rfl
    exact ⟨fun _ => rfl, rfl, by rintro n ⟨⟩, by rintro n ⟨⟩, rfl⟩
  · intro s a s' hs hguard hstep
    cases mqttMachine_moves hstep with
    | started hidle hstarted => exact hs
    | start hidle hstarted =>
        exact ⟨hs.mains, hstarted, by rintro n ⟨⟩, by rintro n ⟨⟩, hs.removals⟩
    | caller ok hmoves =>
        refine hs.start hmoves ?_
        intro n hn
        rcases hmoves.comes_to_create hn with hcaller | hcaller
        · exact hs.creating n hcaller
        · cases ok with
          | true => exact hguard rfl n hcaller
          | false =>
              simp only [mqttMachine, hcaller, appMqttStartStep] at hstep
              split at hstep <;> cases hstep
              cases hn
    | main n a pc hpc hmoves =>
        rw [hs.mains n] at hpc
        cases hpc
    | refresher n ok halive hmoves =>
        generalize s.refreshers n = place at hmoves
        cases hmoves <;>
          exact ⟨hs.mains, hs.started, hs.creating, hs.raise, hs.removals⟩
    | sub n halive hmoves =>
        generalize s.subs n = place at hmoves
        cases hmoves <;>
          exact ⟨hs.mains, hs.started, hs.creating, hs.raise, hs.removals⟩

/-- The first task is being created with the flag down. -/
theorem NoTaskYet.create {a : MqttAction} (h : NoTaskYet s)
    (ha : ¬ CreatesNoTask s a) (hstep : mqttMachine.step s a = some s') :
    ¬ s'.SessionsApart := by
  cases a with
  | caller ok =>
      simp only [CreatesNoTask, not_forall, not_not] at ha
      obtain ⟨hok, n, hn⟩ := ha
      simp only [mqttMachine, hn, hok, appMqttStartStep] at hstep
      split at hstep <;> cases hstep
      intro hapart
      have hup := hapart.flag.mpr (Or.inr ⟨n, rfl⟩)
      exact absurd (h.started.symm.trans hup) (by decide)
  | _ => exact absurd trivial ha

/-- Until `APP_MQTT_Start` comes to the creation of a task sessions are apart,
and the first creation already finds the flag down.  In runs in which sessions
start apart they are separate. -/
theorem mqttMachine_sessionsApart {s : MqttSystem} :
    (mqttMachine.ReachableVia CreatesNoTask s → s.SessionsApart ∧
      ∀ a s', ¬ CreatesNoTask s a → mqttMachine.step s a = some s' →
        ¬ s'.SessionsApart) ∧
    (mqttMachine.ReachableVia StartsApart s → s.SessionsSeparate) := by
  refine ⟨?_, mqttMachine_sessionsSeparate⟩
  intro h
  have hnone := mqttMachine_noTaskYet h
  exact ⟨hnone.sessionsApart, fun a s' ha hstep => hnone.create ha hstep⟩

/-! ## Runs -/

/-- The first task fails and ends before the second session is started. -/
def secondSession : List MqttAction :=
  startSession ++ .main 0 .failed :: exitSession 0 ++ startSession

theorem mqttMachine_sessionsApart_second :
    ∃ s : MqttSystem, s.started = true ∧ s.mains 0 = .ended ∧
      (s.mains 1).alive = true ∧ s.SessionsSeparate := by
  have hmeets : mqttMachine.Meets StartsApartOfOpened newMqttSystem secondSession := by
    decide +kernel
  have hrun : ((mqttMachine.run newMqttSystem secondSession).map
      fun s => (s.started, s.mains 0, (s.mains 1).alive)) = some (true, .ended, true) := by
    decide +kernel
  obtain ⟨s, hs, hend⟩ := Option.map_eq_some_iff.mp hrun
  rw [Prod.mk.injEq, Prod.mk.injEq] at hend
  obtain ⟨hstarted, hended, halive⟩ := hend
  have hreach : mqttMachine.ReachableVia StartsApart s := by
    refine ((Machine.ReachableVia.init rfl).run _ hmeets hs).mono ?_
    intro s a hreach hguard
    exact (mqttMachine_freshSessions hreach).startsApart hguard
  exact ⟨s, hstarted, hended, halive, mqttMachine_sessionsApart.2 hreach⟩

/-- The first task fails and clears the flag.  Before it comes to its cleanup a
second session is started, and the cleanup deletes its queue. -/
theorem sessions_overlap :
    ∃ s, mqttMachine.Reachable s ∧ (s.mains 0).alive = true ∧
      (s.mains 1).alive = true ∧ s.removals = [⟨0, 1⟩] := by
  have hrun : ((mqttMachine.run newMqttSystem
      (startSession ++ [.main 0 .failed, .main 0 .ok] ++ startSession ++
        List.replicate 4 (.main 0 .ok))).map
      fun s => ((s.mains 0).alive, (s.mains 1).alive, s.removals)) =
      some (true, true, [⟨0, 1⟩]) := by
    decide +kernel
  obtain ⟨s, hs, hend⟩ := Option.map_eq_some_iff.mp hrun
  rw [Prod.mk.injEq, Prod.mk.injEq] at hend
  exact ⟨s, Machine.reachable_of_run rfl _ hs, hend.1, hend.2.1, hend.2.2⟩

/-- The first task ends before `APP_MQTT_Start` raises the flag, which then
stays up without a task. -/
theorem flag_left_up :
    ∃ s, mqttMachine.Reachable s ∧ s.started = true ∧ s.caller = .idle ∧
      ∀ n, (s.mains n).alive = false := by
  have hrun : ((mqttMachine.run newMqttSystem
      (.start :: List.replicate 4 (.caller true) ++
        .main 0 .failed :: exitSession 0 ++ [.caller true])).map
      fun s => (s.started, s.caller, s.mains 0, s.sessionCount)) =
      some (true, .idle, .ended, 1) := by
    decide +kernel
  obtain ⟨s, hs, hend⟩ := Option.map_eq_some_iff.mp hrun
  simp only [Prod.mk.injEq] at hend
  obtain ⟨hstarted, hidle, hended, hcount⟩ := hend
  have hreach := Machine.reachable_of_run rfl _ hs
  refine ⟨s, hreach, hstarted, hidle, ?_⟩
  intro n
  cases n with
  | zero =>
      rw [hended]
      rfl
  | succ n =>
      rw [(mqttMachine_freshSessions hreach).ahead _ (by omega)]
      rfl

/-- Sessions overlap, and the flag stays up without a task. -/
theorem mqttMachine_not_sessionsApart :
    (∃ s, mqttMachine.Reachable s ∧ (s.mains 0).alive = true ∧
      (s.mains 1).alive = true ∧ s.removals = [⟨0, 1⟩] ∧ ¬ s.SessionsApart) ∧
    ∃ s, mqttMachine.Reachable s ∧ s.started = true ∧
      (∀ n, (s.mains n).alive = false) ∧ ¬ s.SessionsApart := by
  constructor
  · obtain ⟨s, hreach, hfirst, hsecond, hremovals⟩ := sessions_overlap
    refine ⟨s, hreach, hfirst, hsecond, hremovals, ?_⟩
    intro hapart
    have heq := hapart.one 0 1 hfirst hsecond
    cases heq
  · obtain ⟨s, hreach, hstarted, hidle, hdead⟩ := flag_left_up
    refine ⟨s, hreach, hstarted, hdead, ?_⟩
    intro hapart
    rcases hapart.flag.mp hstarted with ⟨n, hn⟩ | ⟨n, hn⟩
    · rw [hdead n] at hn
      cases hn
    · rw [hidle] at hn
      cases hn

end Flag

end RtpMulticast
