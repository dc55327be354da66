import RtpMulticast.Mqtt.Sessions

/-!
# One session after the other

The cleanup of `APP_MQTT_Task` works through the fields of the context.  While
a session starts only when the task of the one before has ended, each field is
NULL or names an object of the running session, and which of the two is known
from the place of its task.

`mqtt_started` does not keep sessions apart: the task clears it before the
cleanup, and `APP_MQTT_Start` raises it when the task it has created may
already have ended.
-/

namespace RtpMulticast

/-! ## Handles -/

/-- A field of the context and the object of session `n` it is made for. -/
inductive HandlePhase where
  | unset
  | live
  /-- NULL without an object, or the handle of a live one. -/
  | either
  /-- The handle of a deleted object. -/
  | stale
  deriving DecidableEq, Repr

def HandlePhase.Holds (n : ℕ) (handle : Option ℕ) (alive : Bool) :
    HandlePhase → Prop
  | .unset => handle = none ∧ alive = false
  | .live => handle = some n ∧ alive = true
  | .either => handle = none ∧ alive = false ∨ handle = some n ∧ alive = true
  | .stale => handle = some n ∧ alive = false

namespace HandlePhase

variable {n k : ℕ} {handle : Option ℕ} {alive : Bool}

/-- A NULL field was not left behind by a live object. -/
theorem Holds.test_none {p : HandlePhase} (h : p.Holds n handle alive)
    (hnone : handle = none) : HandlePhase.unset.Holds n handle alive := by
  subst hnone
  cases p with
  | unset => exact h
  | live => exact absurd h.1 (by rintro ⟨⟩)
  | either =>
      rcases h with h | h
      · exact h
      · exact absurd h.1 (by rintro ⟨⟩)
  | stale => exact absurd h.1 (by rintro ⟨⟩)

theorem Holds.test_some {p : HandlePhase} (h : p.Holds n handle alive)
    (hp : p ≠ .stale) (hsome : handle = some k) :
    HandlePhase.live.Holds n handle alive := by
  subst hsome
  cases p with
  | unset => exact absurd h.1 (by rintro ⟨⟩)
  | live => exact h
  | either =>
      rcases h with h | h
      · exact absurd h.1 (by rintro ⟨⟩)
      · exact h
  | stale => exact absurd rfl hp

theorem Holds.owner (h : HandlePhase.live.Holds n handle alive)
    (hsome : handle = some k) : k = n := by
  have heq := hsome.symm.trans h.1
  cases heq
  rfl

end HandlePhase

def ObjectState.isLive : ObjectState → Bool
  | .live => true
  | .absent | .deleted => false

/-- The fields of the context, and whether `s_ctx` is set. -/
structure SessionPhases where
  sub : HandlePhase
  refresher : HandlePhase
  queue : HandlePhase
  events : HandlePhase
  ctx : Bool
  deriving DecidableEq, Repr

structure SessionPhases.Holds (p : SessionPhases) (s : MqttSystem) (n : ℕ) :
    Prop where
  sub : p.sub.Holds n s.subTask (s.subs n).alive
  refresher : p.refresher.Holds n s.refresherTask (s.refreshers n).alive
  queue : p.queue.Holds n s.subMsgQueue (s.queues n).state.isLive
  events : p.events.Holds n s.dnsEventFlags (s.eventGroups n).isLive
  ctx : p.ctx = true → s.sCtx = some n

/-- Nothing is left of a session. -/
def noPhases : SessionPhases := ⟨.unset, .unset, .unset, .unset, false⟩

/-! ## Fields by the place of the task -/

namespace MainPc

def subPhase : MainPc → HandlePhase
  | .takeSubscribe | .subscribeHeld | .loop | .takePublish | .publishHeld
  | .stop _ .deleteSub => .live
  | .stop false .testSub => .either
  | .stop _ .clearSub => .stale
  | _ => .unset

def refresherPhase : MainPc → HandlePhase
  | .createSub | .takeSubscribe | .subscribeHeld | .loop | .takePublish
  | .publishHeld | .stop _ .deleteRefresher => .live
  | .stop false .testSub | .stop false .deleteSub | .stop false .clearSub
  | .stop false .testRefresher => .either
  | .stop _ .clearRefresher => .stale
  | _ => .unset

def queuePhase : MainPc → HandlePhase
  | .clearQueue => .stale
  | .testEvents | .deleteEvents | .clearEvents | .clearCtx | .deleteSelf =>
      .unset
  | _ => .live

def eventsPhase : MainPc → HandlePhase
  | .clearEvents => .stale
  | .clearCtx | .deleteSelf => .unset
  | _ => .live

def phases (pc : MainPc) : SessionPhases :=
  ⟨pc.subPhase, pc.refresherPhase, pc.queuePhase, pc.eventsPhase,
    pc ≠ .deleteSelf⟩

end MainPc

/-- The fields of a session that `APP_MQTT_Start` is creating. -/
def StartPc.phases : StartPc → SessionPhases
  | .createEvents _ => ⟨.unset, .unset, .unset, .unset, true⟩
  | .createQueue _ => ⟨.unset, .unset, .unset, .live, true⟩
  | .createTask _ | .undoQueue _ => ⟨.unset, .unset, .live, .live, true⟩
  | .undoQueueField _ => ⟨.unset, .unset, .stale, .live, true⟩
  | .undoEvents _ => ⟨.unset, .unset, .unset, .live, true⟩
  | .undoEventsField _ => ⟨.unset, .unset, .unset, .stale, true⟩
  | .setCtx _ | .idle | .raise _ => noPhases

/-! ## The invariant -/

/-- The tasks and objects of session `k` are gone. -/
structure MqttSystem.SessionOver (s : MqttSystem) (k : ℕ) : Prop where
  main : (s.mains k).alive = false
  refresher : (s.refreshers k).alive = false
  sub : (s.subs k).alive = false
  queue : (s.queues k).state.isLive = false
  events : (s.eventGroups k).isLive = false

/-- `APP_MQTT_Start` has no creation in progress; it may still have to raise
the flag for session `n`. -/
def StartPc.Resting (n : ℕ) (pc : StartPc) : Prop := pc = .idle ∨ pc = .raise n

/-- Who is in charge of session `n`, with what the fields then hold. -/
inductive InCharge (s : MqttSystem) (n : ℕ) : SessionPhases → Prop
  | nobody (hcaller : s.caller.Resting n) (hmain : (s.mains n).alive = false) :
      InCharge s n noPhases
  | start (hcaller : s.caller.creating = some n)
      (hmain : (s.mains n).alive = false) : InCharge s n s.caller.phases
  | task (hcaller : s.caller.Resting n) (pc : MainPc)
      (hmain : s.mains n = .running pc) : InCharge s n pc.phases

/-- All sessions but one are over, and the fields belong to that one. -/
structure OrderedAt (s : MqttSystem) (n : ℕ) (p : SessionPhases) : Prop where
  others : ∀ k, k ≠ n → s.SessionOver k
  holds : p.Holds s n
  charge : InCharge s n p

def MqttSystem.Ordered (s : MqttSystem) : Prop := ∃ n p, OrderedAt s n p

/-- `APP_MQTT_Start` gets past its check only when no task of an earlier
session is left. -/
def StartsAlone (s : MqttSystem) : MqttAction → Prop
  | .start => s.started = false → ∀ n, (s.mains n).alive = false
  | _ => True

/-- `StartsAlone` for the sessions that were opened. -/
def StartsAloneOfOpened (s : MqttSystem) : MqttAction → Prop
  | .start => s.started = false → ∀ n < s.sessionCount, (s.mains n).alive = false
  | _ => True

instance (s : MqttSystem) : DecidablePred (StartsAloneOfOpened s)
  | .start => inferInstanceAs (Decidable
      (s.started = false → ∀ n < s.sessionCount, (s.mains n).alive = false))
  | .caller _ | .main .. | .refresher .. | .sub _ => isTrue trivial

theorem MqttSystem.FreshSessions.startsAlone {s : MqttSystem} {a : MqttAction}
    (h : s.FreshSessions) (halone : StartsAloneOfOpened s a) : StartsAlone s a := by
  cases a with
  | start =>
      intro hstarted n
      by_cases hn : n < s.sessionCount
      · exact halone hstarted n hn
      · rw [h.ahead n (Nat.not_lt.mp hn)]
        rfl
  | _ => exact trivial

section Steps

variable {s s' : MqttSystem} {n k : ℕ} {pc pc' : MainPc}

/-! ## Steps of the MQTT task -/

theorem Goes.phases_hold (h : Goes s pc pc') (hp : pc.phases.Holds s n) :
    pc'.phases.Holds s n := by
  obtain ⟨hsub, hrefresher, hqueue, hevents, hctx⟩ := hp
  cases h with
  | refresherFailed =>
      exact ⟨Or.inl hsub, Or.inl hrefresher, hqueue, hevents, hctx⟩
  | subFailed => exact ⟨Or.inl hsub, Or.inr hrefresher, hqueue, hevents, hctx⟩
  | noSub last hnone =>
      have hunset := hsub.test_none hnone
      cases last <;> exact ⟨hunset, hrefresher, hqueue, hevents, hctx⟩
  | sub last k hsome =>
      cases last
      · have hlive := hsub.test_some (by rintro ⟨⟩) hsome
        exact ⟨hlive, hrefresher, hqueue, hevents, hctx⟩
      · have hlive := hsub.test_some (by rintro ⟨⟩) hsome
        exact ⟨hlive, hrefresher, hqueue, hevents, hctx⟩
  | noRefresher last hnone =>
      have hunset := hrefresher.test_none hnone
      cases last <;> exact ⟨hsub, hunset, hqueue, hevents, hctx⟩
  | refresher last k hsome =>
      cases last
      · have hlive := hrefresher.test_some (by rintro ⟨⟩) hsome
        exact ⟨hsub, hlive, hqueue, hevents, hctx⟩
      · have hlive := hrefresher.test_some (by rintro ⟨⟩) hsome
        exact ⟨hsub, hlive, hqueue, hevents, hctx⟩
  | noQueue hnone =>
      exact ⟨hsub, hrefresher, hqueue.test_none hnone, hevents, hctx⟩
  | noEvents hnone =>
      exact ⟨hsub, hrefresher, hqueue, hevents.test_none hnone, hctx⟩
  | _ => exact ⟨hsub, hrefresher, hqueue, hevents, hctx⟩

theorem Takes.phases_eq (h : Takes pc pc') : pc'.phases = pc.phases := by
  cases h <;> rfl

theorem Uses.phases_eq {r r' : SessionResources} (h : Uses r pc r' pc') :
    pc'.phases = pc.phases := by
  cases h <;> rfl

theorem Gives.phases_hold (h : Gives pc pc') (hp : pc.phases.Holds s n) :
    pc'.phases.Holds s n := by
  obtain ⟨hsub, hrefresher, hqueue, hevents, hctx⟩ := hp
  cases h with
  | publishFailed =>
      exact ⟨Or.inr hsub, Or.inr hrefresher, hqueue, hevents, hctx⟩
  | _ => exact ⟨hsub, hrefresher, hqueue, hevents, hctx⟩

/-- Only session `n` is touched. -/
structure OthersSame (n : ℕ) (s s' : MqttSystem) : Prop where
  mains : ∀ k, k ≠ n → s'.mains k = s.mains k
  refreshers : ∀ k, k ≠ n → s'.refreshers k = s.refreshers k
  subs : ∀ k, k ≠ n → s'.subs k = s.subs k
  queues : ∀ k, k ≠ n → s'.queues k = s.queues k
  events : ∀ k, k ≠ n → s'.eventGroups k = s.eventGroups k

theorem OthersSame.sessionOver (h : OthersSame n s s') (hk : k ≠ n)
    (hover : s.SessionOver k) : s'.SessionOver k := by
  obtain ⟨hmain, hrefresher, hsub, hqueue, hevents⟩ := hover
  refine ⟨?_, ?_, ?_, ?_, ?_⟩
  · rwa [h.mains k hk]
  · rwa [h.refreshers k hk]
  · rwa [h.subs k hk]
  · rwa [h.queues k hk]
  · rwa [h.events k hk]

theorem OthersSame.goto (h : OthersSame n s s') :
    OthersSame n s (s'.goto n pc) := by
  refine ⟨fun k hk => ?_, h.refreshers, h.subs, h.queues, h.events⟩
  exact (Function.update_of_ne hk ..).trans (h.mains k hk)

theorem OthersSame.of_eq (hmains : s'.mains = s.mains)
    (hrefreshers : s'.refreshers = s.refreshers) (hsubs : s'.subs = s.subs)
    (hqueues : s'.queues = s.queues) (hevents : s'.eventGroups = s.eventGroups) :
    OthersSame n s s' := by
  refine ⟨?_, ?_, ?_, ?_, ?_⟩
  · exact fun k _ => congrFun hmains k
  · exact fun k _ => congrFun hrefreshers k
  · exact fun k _ => congrFun hsubs k
  · exact fun k _ => congrFun hqueues k
  · exact fun k _ => congrFun hevents k

/-- Only the task in charge can run. -/
theorem OrderedAt.task {p : SessionPhases} (h : OrderedAt s n p)
    (hpc : s.mains k = .running pc) :
    k = n ∧ s.caller.Resting n ∧ pc.phases.Holds s n := by
  have hk : k = n := by
    by_contra hne
    have hmain := (h.others k hne).main
    rw [hpc] at hmain
    cases hmain
  subst hk
  obtain ⟨-, hholds, hcharge⟩ := h
  cases hcharge with
  | nobody hcaller hmain =>
      rw [hpc] at hmain
      cases hmain
  | start hcaller hmain =>
      rw [hpc] at hmain
      cases hmain
  | task hcaller pc' hmain =>
      rw [hpc] at hmain
      cases hmain
      exact ⟨rfl, hcaller, hholds⟩

theorem MqttSystem.Ordered.goto {t : MqttSystem}
    (hover : ∀ k, k ≠ n → s.SessionOver k) (hcaller : s.caller.Resting n)
    (hothers : OthersSame n s t) (hsame : t.caller = s.caller)
    (hholds : pc.phases.Holds t n) : (t.goto n pc).Ordered := by
  refine ⟨n, pc.phases, ?_, ?_, ?_⟩
  · exact fun k hk => hothers.goto.sessionOver hk (hover k hk)
  · exact ⟨hholds.sub, hholds.refresher, hholds.queue, hholds.events, hholds.ctx⟩
  · refine .task ?_ pc ?_
    · change t.caller.Resting n
      rw [hsame]
      exact hcaller
    · exact Function.update_self ..

theorem MqttSystem.Ordered.end
    (hover : ∀ k, k ≠ n → s.SessionOver k) (hcaller : s.caller.Resting n)
    (hholds : noPhases.Holds s n) : (s.setMain n .ended).Ordered := by
  refine ⟨n, noPhases, ?_, ?_, .nobody hcaller ?_⟩
  · intro k hk
    obtain ⟨hmain, hrefresher, hsub, hqueue, hevents⟩ := hover k hk
    refine ⟨?_, hrefresher, hsub, hqueue, hevents⟩
    change (Function.update s.mains n .ended k).alive = false
    rwa [Function.update_of_ne hk]
  · exact ⟨hholds.sub, hholds.refresher, hholds.queue, hholds.events, hholds.ctx⟩
  · exact update_self_eq MainPlace.alive rfl

theorem MqttSystem.Ordered.halt (h : s.Ordered) : s.halt.Ordered := by
  obtain ⟨n, p, hover, hholds, hcharge⟩ := h
  have hothers : OthersSame n s s.halt := .of_eq rfl rfl rfl rfl rfl
  refine ⟨n, p, ?_, ?_, ?_⟩
  · exact fun k hk => hothers.sessionOver hk (hover k hk)
  · exact ⟨hholds.sub, hholds.refresher, hholds.queue, hholds.events, hholds.ctx⟩
  · cases hcharge with
    | nobody hcaller hmain => exact .nobody hcaller hmain
    | start hcaller hmain => exact @InCharge.start s.halt n hcaller hmain
    | task hcaller pc hmain => exact @InCharge.task s.halt n hcaller pc hmain

/-- A live handle names session `n`, and deleting the object leaves it behind. -/
theorem HandlePhase.Holds.delete {α : Type*} {f : ℕ → α} {alive : α → Bool}
    {handle : Option ℕ} {deleted : α}
    (h : HandlePhase.live.Holds n handle (alive (f n)))
    (hdeleted : alive deleted = false) :
    HandlePhase.stale.Holds n handle (alive (Function.update f n deleted n)) := by
  rw [Function.update_self]
  exact ⟨h.1, hdeleted⟩

theorem MainMoves.ordered (h : MainMoves s k pc s') (hpc : s.mains k = .running pc)
    (hs : s.Ordered) : s'.Ordered := by
  obtain ⟨n, p, hat⟩ := hs
  obtain ⟨rfl, hcaller, hholds⟩ := hat.task hpc
  have hover := hat.others
  have hgoto : ∀ (t : MqttSystem) (pc' : MainPc), OthersSame k s t →
      t.caller = s.caller → pc'.phases.Holds t k → (t.goto k pc').Ordered :=
    fun t pc' => .goto hover hcaller
  have hsame : OthersSame k s s := .of_eq rfl rfl rfl rfl rfl
  obtain ⟨hsub, hrefresher, hqueue, hevents, hctx⟩ := hholds
  cases h with
  | halt => exact MqttSystem.Ordered.halt ⟨k, p, hat⟩
  | goes hgoes =>
      exact hgoto _ _ hsame rfl
        (hgoes.phases_hold ⟨hsub, hrefresher, hqueue, hevents, hctx⟩)
  | takes htakes =>
      refine hgoto _ _ (.of_eq rfl rfl rfl rfl rfl) rfl ?_
      rw [htakes.phases_eq]
      exact ⟨hsub, hrefresher, hqueue, hevents, hctx⟩
  | gives hgives =>
      have hp := hgives.phases_hold ⟨hsub, hrefresher, hqueue, hevents, hctx⟩
      exact hgoto _ _ (.of_eq rfl rfl rfl rfl rfl) rfl
        ⟨hp.sub, hp.refresher, hp.queue, hp.events, hp.ctx⟩
  | uses huses =>
      refine hgoto _ _ (.of_eq rfl rfl rfl rfl rfl) rfl ?_
      rw [huses.phases_eq]
      exact ⟨hsub, hrefresher, hqueue, hevents, hctx⟩
  | noSubTask last hhandle =>
      -- A task that is about to delete has seen a handle.
      exact absurd (hhandle.symm.trans hsub.1) (by rintro ⟨⟩)
  | noRefresherTask last hhandle =>
      cases last <;> exact absurd (hhandle.symm.trans hrefresher.1) (by rintro ⟨⟩)
  | deleteSelf =>
      exact .end hover hcaller ⟨hsub, hrefresher, hqueue, hevents, by rintro ⟨⟩⟩
  | createRefresher =>
      refine hgoto _ _ ⟨fun _ _ => rfl, ?_, fun _ _ => rfl, fun _ _ => rfl,
        fun _ _ => rfl⟩ rfl ?_
      · exact fun i hi => Function.update_of_ne hi ..
      · refine ⟨hsub, ⟨rfl, ?_⟩, hqueue, hevents, hctx⟩
        exact update_self_eq RefresherPlace.alive rfl
  | createSub =>
      refine hgoto _ _ ⟨fun _ _ => rfl, fun _ _ => rfl, ?_, fun _ _ => rfl,
        fun _ _ => rfl⟩ rfl ?_
      · exact fun i hi => Function.update_of_ne hi ..
      · refine ⟨⟨rfl, ?_⟩, hrefresher, hqueue, hevents, hctx⟩
        exact update_self_eq SubPlace.alive rfl
  | deleteSub last i hhandle halive =>
      have hi : i = k := hsub.owner hhandle
      subst hi
      refine hgoto _ _ ⟨fun _ _ => rfl, fun _ _ => rfl, ?_, fun _ _ => rfl,
        fun _ _ => rfl⟩ rfl ?_
      · exact fun j hj => Function.update_of_ne hj ..
      · have hdead : SubPlace.alive .deleted = false := rfl
        have hstale := hsub.delete hdead
        cases last <;> exact ⟨hstale, hrefresher, hqueue, hevents, hctx⟩
  | clearSub last =>
      refine hgoto _ _ (.of_eq rfl rfl rfl rfl rfl) rfl ?_
      cases last <;> exact ⟨⟨rfl, hsub.2⟩, hrefresher, hqueue, hevents, hctx⟩
  | deleteRefresher last i hhandle halive =>
      have hlive : HandlePhase.live.Holds k s.refresherTask
          (s.refreshers k).alive := by
        cases last <;> exact hrefresher
      have hi : i = k := hlive.owner hhandle
      subst hi
      refine hgoto _ _ ⟨fun _ _ => rfl, ?_, fun _ _ => rfl, fun _ _ => rfl,
        fun _ _ => rfl⟩ rfl ?_
      · exact fun j hj => Function.update_of_ne hj ..
      · have hdead : RefresherPlace.alive .deleted = false := rfl
        have hstale := hlive.delete hdead
        cases last <;> exact ⟨hsub, hstale, hqueue, hevents, hctx⟩
  | clearRefresher last =>
      refine hgoto _ _ (.of_eq rfl rfl rfl rfl rfl) rfl ?_
      cases last <;> exact ⟨hsub, ⟨rfl, hrefresher.2⟩, hqueue, hevents, hctx⟩
  | clearStarted =>
      exact hgoto _ _ (.of_eq rfl rfl rfl rfl rfl) rfl
        ⟨hsub, hrefresher, hqueue, hevents, hctx⟩
  | deleteQueue q hhandle hlive =>
      have hq : q = k := hqueue.owner hhandle
      subst hq
      refine hgoto _ _ ⟨fun _ _ => rfl, fun _ _ => rfl, fun _ _ => rfl, ?_,
        fun _ _ => rfl⟩ rfl ?_
      · exact fun j hj => Function.update_of_ne hj ..
      · refine ⟨hsub, hrefresher, ⟨hqueue.1, ?_⟩, hevents, hctx⟩
        exact update_self_eq (fun queue : MsgQueue => queue.state.isLive) rfl
  | clearQueue =>
      exact hgoto _ _ (.of_eq rfl rfl rfl rfl rfl) rfl
        ⟨hsub, hrefresher, ⟨rfl, hqueue.2⟩, hevents, hctx⟩
  | deleteEvents e hhandle hlive =>
      have he : e = k := hevents.owner hhandle
      subst he
      refine hgoto _ _ ⟨fun _ _ => rfl, fun _ _ => rfl, fun _ _ => rfl,
        fun _ _ => rfl, ?_⟩ rfl ?_
      · exact fun j hj => Function.update_of_ne hj ..
      · refine ⟨hsub, hrefresher, hqueue, ⟨hevents.1, ?_⟩, hctx⟩
        exact update_self_eq ObjectState.isLive rfl
  | clearEvents =>
      exact hgoto _ _ (.of_eq rfl rfl rfl rfl rfl) rfl
        ⟨hsub, hrefresher, hqueue, ⟨rfl, hevents.2⟩, hctx⟩
  | clearCtx hremovals =>
      exact hgoto _ _ (.of_eq rfl rfl rfl rfl rfl) rfl
        ⟨hsub, hrefresher, hqueue, hevents, by rintro ⟨⟩⟩

/-! ## Steps of the auxiliary tasks -/

/-- Nothing is created, deleted or set. -/
structure SameLifetimes (s s' : MqttSystem) : Prop where
  caller : s'.caller = s.caller
  mains : s'.mains = s.mains
  refreshers : ∀ k, (s'.refreshers k).alive = (s.refreshers k).alive
  subs : ∀ k, (s'.subs k).alive = (s.subs k).alive
  queues : ∀ k, (s'.queues k).state = (s.queues k).state
  events : s'.eventGroups = s.eventGroups
  subTask : s'.subTask = s.subTask
  refresherTask : s'.refresherTask = s.refresherTask
  subMsgQueue : s'.subMsgQueue = s.subMsgQueue
  dnsEventFlags : s'.dnsEventFlags = s.dnsEventFlags
  sCtx : s'.sCtx = s.sCtx

theorem SameLifetimes.ordered (h : SameLifetimes s s') (hs : s.Ordered) :
    s'.Ordered := by
  obtain ⟨n, p, hover, hholds, hcharge⟩ := hs
  refine ⟨n, p, ?_, ?_, ?_⟩
  · intro k hk
    obtain ⟨hmain, hrefresher, hsub, hqueue, hevents⟩ := hover k hk
    refine ⟨?_, ?_, ?_, ?_, ?_⟩
    · rwa [h.mains]
    · rwa [h.refreshers]
    · rwa [h.subs]
    · rwa [h.queues]
    · rwa [h.events]
  · obtain ⟨hsub, hrefresher, hqueue, hevents, hctx⟩ := hholds
    refine ⟨?_, ?_, ?_, ?_, ?_⟩
    · rwa [h.subTask, h.subs]
    · rwa [h.refresherTask, h.refreshers]
    · rwa [h.subMsgQueue, h.queues]
    · rwa [h.dnsEventFlags, h.events]
    · rwa [h.sCtx]
  · cases hcharge with
    | nobody hcaller hmain =>
        exact .nobody (by rwa [h.caller]) (by rwa [h.mains])
    | start hcaller hmain =>
        rw [← h.caller]
        exact .start (by rwa [h.caller]) (by rwa [h.mains])
    | task hcaller pc hmain =>
        exact .task (by rwa [h.caller]) pc (by rwa [h.mains])

theorem RefresherMoves.sameLifetimes
    (h : RefresherMoves s n (s.refreshers n) s')
    (halive : (s.refreshers n).alive = true) : SameLifetimes s s' := by
  have hset : ∀ place : RefresherPlace, place.alive = true → ∀ k,
      (Function.update s.refreshers n place k).alive = (s.refreshers k).alive :=
    fun place hplace => update_keeps RefresherPlace.alive
      (hplace.trans halive.symm)
  generalize hplace : s.refreshers n = place at h
  cases h with
  | stays | halt =>
      exact ⟨rfl, rfl, fun _ => rfl, fun _ => rfl, fun _ => rfl, rfl, rfl, rfl,
        rfl, rfl, rfl⟩
  | queued data q hqueue hlive =>
      exact ⟨rfl, rfl, hset _ rfl, fun _ => rfl,
        update_keeps MsgQueue.state hlive.symm, rfl, rfl, rfl, rfl, rfl, rfl⟩
  | _ =>
      exact ⟨rfl, rfl, hset _ rfl, fun _ => rfl, fun _ => rfl, rfl, rfl, rfl,
        rfl, rfl, rfl⟩

theorem SubMoves.sameLifetimes (h : SubMoves s n (s.subs n) s')
    (halive : (s.subs n).alive = true) : SameLifetimes s s' := by
  have hset : ∀ place : SubPlace, place.alive = true → ∀ k,
      (Function.update s.subs n place k).alive = (s.subs k).alive :=
    fun place hplace => update_keeps SubPlace.alive (hplace.trans halive.symm)
  generalize hplace : s.subs n = place at h
  cases h with
  | halt =>
      exact ⟨rfl, rfl, fun _ => rfl, fun _ => rfl, fun _ => rfl, rfl, rfl, rfl,
        rfl, rfl, rfl⟩
  | receives q data rest hentries =>
      exact ⟨rfl, rfl, fun _ => rfl, hset _ rfl, update_keeps MsgQueue.state rfl,
        rfl, rfl, rfl, rfl, rfl, rfl⟩
  | _ =>
      exact ⟨rfl, rfl, fun _ => rfl, hset _ rfl, fun _ => rfl, rfl, rfl, rfl,
        rfl, rfl, rfl⟩

/-! ## Steps of the application task -/

/-- A creation is in progress only while its session is in charge. -/
theorem OrderedAt.start {p : SessionPhases} (h : OrderedAt s n p)
    (hcreating : s.caller.creating = some k) :
    k = n ∧ (s.mains n).alive = false ∧ s.caller.phases.Holds s n := by
  obtain ⟨-, hholds, hcharge⟩ := h
  have hrest : ¬ s.caller.Resting n := by
    rintro (hidle | hraise)
    · rw [hidle] at hcreating
      cases hcreating
    · rw [hraise] at hcreating
      cases hcreating
  cases hcharge with
  | nobody hcaller => exact absurd hcaller hrest
  | task hcaller => exact absurd hcaller hrest
  | start hcaller hmain =>
      have heq := hcreating.symm.trans hcaller
      cases heq
      exact ⟨rfl, hmain, hholds⟩

theorem MqttSystem.Ordered.creating (hover : ∀ k, k ≠ n → s.SessionOver k)
    (hmain : (s.mains n).alive = false) (hothers : OthersSame n s s')
    (hmains : s'.mains n = s.mains n)
    (hcreating : s'.caller.creating = some n)
    (hholds : s'.caller.phases.Holds s' n) : s'.Ordered := by
  refine ⟨n, _, fun k hk => hothers.sessionOver hk (hover k hk), hholds, ?_⟩
  exact .start hcreating (by rwa [hmains])

theorem MqttSystem.Ordered.gaveUp (hover : ∀ k, k ≠ n → s.SessionOver k)
    (hmain : (s.mains n).alive = false) (hothers : OthersSame n s s')
    (hmains : s'.mains n = s.mains n) (hidle : s'.caller = .idle)
    (hholds : noPhases.Holds s' n) : s'.Ordered := by
  refine ⟨n, _, fun k hk => hothers.sessionOver hk (hover k hk), hholds, ?_⟩
  exact .nobody (Or.inl hidle) (by rwa [hmains])

theorem StartMoves.ordered (h : StartMoves s s.caller s') (hs : s.Ordered) :
    s'.Ordered := by
  obtain ⟨n, p, hat⟩ := hs
  have hover := hat.others
  generalize hcaller : s.caller = pc at h
  have hstart : ∀ k, pc.creating = some k →
      k = n ∧ (s.mains n).alive = false ∧ pc.phases.Holds s n := by
    intro k hk
    rw [← hcaller] at hk ⊢
    exact hat.start hk
  cases h with
  | halt => exact MqttSystem.Ordered.halt ⟨n, p, hat⟩
  | raise m =>
      obtain ⟨-, ⟨hsub, hrefresher, hqueue, hevents, hctx⟩, hcharge⟩ := hat
      have hothers : OthersSame n s { s with started := true, caller := .idle } :=
        .of_eq rfl rfl rfl rfl rfl
      refine ⟨n, p, fun k hk => hothers.sessionOver hk (hover k hk),
        ⟨hsub, hrefresher, hqueue, hevents, hctx⟩, ?_⟩
      cases hcharge with
      | nobody _ hmain => exact .nobody (Or.inl rfl) hmain
      | start hcreating =>
          rw [hcaller] at hcreating
          cases hcreating
      | task _ pc' hmain => exact .task (Or.inl rfl) pc' hmain
  | setCtx m =>
      obtain ⟨rfl, hmain, hsub, hrefresher, hqueue, hevents, -⟩ := hstart m rfl
      exact .creating hover hmain (.of_eq rfl rfl rfl rfl rfl) rfl rfl
        ⟨hsub, hrefresher, hqueue, hevents, fun _ => rfl⟩
  | createEvents m =>
      obtain ⟨rfl, hmain, hsub, hrefresher, hqueue, hevents, hctx⟩ := hstart m rfl
      refine .creating hover hmain ⟨fun _ _ => rfl, fun _ _ => rfl,
        fun _ _ => rfl, fun _ _ => rfl, ?_⟩ rfl rfl ?_
      · exact fun j hj => Function.update_of_ne hj ..
      · refine ⟨hsub, hrefresher, hqueue, ⟨rfl, ?_⟩, hctx⟩
        exact update_self_eq ObjectState.isLive rfl
  | noEvents m =>
      obtain ⟨rfl, hmain, hsub, hrefresher, hqueue, hevents, -⟩ := hstart m rfl
      exact .gaveUp hover hmain (.of_eq rfl rfl rfl rfl rfl) rfl rfl
        ⟨hsub, hrefresher, hqueue, ⟨rfl, hevents.2⟩, by rintro ⟨⟩⟩
  | createQueue m =>
      obtain ⟨rfl, hmain, hsub, hrefresher, hqueue, hevents, hctx⟩ := hstart m rfl
      refine .creating hover hmain ⟨fun _ _ => rfl, fun _ _ => rfl,
        fun _ _ => rfl, ?_, fun _ _ => rfl⟩ rfl rfl ?_
      · exact fun j hj => Function.update_of_ne hj ..
      · refine ⟨hsub, hrefresher, ⟨rfl, ?_⟩, hevents, hctx⟩
        exact update_self_eq (fun queue : MsgQueue => queue.state.isLive) rfl
  | noQueue m =>
      obtain ⟨rfl, hmain, hsub, hrefresher, hqueue, hevents, hctx⟩ := hstart m rfl
      exact .creating hover hmain (.of_eq rfl rfl rfl rfl rfl) rfl rfl
        ⟨hsub, hrefresher, ⟨rfl, hqueue.2⟩, hevents, hctx⟩
  | createTask m =>
      obtain ⟨rfl, hmain, hsub, hrefresher, hqueue, hevents, hctx⟩ := hstart m rfl
      have hothers : OthersSame m s
          { s.goto m .mac with caller := .raise m } :=
        ⟨fun j hj => Function.update_of_ne hj .., fun _ _ => rfl,
          fun _ _ => rfl, fun _ _ => rfl, fun _ _ => rfl⟩
      refine ⟨m, MainPc.mac.phases, fun k hk => hothers.sessionOver hk (hover k hk),
        ⟨hsub, hrefresher, hqueue, hevents, hctx⟩, ?_⟩
      exact .task (Or.inr rfl) .mac (Function.update_self ..)
  | noTask m =>
      obtain ⟨rfl, hmain, hsub, hrefresher, hqueue, hevents, hctx⟩ := hstart m rfl
      exact .creating hover hmain (.of_eq rfl rfl rfl rfl rfl) rfl rfl
        ⟨hsub, hrefresher, hqueue, hevents, hctx⟩
  | undoQueue m q hhandle hlive =>
      obtain ⟨rfl, hmain, hsub, hrefresher, hqueue, hevents, hctx⟩ := hstart m rfl
      have hq : q = m := hqueue.owner hhandle
      subst hq
      refine .creating hover hmain ⟨fun _ _ => rfl, fun _ _ => rfl,
        fun _ _ => rfl, ?_, fun _ _ => rfl⟩ rfl rfl ?_
      · exact fun j hj => Function.update_of_ne hj ..
      · refine ⟨hsub, hrefresher, ⟨hqueue.1, ?_⟩, hevents, hctx⟩
        exact update_self_eq (fun queue : MsgQueue => queue.state.isLive) rfl
  | undoQueueField m =>
      obtain ⟨rfl, hmain, hsub, hrefresher, hqueue, hevents, hctx⟩ := hstart m rfl
      exact .creating hover hmain (.of_eq rfl rfl rfl rfl rfl) rfl rfl
        ⟨hsub, hrefresher, ⟨rfl, hqueue.2⟩, hevents, hctx⟩
  | undoEvents m e hhandle hlive =>
      obtain ⟨rfl, hmain, hsub, hrefresher, hqueue, hevents, hctx⟩ := hstart m rfl
      have he : e = m := hevents.owner hhandle
      subst he
      refine .creating hover hmain ⟨fun _ _ => rfl, fun _ _ => rfl,
        fun _ _ => rfl, fun _ _ => rfl, ?_⟩ rfl rfl ?_
      · exact fun j hj => Function.update_of_ne hj ..
      · refine ⟨hsub, hrefresher, hqueue, ⟨hevents.1, ?_⟩, hctx⟩
        exact update_self_eq ObjectState.isLive rfl
  | undoEventsField m =>
      obtain ⟨rfl, hmain, hsub, hrefresher, hqueue, hevents, -⟩ := hstart m rfl
      exact .gaveUp hover hmain (.of_eq rfl rfl rfl rfl rfl) rfl rfl
        ⟨hsub, hrefresher, hqueue, ⟨rfl, hevents.2⟩, by rintro ⟨⟩⟩

/-- With no task left, the next session finds every field unset. -/
theorem MqttSystem.Ordered.start (h : s.Ordered)
    (halone : ∀ n, (s.mains n).alive = false) (hidle : s.caller = .idle) :
    MqttSystem.Ordered { s with
      caller := .setCtx s.sessionCount
      sessionCount := s.sessionCount + 1 } := by
  obtain ⟨n, p, hover, ⟨hsub, hrefresher, hqueue, hevents, -⟩, hcharge⟩ := h
  cases hcharge with
  | start hcreating =>
      rw [hidle] at hcreating
      cases hcreating
  | task _ pc hmain =>
      have hn := halone n
      rw [hmain] at hn
      cases hn
  | nobody _ hmain =>
      have hall : ∀ k, s.SessionOver k := by
        intro k
        by_cases hk : k = n
        · subst hk
          exact ⟨hmain, hrefresher.2, hsub.2, hqueue.2, hevents.2⟩
        · exact hover k hk
      obtain ⟨hmain', hrefresher', hsub', hqueue', hevents'⟩ :=
        hall s.sessionCount
      refine ⟨s.sessionCount, noPhases, ?_, ?_, .start rfl hmain'⟩
      · intro k _
        obtain ⟨hm, hr, hsb, hq, he⟩ := hall k
        exact ⟨hm, hr, hsb, hq, he⟩
      · exact ⟨⟨hsub.1, hsub'⟩, ⟨hrefresher.1, hrefresher'⟩,
          ⟨hqueue.1, hqueue'⟩, ⟨hevents.1, hevents'⟩, by rintro ⟨⟩⟩

theorem newMqttSystem_ordered : newMqttSystem.Ordered := by
  refine ⟨0, noPhases, ?_, ?_, .nobody (Or.inl rfl) rfl⟩
  · exact fun k _ => ⟨rfl, rfl, rfl, rfl, rfl⟩
  · exact ⟨⟨rfl, rfl⟩, ⟨rfl, rfl⟩, ⟨rfl, rfl⟩, ⟨rfl, rfl⟩, by rintro ⟨⟩⟩

theorem mqttMachine_ordered_step {a : MqttAction} (hs : s.Ordered)
    (halone : StartsAlone s a) (hstep : mqttMachine.step s a = some s') :
    s'.Ordered := by
  cases mqttMachine_moves hstep with
  | started hidle hstarted => exact hs
  | start hidle hstarted => exact hs.start (halone hstarted) hidle
  | caller ok hmoves => exact hmoves.ordered hs
  | main n a pc hpc hmoves => exact hmoves.ordered hpc hs
  | refresher n ok halive hmoves => exact (hmoves.sameLifetimes halive).ordered hs
  | sub n halive hmoves => exact (hmoves.sameLifetimes halive).ordered hs

/-- While sessions start one after the other, the fields belong to the session
that is running. -/
theorem mqttMachine_ordered {guard : MqttSystem → MqttAction → Prop}
    (halone : ∀ s a, guard s a → StartsAlone s a)
    (h : mqttMachine.ReachableVia guard s) : s.Ordered := by
  apply h.invariant
  · rintro s rfl
    exact newMqttSystem_ordered
  · intro s a s' hs hguard hstep
    exact mqttMachine_ordered_step hs (halone s a hguard) hstep

end Steps

end RtpMulticast
