import RtpMulticast.Support.Machine
import Mathlib.Data.Nat.Basic

/-!
# Postponed publishes

After a frame of more than 20000 bytes the stream task stores a deadline in
`mqtt_publish_postpone_until`, 200 ticks ahead of the tick counter, and
`APP_MQTT_Task` waits for it before it publishes.  Both read the 32-bit counter,
but the deadline stays in the field for any time, and is compared as a number.

The state keeps the ticks since the start, of which the counter shows the
residue, and with the field the tick it was computed for and the time of the
store.
-/

namespace RtpMulticast

/-- Values of `TickType_t`. -/
def tickModulus : ℕ := 4294967296

/-- `pdMS_TO_TICKS(200U)`, one tick being a millisecond. -/
def postponeTicks : ℕ := 200

/-- Frames above this size move the deadline. -/
def largeFrameSize : ℕ := 20000

/-- The last store of the field: the deadline without the wrap of the counter,
and when it was stored. -/
structure PostponeStore where
  deadline : ℕ
  time : ℕ
  deriving DecidableEq, Repr

/-- The stream task between the two changes of `EVENT_FLAG_STREAM_TX_BUSY`. -/
inductive StreamTxPlace where
  | idle
  /-- `w6x_rtp_sender_session_send_h264` with a frame of `encSize` bytes. -/
  | send (encSize : ℕ)
  /-- `xTaskGetTickCount` returned at `tick`; the store is next. -/
  | store (tick : ℕ)
  | clearBusy
  deriving DecidableEq, Repr

/-- The MQTT task around the postponement. -/
inductive PublishPlace where
  | idle
  /-- The busy flag was not set. -/
  | readTick
  /-- `xTaskGetTickCount` returned at `tick`; the field is next. -/
  | readPostpone (tick : ℕ)
  /-- `vTaskDelay` and the publish. -/
  | publish
  deriving DecidableEq, Repr

/-- A delay that was applied: its length, when the field was read for it, and
what the field had last been stored for. -/
structure PublishDelay where
  ticks : ℕ
  time : ℕ
  store : Option PostponeStore
  deriving DecidableEq, Repr

structure Postponement where
  time : ℕ
  txBusy : Bool
  mqttPublishPostponeUntil : ℕ
  lastStore : Option PostponeStore
  stream : StreamTxPlace
  mqtt : PublishPlace
  delays : List PublishDelay
  deriving DecidableEq, Repr

inductive PostponementAction where
  /-- Time passes. -/
  | elapse (ticks : ℕ)
  /-- The stream task has a frame to send. -/
  | frame (encSize : ℕ)
  /-- The stream task goes on. -/
  | stream
  /-- The MQTT task goes on. -/
  | mqtt
  deriving DecidableEq, Repr

def Postponement.stepStream (s : Postponement) : Option Postponement :=
  match s.stream with
  | .idle => none
  | .send encSize =>
      if encSize > largeFrameSize then some { s with stream := .store s.time }
      else some { s with stream := .clearBusy }
  | .store tick =>
      some { s with
        mqttPublishPostponeUntil := (tick % tickModulus + postponeTicks) % tickModulus
        lastStore := some ⟨tick + postponeTicks, s.time⟩
        stream := .clearBusy }
  | .clearBusy => some { s with txBusy := false, stream := .idle }

/-- `postpone_until - now` where this is positive. -/
def postponeDelay (postponeUntil now : ℕ) : ℕ :=
  if postponeUntil > now then postponeUntil - now else 0

def Postponement.stepMqtt (s : Postponement) : Option Postponement :=
  match s.mqtt with
  | .idle =>
      -- Nothing is published while the stream task sends.
      if s.txBusy then some s else some { s with mqtt := .readTick }
  | .readTick => some { s with mqtt := .readPostpone s.time }
  | .readPostpone tick =>
      some { s with
        mqtt := .publish
        delays := s.delays ++
          [⟨postponeDelay s.mqttPublishPostponeUntil (tick % tickModulus), s.time,
            s.lastStore⟩] }
  | .publish => some { s with mqtt := .idle }

def Postponement.step (s : Postponement) : PostponementAction → Option Postponement
  | .elapse ticks => some { s with time := s.time + ticks }
  | .frame encSize =>
      match s.stream with
      | .idle => some { s with txBusy := true, stream := .send encSize }
      | _ => none
  | .stream => s.stepStream
  | .mqtt => s.stepMqtt

def postponementStart : Postponement where
  time := 0
  txBusy := false
  mqttPublishPostponeUntil := 0
  lastStore := none
  stream := .idle
  mqtt := .idle
  delays := []

def postponement : Machine Postponement PostponementAction where
  init s := s = postponementStart
  step := Postponement.step

/-- A step leaves the field and the delays alone, or it is the store of the
stream task, or it is the read of the MQTT task. -/
theorem postponement_step_cases {s s' : Postponement} {a : PostponementAction}
    (hs : postponement.step s a = some s') :
    (s'.mqttPublishPostponeUntil = s.mqttPublishPostponeUntil ∧
      s'.lastStore = s.lastStore ∧ s'.delays = s.delays) ∨
    (∃ tick, s.stream = .store tick ∧
      s'.mqttPublishPostponeUntil =
        (tick % tickModulus + postponeTicks) % tickModulus ∧
      s'.lastStore = some ⟨tick + postponeTicks, s.time⟩ ∧ s'.delays = s.delays) ∨
    (∃ tick, a = .mqtt ∧ s.mqtt = .readPostpone tick ∧
      s'.mqttPublishPostponeUntil = s.mqttPublishPostponeUntil ∧
      s'.lastStore = s.lastStore ∧
      s'.delays = s.delays ++
        [⟨postponeDelay s.mqttPublishPostponeUntil (tick % tickModulus), s.time,
          s.lastStore⟩]) := by
  cases a with
  | elapse ticks =>
      simp only [postponement, Postponement.step, Option.some.injEq] at hs
      subst hs
      exact Or.inl ⟨rfl, rfl, rfl⟩
  | frame encSize =>
      simp only [postponement, Postponement.step] at hs
      split at hs
      · simp only [Option.some.injEq] at hs
        subst hs
        exact Or.inl ⟨rfl, rfl, rfl⟩
      · cases hs
  | stream =>
      simp only [postponement, Postponement.step, Postponement.stepStream] at hs
      cases hstream : s.stream with
      | idle => simp [hstream] at hs
      | send encSize =>
          simp only [hstream] at hs
          split at hs <;> simp only [Option.some.injEq] at hs <;> subst hs <;>
            exact Or.inl ⟨rfl, rfl, rfl⟩
      | store tick =>
          simp only [hstream, Option.some.injEq] at hs
          subst hs
          exact Or.inr (Or.inl ⟨tick, rfl, rfl, rfl, rfl⟩)
      | clearBusy =>
          simp only [hstream, Option.some.injEq] at hs
          subst hs
          exact Or.inl ⟨rfl, rfl, rfl⟩
  | mqtt =>
      simp only [postponement, Postponement.step, Postponement.stepMqtt] at hs
      cases hmqtt : s.mqtt with
      | idle =>
          simp only [hmqtt] at hs
          split at hs <;> simp only [Option.some.injEq] at hs <;> subst hs <;>
            exact Or.inl ⟨rfl, rfl, rfl⟩
      | readTick =>
          simp only [hmqtt, Option.some.injEq] at hs
          subst hs
          exact Or.inl ⟨rfl, rfl, rfl⟩
      | readPostpone tick =>
          simp only [hmqtt, Option.some.injEq] at hs
          subst hs
          exact Or.inr (Or.inr ⟨tick, rfl, rfl, rfl, rfl, rfl⟩)
      | publish =>
          simp only [hmqtt, Option.some.injEq] at hs
          subst hs
          exact Or.inl ⟨rfl, rfl, rfl⟩

/-- The field holds the residue of the deadline. -/
def Postponement.Current (s : Postponement) : Prop :=
  s.mqttPublishPostponeUntil =
    (s.lastStore.map fun st => st.deadline % tickModulus).getD 0

theorem Postponement.Current.step {s s' : Postponement} {a : PostponementAction}
    (h : s.Current) (hs : postponement.step s a = some s') : s'.Current := by
  unfold Postponement.Current at h ⊢
  obtain ⟨hfield, hstore, -⟩ | ⟨tick, -, hfield, hstore, -⟩ |
    ⟨tick, -, -, hfield, hstore, -⟩ := postponement_step_cases hs
  · rw [hfield, hstore, h]
  · rw [hfield, hstore]
    exact Nat.mod_add_mod _ _ _
  · rw [hfield, hstore, h]

/-! ## Bounded delays -/

/-- At most 200 ticks, and none once 200 ticks passed since the last store or
when there was none. -/
def PublishDelay.Bounded (d : PublishDelay) : Prop :=
  match d.store with
  | none => d.ticks = 0
  | some st =>
      d.ticks ≤ postponeTicks ∧
        (st.time + postponeTicks ≤ d.time → d.ticks = 0)

/-- A deadline read at `time` after the counter was read at `tick`: it shows no
more than the counter did, or it lies at most 200 ticks ahead and was stored
less than 200 ticks ago. -/
def PostponeStore.Fresh (st : PostponeStore) (tick time : ℕ) : Prop :=
  st.deadline % tickModulus ≤ tick % tickModulus ∨
    (tick < st.deadline ∧ st.deadline ≤ tick + postponeTicks ∧
      time < st.time + postponeTicks)

instance (st : PostponeStore) (tick time : ℕ) : Decidable (st.Fresh tick time) :=
  inferInstanceAs (Decidable (_ ∨ _))

/-- The MQTT task reads no outdated deadline, and none that is newer than its
reading of the counter. -/
def FreshPostpone (s : Postponement) : PostponementAction → Prop
  | .mqtt =>
      match s.mqtt with
      | .readPostpone tick => ∀ st ∈ s.lastStore, st.Fresh tick s.time
      | _ => True
  | _ => True

instance : (s : Postponement) → (a : PostponementAction) →
    Decidable (FreshPostpone s a)
  | _, .elapse _ => isTrue trivial
  | _, .frame _ => isTrue trivial
  | _, .stream => isTrue trivial
  | s, .mqtt =>
      match h : s.mqtt with
      | .idle => isTrue (by simp [FreshPostpone, h])
      | .readTick => isTrue (by simp [FreshPostpone, h])
      | .readPostpone tick =>
          decidable_of_iff (∀ st ∈ s.lastStore, st.Fresh tick s.time)
            (by simp [FreshPostpone, h])
      | .publish => isTrue (by simp [FreshPostpone, h])

/-- The deadline at most 200 ticks ahead shows at most 200 more than the counter,
unless the counter wraps before it, and then it shows less. -/
theorem postponeDelay_le {deadline tick : ℕ} (hlt : tick < deadline)
    (hle : deadline ≤ tick + postponeTicks) :
    postponeDelay (deadline % tickModulus) (tick % tickModulus) ≤ postponeTicks := by
  unfold postponeDelay tickModulus postponeTicks at *
  split
  · omega
  · omega

theorem postponeDelay_eq_zero {postponeUntil now : ℕ} (h : postponeUntil ≤ now) :
    postponeDelay postponeUntil now = 0 :=
  if_neg (Nat.not_lt.mpr h)

/-- What is read fresh gives a bounded delay. -/
theorem Postponement.Current.bounded {s : Postponement} (h : s.Current) {tick : ℕ}
    (hfresh : ∀ st ∈ s.lastStore, st.Fresh tick s.time) :
    PublishDelay.Bounded
      ⟨postponeDelay s.mqttPublishPostponeUntil (tick % tickModulus), s.time,
        s.lastStore⟩ := by
  unfold PublishDelay.Bounded
  cases hlast : s.lastStore with
  | none =>
      rw [Postponement.Current, hlast] at h
      exact postponeDelay_eq_zero (by rw [h]; exact Nat.zero_le _)
  | some st =>
      rw [Postponement.Current, hlast] at h
      replace h : s.mqttPublishPostponeUntil = st.deadline % tickModulus := h
      rcases hfresh st hlast with hshown | ⟨hlt, hle, hrecent⟩
      · have hzero := postponeDelay_eq_zero hshown
        rw [← h] at hzero
        exact ⟨by rw [hzero]; exact Nat.zero_le _, fun _ => hzero⟩
      · refine ⟨h ▸ postponeDelay_le hlt hle, fun hpassed => ?_⟩
        exact absurd hpassed (Nat.not_le.mpr hrecent)

/-- The delays so far are bounded. -/
structure Postponement.Bounded (s : Postponement) : Prop where
  current : s.Current
  delays : ∀ d ∈ s.delays, d.Bounded

theorem Postponement.Bounded.step {s s' : Postponement} {a : PostponementAction}
    (h : s.Bounded) (hguard : FreshPostpone s a)
    (hs : postponement.step s a = some s') : s'.Bounded := by
  refine ⟨h.current.step hs, ?_⟩
  obtain ⟨-, -, heq⟩ | ⟨tick, -, -, -, heq⟩ | ⟨tick, rfl, hmqtt, -, -, heq⟩ :=
    postponement_step_cases hs
  · rw [heq]
    exact h.delays
  · rw [heq]
    exact h.delays
  · simp only [FreshPostpone, hmqtt] at hguard
    rw [heq]
    intro d hd
    rcases List.mem_append.mp hd with hd | hd
    · exact h.delays d hd
    · rw [List.mem_singleton] at hd
      rw [hd]
      exact h.current.bounded hguard

/-- Every delay is bounded in the runs in which the MQTT task never reads an
outdated deadline or one newer than its reading of the counter. -/
theorem publish_delays_bounded {s : Postponement}
    (h : postponement.ReachableVia FreshPostpone s) :
    ∀ d ∈ s.delays, d.Bounded := by
  have hinv : s.Bounded := by
    refine h.invariant ?_ fun s a s' hinv hguard hs => hinv.step hguard hs
    rintro s rfl
    exact ⟨rfl, by simp [postponementStart]⟩
  exact hinv.delays

/-- A large frame at `tick`, and publishes `later` ticks after it and again as
many ticks later. -/
def largeFrameAndPublish (tick later : ℕ) : List PostponementAction :=
  [.elapse tick, .frame 20001, .stream, .stream, .stream, .elapse later,
    .mqtt, .mqtt, .mqtt, .mqtt, .elapse later, .mqtt, .mqtt, .mqtt, .mqtt]

theorem publish_delays_bounded_large_frame : ∃ s : Postponement,
    postponement.ReachableVia FreshPostpone s ∧
      s.delays.map (fun d => d.ticks) = [50, 0] ∧ ∀ d ∈ s.delays, d.Bounded := by
  have hrun : (postponement.run postponementStart
      (largeFrameAndPublish 1000 150)).map
        (fun s => s.delays.map fun d => d.ticks) = some [50, 0] := by
    decide +kernel
  have hmeets : postponement.Meets FreshPostpone postponementStart
      (largeFrameAndPublish 1000 150) := by
    decide +kernel
  obtain ⟨s, hs, hticks⟩ := Option.map_eq_some_iff.mp hrun
  have hreach : postponement.ReachableVia FreshPostpone s :=
    (Machine.ReachableVia.init rfl).run _ hmeets hs
  exact ⟨s, hreach, hticks, publish_delays_bounded hreach⟩

/-- A deadline from before the counter wrapped: the publish waits 49 days. -/
theorem publish_postponed_for_weeks : ∃ s : Postponement,
    postponement.Reachable s ∧ ∃ d ∈ s.delays, d.ticks = 4294967190 ∧
      ¬ d.Bounded := by
  have hrun : (postponement.run postponementStart
      (largeFrameAndPublish 4294967000 306)).map
        (fun s => s.delays.head?) =
          some (some ⟨4294967190, 4294967306, some ⟨4294967200, 4294967000⟩⟩) := by
    decide +kernel
  obtain ⟨s, hs, hhead⟩ := Option.map_eq_some_iff.mp hrun
  refine ⟨s, Machine.reachable_of_run rfl _ hs, _, List.mem_of_mem_head? hhead, rfl, ?_⟩
  rintro ⟨hle, -⟩
  exact absurd hle (by decide)

end RtpMulticast
