import RtpMulticast.Support.Machine
import Mathlib.Data.BitVec

/-!
# The loop of `main_app`

Callbacks of the drivers set bits of one event group.  A round of the loop
takes the bits that are set, clears them, and looks at them one after the other.
The branch of `EVT_APP_WIFI_CONNECTED` asks for the state of the station and
starts the next round when the answer is not the expected one, so what the round
took and did not look at yet is gone.
-/

namespace RtpMulticast

/-! ## Events -/

inductive AppEvent where
  | button
  | bleConnected
  | bleDisconnected
  | bleConnectionParamUpdate
  | bleRead
  | bleWrite
  | bleServiceFound
  | bleCharFound
  | bleIndicationStatusEnabled
  | bleIndicationStatusDisabled
  | bleNotificationStatusEnabled
  | bleNotificationStatusDisabled
  | bleNotificationData
  | bleMtuSize
  | blePairingFailed
  | blePairingCompleted
  | blePairingConfirm
  | blePasskeyEntry
  | blePasskeyDisplayed
  | blePasskeyConfirm
  | blePairingCanceled
  | wifiConnected
  | wifiConnectionTimeout
  deriving DecidableEq, Repr

/-- The shift in the definition of the event. -/
def AppEvent.bit : AppEvent → ℕ
  | .button => 0
  | .bleConnected => 1
  | .bleDisconnected => 2
  | .bleConnectionParamUpdate => 3
  | .bleRead => 4
  | .bleWrite => 5
  | .bleServiceFound => 6
  | .bleCharFound => 7
  | .bleIndicationStatusEnabled => 8
  | .bleIndicationStatusDisabled => 9
  | .bleNotificationStatusEnabled => 10
  | .bleNotificationStatusDisabled => 11
  | .bleNotificationData => 12
  | .bleMtuSize => 13
  | .blePairingFailed => 14
  | .blePairingCompleted => 15
  | .blePairingConfirm => 16
  | .blePasskeyEntry => 17
  | .blePasskeyDisplayed => 18
  | .blePasskeyConfirm => 19
  | .blePairingCanceled => 20
  | .wifiConnected => 21
  | .wifiConnectionTimeout => 22

def AppEvent.mask (e : AppEvent) : BitVec 32 :=
  1#32 <<< e.bit

def isSet (eventBits : BitVec 32) (e : AppEvent) : Bool :=
  eventBits &&& e.mask != 0#32

/-- `EVT_APP_ALL_BIT`: every event but the button. -/
def evtAppAllBit : BitVec 32 :=
  AppEvent.mask .bleConnected ||| AppEvent.mask .bleDisconnected |||
  AppEvent.mask .bleConnectionParamUpdate ||| AppEvent.mask .bleRead |||
  AppEvent.mask .bleWrite ||| AppEvent.mask .bleServiceFound |||
  AppEvent.mask .bleCharFound ||| AppEvent.mask .bleIndicationStatusEnabled |||
  AppEvent.mask .bleIndicationStatusDisabled |||
  AppEvent.mask .bleNotificationStatusEnabled |||
  AppEvent.mask .bleNotificationStatusDisabled |||
  AppEvent.mask .bleNotificationData ||| AppEvent.mask .bleMtuSize |||
  AppEvent.mask .blePairingFailed ||| AppEvent.mask .blePairingCompleted |||
  AppEvent.mask .blePairingConfirm ||| AppEvent.mask .blePasskeyEntry |||
  AppEvent.mask .blePasskeyDisplayed ||| AppEvent.mask .blePasskeyConfirm |||
  AppEvent.mask .blePairingCanceled ||| AppEvent.mask .wifiConnected |||
  AppEvent.mask .wifiConnectionTimeout

/-! ## One round -/

/-- The functions that the loop calls. -/
inductive MainCall where
  | processPendingButton
  | processNotificationEnabled
  | processWrite
  | stationGetState
  | notifyWifiConnected
  | ensureDnsServers
  | mqttStart
  | rtpStreamStart
  | notifyWifiConnectionTimeout
  | processPasskeyEntry
  | processPasskeyConfirm
  | processPairingConfirm
  | processPairingCompleted
  | bleAdvStart
  deriving DecidableEq, Repr

/-- `W6X_WiFi_StaStateType_e`. -/
inductive StaState where
  | noStartedConnection
  | connected
  | gotIp
  | connecting
  | disconnected
  | off
  deriving DecidableEq, Repr

/-- Answer of `W6X_WiFi_Station_GetState`: whether it is `W6X_STATUS_OK`, and
the state it stored. -/
structure StaAnswer where
  ok : Bool
  state : StaState
  deriving DecidableEq, Repr

/-- The station is connected, and the call says so. -/
def StaAnswer.connected (answer : StaAnswer) : Prop :=
  answer.ok = true ∧ answer.state = .connected

instance (answer : StaAnswer) : Decidable answer.connected :=
  inferInstanceAs (Decidable (_ ∧ _))

/-- A branch of the loop on one event. -/
def whenSet (eventBits : BitVec 32) (e : AppEvent) (calls : List MainCall) :
    List MainCall :=
  if isSet eventBits e then calls else []

/-- The branches after the one of `EVT_APP_WIFI_CONNECTED`. -/
def mainAppRest (eventBits : BitVec 32) : List MainCall :=
  whenSet eventBits .wifiConnectionTimeout [.notifyWifiConnectionTimeout] ++
  whenSet eventBits .blePasskeyEntry [.processPasskeyEntry] ++
  whenSet eventBits .blePasskeyConfirm [.processPasskeyConfirm] ++
  whenSet eventBits .blePairingConfirm [.processPairingConfirm] ++
  whenSet eventBits .blePairingCompleted [.processPairingCompleted] ++
  whenSet eventBits .bleDisconnected [.bleAdvStart]

/-- The branch of `EVT_APP_WIFI_CONNECTED` and what follows it. -/
def mainAppWifiConnected (eventBits : BitVec 32) (answer : StaAnswer) :
    List MainCall :=
  if isSet eventBits .wifiConnected then
    .stationGetState ::
      (if answer.ok = false then
        -- `continue`: the state could not be read
        []
      else if answer.state ≠ .connected then
        -- `continue`: the state is another one
        []
      else
        [.notifyWifiConnected, .ensureDnsServers, .mqttStart, .rtpStreamStart] ++
          mainAppRest eventBits)
  else mainAppRest eventBits

/-- What the loop calls in the round that took `eventBits`. -/
def mainAppRound (eventBits : BitVec 32) (answer : StaAnswer) : List MainCall :=
  [.processPendingButton] ++
  whenSet eventBits .bleNotificationStatusEnabled [.processNotificationEnabled] ++
  whenSet eventBits .bleRead [] ++
  whenSet eventBits .bleWrite [.processWrite] ++
  mainAppWifiConnected eventBits answer

/-- The call that handles an event.  Reading needs none; the other events are
taken and left alone. -/
def AppEvent.handler : AppEvent → Option MainCall
  | .bleNotificationStatusEnabled => some .processNotificationEnabled
  | .bleWrite => some .processWrite
  | .wifiConnected => some .stationGetState
  | .wifiConnectionTimeout => some .notifyWifiConnectionTimeout
  | .blePasskeyEntry => some .processPasskeyEntry
  | .blePasskeyConfirm => some .processPasskeyConfirm
  | .blePairingConfirm => some .processPairingConfirm
  | .blePairingCompleted => some .processPairingCompleted
  | .bleDisconnected => some .bleAdvStart
  | _ => none

/-- The events looked at after `EVT_APP_WIFI_CONNECTED`. -/
def AppEvent.late : AppEvent → Bool
  | .wifiConnectionTimeout => true
  | .blePasskeyEntry => true
  | .blePasskeyConfirm => true
  | .blePairingConfirm => true
  | .blePairingCompleted => true
  | .bleDisconnected => true
  | _ => false

section Round

variable {eventBits : BitVec 32} {answer : StaAnswer} {e : AppEvent}
  {c : MainCall} {calls : List MainCall}

@[simp] theorem mem_whenSet :
    c ∈ whenSet eventBits e calls ↔ isSet eventBits e = true ∧ c ∈ calls := by
  unfold whenSet
  split <;> simp_all

/-- The late events have their handlers among the last branches. -/
theorem handler_mem_mainAppRest (hlate : e.late = true)
    (hc : e.handler = some c) (hset : isSet eventBits e = true) :
    c ∈ mainAppRest eventBits := by
  cases e <;> simp only [AppEvent.late, Bool.false_eq_true] at hlate <;>
    simp only [AppEvent.handler, Option.some.injEq] at hc <;>
    subst hc <;> simp [mainAppRest, hset]

/-- The handler of a late event runs nowhere else. -/
theorem mem_mainAppRound_of_late (hlate : e.late = true)
    (hc : e.handler = some c) (hmem : c ∈ mainAppRound eventBits answer) :
    c ∈ mainAppRest eventBits ∧
      (isSet eventBits .wifiConnected = true → answer.connected) := by
  have hwifi : c ∈ mainAppWifiConnected eventBits answer := by
    simp only [mainAppRound, List.mem_append, mem_whenSet, List.mem_singleton,
      List.not_mem_nil, and_false, or_false] at hmem
    cases e <;> simp only [AppEvent.late, Bool.false_eq_true] at hlate <;>
      simp only [AppEvent.handler, Option.some.injEq] at hc <;>
      subst hc <;> simpa using hmem
  have hother : c ≠ .stationGetState ∧
      c ∉ [MainCall.notifyWifiConnected, .ensureDnsServers, .mqttStart,
        .rtpStreamStart] := by
    cases e <;> simp only [AppEvent.late, Bool.false_eq_true] at hlate <;>
      simp only [AppEvent.handler, Option.some.injEq] at hc <;>
      subst hc <;> decide
  unfold mainAppWifiConnected at hwifi
  by_cases hset : isSet eventBits .wifiConnected = true
  · rw [if_pos hset, List.mem_cons] at hwifi
    have hwifi := hwifi.resolve_left hother.1
    by_cases hok : answer.ok = false
    · simp [hok] at hwifi
    · by_cases hstate : answer.state = .connected
      · rw [if_neg hok, if_neg (not_not.mpr hstate), List.mem_append] at hwifi
        refine ⟨hwifi.resolve_left hother.2, fun _ => ⟨?_, hstate⟩⟩
        simpa using hok
      · simp [hok, hstate] at hwifi
  · rw [if_neg hset] at hwifi
    exact ⟨hwifi, fun h => absurd h hset⟩

/-- A round that reaches its last branches runs them. -/
theorem mainAppRest_subset
    (hreach : isSet eventBits .wifiConnected = true → answer.connected)
    (hc : c ∈ mainAppRest eventBits) : c ∈ mainAppRound eventBits answer := by
  refine List.mem_append_right _ ?_
  unfold mainAppWifiConnected
  by_cases hset : isSet eventBits .wifiConnected = true
  · obtain ⟨hok, hstate⟩ := hreach hset
    rw [if_pos hset, if_neg (by simp [hok]), if_neg (not_not.mpr hstate)]
    exact List.mem_cons_of_mem _ (List.mem_append_right _ hc)
  · rwa [if_neg hset]

/-- The events that are not late are always looked at. -/
theorem handler_mem_of_not_late (hlate : e.late = false)
    (hc : e.handler = some c) (hset : isSet eventBits e = true) :
    c ∈ mainAppRound eventBits answer := by
  cases e <;> simp only [AppEvent.late, Bool.true_eq_false] at hlate <;>
    simp only [AppEvent.handler, reduceCtorEq, Option.some.injEq] at hc <;>
    subst hc <;> simp [mainAppRound, mainAppWifiConnected, hset]

end Round

/-! ## Runs -/

/-- A round that is over: what it took, the answer it got if it asked, and its
calls. -/
structure MainRound where
  eventBits : BitVec 32
  answer : StaAnswer
  calls : List MainCall
  deriving DecidableEq, Repr

/-- Every event taken was handled. -/
def MainRound.Handled (r : MainRound) : Prop :=
  ∀ e c, AppEvent.handler e = some c → isSet r.eventBits e = true → c ∈ r.calls

/-- The round took `EVT_APP_WIFI_CONNECTED` together with a later event, and the
station was not connected. -/
def MainRound.Drops (r : MainRound) : Prop :=
  isSet r.eventBits .wifiConnected = true ∧ ¬ r.answer.connected ∧
    ∃ e, AppEvent.late e = true ∧ isSet r.eventBits e = true

/-- The event group, and the rounds so far, the last one first. -/
structure MainApp where
  appEvt : BitVec 32
  rounds : List MainRound
  deriving DecidableEq, Repr

inductive MainAppAction where
  /-- Some task or callback sets an event. -/
  | setEvent (e : AppEvent)
  /-- A round, with the answer to its query if it makes one. -/
  | round (answer : StaAnswer)
  deriving DecidableEq, Repr

/-- `xEventGroupWaitBits` returns the whole group and clears the bits it waited
for; this is also what it does to the other bits after 50 ms without any. -/
def MainApp.step (s : MainApp) : MainAppAction → Option MainApp
  | .setEvent e => some { s with appEvt := s.appEvt ||| e.mask }
  | .round answer =>
      some ⟨s.appEvt &&& ~~~ evtAppAllBit,
        ⟨s.appEvt, answer, mainAppRound s.appEvt answer⟩ :: s.rounds⟩

def mainApp : Machine MainApp MainAppAction where
  init s := s = ⟨0, []⟩
  step := MainApp.step

/-- The calls of a round follow from what it took and was answered. -/
def MainApp.Logged (s : MainApp) : Prop :=
  ∀ r ∈ s.rounds, r.calls = mainAppRound r.eventBits r.answer

theorem MainApp.Logged.step {s s' : MainApp} {a : MainAppAction} (h : s.Logged)
    (hs : mainApp.step s a = some s') : s'.Logged := by
  cases a with
  | setEvent e =>
      simp only [mainApp, MainApp.step, Option.some.injEq] at hs
      subst hs
      exact h
  | round answer =>
      simp only [mainApp, MainApp.step, Option.some.injEq] at hs
      subst hs
      exact List.forall_mem_cons.mpr ⟨rfl, h⟩

theorem mainApp_logged {s : MainApp} (h : mainApp.Reachable s) : s.Logged := by
  refine h.invariant ?_ fun s a s' hinv _ hs => hinv.step hs
  rintro s rfl r hr
  cases hr

/-- A round handles what it took unless it drops something. -/
theorem handled_iff_not_drops {r : MainRound}
    (hcalls : r.calls = mainAppRound r.eventBits r.answer) :
    r.Handled ↔ ¬ r.Drops := by
  constructor
  · rintro hhandled ⟨hwifi, hanswer, e, hlate, hset⟩
    obtain ⟨c, hc⟩ : ∃ c, e.handler = some c := by
      cases e <;> simp [AppEvent.late] at hlate <;> exact ⟨_, rfl⟩
    have hmem := hhandled e c hc hset
    rw [hcalls] at hmem
    exact hanswer ((mem_mainAppRound_of_late hlate hc hmem).2 hwifi)
  · intro hnot e c hc hset
    rw [hcalls]
    cases hlate : e.late with
    | false => exact handler_mem_of_not_late hlate hc hset
    | true =>
        refine mainAppRest_subset (fun hwifi => ?_)
          (handler_mem_mainAppRest hlate hc hset)
        by_contra hanswer
        exact hnot ⟨hwifi, hanswer, e, hlate, hset⟩

/-- In every run, the rounds handle all they took exactly when none of them finds
the station not connected while it still has a later event to look at. -/
theorem rounds_handled_iff {s : MainApp} (h : mainApp.Reachable s) :
    (∀ r ∈ s.rounds, r.Handled) ↔ ∀ r ∈ s.rounds, ¬ r.Drops :=
  forall₂_congr fun r hr => handled_iff_not_drops (mainApp_logged h r hr)

/-- The connection over Wi-Fi and the end of the one over BLE, taken together;
`answer` is what the station says then. -/
def connectedAndDisconnected (answer : StaAnswer) : List MainAppAction :=
  [.setEvent .wifiConnected, .setEvent .bleDisconnected, .round answer]

theorem rounds_handled_connected : ∃ s : MainApp, mainApp.Reachable s ∧
    s.rounds.length = 1 ∧ ∀ r ∈ s.rounds, r.Handled := by
  have hrun : (mainApp.run ⟨0, []⟩
      (connectedAndDisconnected ⟨true, .connected⟩)).map
        (fun s => s.rounds.map fun r => r.answer) =
          some [⟨true, .connected⟩] := by
    decide +kernel
  obtain ⟨s, hs, hanswers⟩ := Option.map_eq_some_iff.mp hrun
  have hreach := Machine.reachable_of_run rfl _ hs
  refine ⟨s, hreach, ?_, (rounds_handled_iff hreach).mpr ?_⟩
  · simpa using congrArg List.length hanswers
  · rintro r hr ⟨-, hnot, -⟩
    have hanswer : r.answer ∈ s.rounds.map fun r => r.answer :=
      List.mem_map_of_mem hr
    rw [hanswers, List.mem_singleton] at hanswer
    rw [hanswer] at hnot
    exact hnot ⟨rfl, rfl⟩

/-- The end of the connection is taken and never handled: advertising does not
start again. -/
theorem disconnection_dropped : ∃ s : MainApp, mainApp.Reachable s ∧
    ∃ r ∈ s.rounds, isSet r.eventBits .bleDisconnected = true ∧
      MainCall.bleAdvStart ∉ r.calls ∧ isSet s.appEvt .bleDisconnected = false := by
  have hrun : (mainApp.run ⟨0, []⟩
      (connectedAndDisconnected ⟨true, .disconnected⟩)).map
      (fun s => (s.appEvt, s.rounds.map fun r => (r.eventBits, r.calls))) =
        some (0, [(2097156, [.processPendingButton, .stationGetState])]) := by
    decide +kernel
  obtain ⟨s, hs, heq⟩ := Option.map_eq_some_iff.mp hrun
  obtain ⟨hevt, hrounds⟩ := Prod.mk.inj heq
  obtain ⟨r, rs, hr, hentry, -⟩ := List.map_eq_cons_iff.mp hrounds
  obtain ⟨hbits, hcalls⟩ := Prod.mk.inj hentry
  refine ⟨s, Machine.reachable_of_run rfl _ hs, r, ?_, ?_, ?_, ?_⟩
  · rw [hr]
    exact List.mem_cons_self
  · rw [hbits]
    decide
  · rw [hcalls]
    decide
  · rw [hevt]
    decide

end RtpMulticast
