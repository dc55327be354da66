import RtpMulticast.Support.Machine
import Mathlib.Data.List.Basic

/-!
# Writes to the control characteristic

The driver copies the payload of a BLE write into `ble_available_data` and calls
`BLE_COMM_APP_HandleBleEvent`, which stores the indices and the length in
`app_ble_params` and sets `EVT_APP_BLE_WRITE`.  The main task takes the event in
its loop and reads all this back in `BLE_COMM_APP_ProcessWrite`, one access
after the other.  Nothing keeps the next write away until it has.

The state carries two records that the program does not have: the writes in the
order of their arrival, and the actions that the main task ran.
-/

namespace RtpMulticast

/-! ## Writes and actions -/

/-- `sizeof(ble_available_data)`; the driver refuses longer payloads. -/
def bleAvailableDataSize : ℕ := 247

/-- `WIFI_COMMISSIONING_SERVICE_INDEX`. -/
def wifiCommissioningServiceIndex : UInt8 := 0

/-- `WIFI_CONTROL_CHAR_INDEX`. -/
def wifiControlCharIndex : UInt8 := 0

/-- `WIFI_CONFIGURE_CHAR_INDEX`. -/
def wifiConfigureCharIndex : UInt8 := 1

/-- A `W6X_BLE_EVT_WRITE` event. -/
structure BleWrite where
  connHandle : UInt8
  serviceIdx : UInt8
  characIdx : UInt8
  payload : List UInt8
  fits : payload.length ≤ bleAvailableDataSize
  deriving DecidableEq

/-- What `BLE_COMM_APP_ProcessWrite` does for an opcode; the last one is the
warning about an opcode that it does not know. -/
inductive ControlAction where
  | startScan
  | connect
  | disconnect
  | ping
  | unknown (opcode : UInt8)
  deriving DecidableEq, Repr

def controlAction (opcode : UInt8) : ControlAction :=
  if opcode = 1 then .startScan
  else if opcode = 3 then .connect
  else if opcode = 4 then .disconnect
  else if opcode = 5 then .ping
  else .unknown opcode

/-- A write to the Wi-Fi control characteristic. -/
def BleWrite.IsControl (w : BleWrite) : Prop :=
  w.serviceIdx = wifiCommissioningServiceIndex ∧
    w.characIdx = wifiControlCharIndex

instance (w : BleWrite) : Decidable w.IsControl :=
  inferInstanceAs (Decidable (_ ∧ _))

/-- The action that a write asks for. -/
def BleWrite.action (w : BleWrite) : Option ControlAction :=
  if w.IsControl then w.payload.head?.map controlAction else none

/-- The actions that a sequence of writes asks for. -/
def controlActions (ws : List BleWrite) : List ControlAction :=
  ws.filterMap BleWrite.action

theorem BleWrite.action_of_not_control {w : BleWrite} (h : ¬ w.IsControl) :
    w.action = none :=
  if_neg h

theorem controlActions_concat (ws : List BleWrite) (w : BleWrite) :
    controlActions (ws ++ [w]) = controlActions ws ++ w.action.toList := by
  unfold controlActions
  rw [List.filterMap_append]
  cases h : w.action <;> simp [h]

/-- A write that is no control write adds no action. -/
theorem controlActions_concat_of_not_control (ws : List BleWrite) {w : BleWrite}
    (h : ¬ w.IsControl) : controlActions (ws ++ [w]) = controlActions ws := by
  rw [controlActions_concat, BleWrite.action_of_not_control h]
  exact List.append_nil _

/-! ## Shared data -/

/-- The fields of `app_ble_params` that a write stores. -/
structure AppBleParams where
  connHandle : UInt8
  serviceIdx : UInt8
  characIdx : UInt8
  availableDataLength : ℕ
  deriving DecidableEq, Repr

/-- The credentials in `wifi_connect_opts`, up to the NUL byte. -/
structure WifiConnectOpts where
  ssid : List UInt8
  password : List UInt8
  deriving DecidableEq, Repr

/-- `W6X_WIFI_MAX_SSID_SIZE`. -/
def wifiMaxSsidSize : ℕ := 32

/-- `W6X_WIFI_MAX_PASSWORD_SIZE`. -/
def wifiMaxPasswordSize : ℕ := 63

/-- The bytes copied behind the type byte. -/
def copyCredential (data : List UInt8) (length max : ℕ) : List UInt8 :=
  (data.drop 1).take (min (length - 1) max)

/-- The branch of the callback for the configure characteristic; `none` stands
for its `break`s. -/
def bleConfigure (opts : WifiConnectOpts) (data : List UInt8) (length : ℕ) :
    Option WifiConnectOpts :=
  if length < 1 then none
  else if data.headD 0 = 1 then
    if length ≤ 1 then none
    else some { opts with ssid := copyCredential data length wifiMaxSsidSize }
  else if data.headD 0 = 2 then
    if length ≤ 1 then none
    else some { opts with password := copyCredential data length wifiMaxPasswordSize }
  else some opts

/-- The next access of `BLE_COMM_APP_HandleBleEvent`. -/
inductive BleCallbackPlace where
  | idle
  | storeConn (w : BleWrite)
  | storeService (w : BleWrite)
  | storeCharac (w : BleWrite)
  | storeLength (w : BleWrite)
  | configure (w : BleWrite)
  | setEvent (w : BleWrite)
  deriving DecidableEq

/-- The comparisons of `ble_available_data[0]`, and the warning after them. -/
inductive ControlCheck where
  | startScan
  | connect
  | disconnect
  | ping
  | other
  deriving DecidableEq, Repr

/-- The next access of the main task; `acting` is the time it needs for the
action, up to the end of a scan. -/
inductive BleMainPlace where
  | wait
  | service
  | charac
  | length
  | check (k : ControlCheck)
  | acting
  deriving DecidableEq, Repr

/-- The main task is between the wait that returned the event and its last
access to what the callback stored. -/
def BleMainPlace.reads : BleMainPlace → Bool
  | .wait => false
  | .acting => false
  | _ => true

structure BleControl where
  evtWrite : Bool
  data : List UInt8
  params : AppBleParams
  opts : WifiConnectOpts
  callback : BleCallbackPlace
  main : BleMainPlace
  arrived : List BleWrite
  executed : List ControlAction
  deriving DecidableEq

inductive BleControlAction where
  /-- The driver copies a payload and calls the callback. -/
  | arrive (w : BleWrite)
  /-- The callback goes on. -/
  | callback
  /-- The main task goes on. -/
  | main
  deriving DecidableEq

/-! ## Steps -/

/-- `memcpy` of the payload over the old bytes. -/
def BleControl.arrive (s : BleControl) (w : BleWrite) : Option BleControl :=
  match s.callback with
  | .idle =>
      some { s with
        data := w.payload ++ s.data.drop w.payload.length
        callback := .storeConn w
        arrived := s.arrived ++ [w] }
  | _ => none

def BleControl.stepCallback (s : BleControl) : Option BleControl :=
  match s.callback with
  | .idle => none
  | .storeConn w =>
      some { s with
        params := { s.params with connHandle := w.connHandle }
        callback := .storeService w }
  | .storeService w =>
      some { s with
        params := { s.params with serviceIdx := w.serviceIdx }
        callback := .storeCharac w }
  | .storeCharac w =>
      some { s with
        params := { s.params with characIdx := w.characIdx }
        callback := .storeLength w }
  | .storeLength w =>
      some { s with
        params := { s.params with availableDataLength := w.payload.length }
        callback := .configure w }
  | .configure w =>
      if s.params.serviceIdx = wifiCommissioningServiceIndex ∧
          s.params.characIdx = wifiConfigureCharIndex then
        match bleConfigure s.opts s.data s.params.availableDataLength with
        -- `break`: the event is not set
        | none => some { s with callback := .idle }
        | some opts => some { s with opts, callback := .setEvent w }
      else some { s with callback := .setEvent w }
  | .setEvent _ => some { s with evtWrite := true, callback := .idle }

/-- The comparison `k`, each with its own read of the first byte. -/
def BleControl.check (s : BleControl) : ControlCheck → BleControl
  | .startScan =>
      if s.data.headD 0 = 1 then
        { s with main := .acting, executed := s.executed ++ [.startScan] }
      else { s with main := .check .connect }
  | .connect =>
      if s.data.headD 0 = 3 then
        { s with main := .acting, executed := s.executed ++ [.connect] }
      else { s with main := .check .disconnect }
  | .disconnect =>
      if s.data.headD 0 = 4 then
        { s with main := .acting, executed := s.executed ++ [.disconnect] }
      else { s with main := .check .ping }
  | .ping =>
      if s.data.headD 0 = 5 then
        { s with main := .acting, executed := s.executed ++ [.ping] }
      else { s with main := .check .other }
  | .other =>
      { s with
        main := .acting
        executed := s.executed ++ [.unknown (s.data.headD 0)] }

/-- The wait, `BLE_COMM_APP_ProcessWrite`, and the way back to the wait.  A wait
without the event leaves everything as it is and is not a step. -/
def BleControl.stepMain (s : BleControl) : Option BleControl :=
  match s.main with
  | .wait => if s.evtWrite then some { s with evtWrite := false, main := .service } else none
  | .service =>
      if s.params.serviceIdx = wifiCommissioningServiceIndex then
        some { s with main := .charac }
      else some { s with main := .wait }
  | .charac =>
      if s.params.characIdx = wifiControlCharIndex then
        some { s with main := .length }
      else some { s with main := .wait }
  | .length =>
      if s.params.availableDataLength < 1 then some { s with main := .wait }
      else some { s with main := .check .startScan }
  | .check k => some (s.check k)
  | .acting => some { s with main := .wait }

def BleControl.step (s : BleControl) : BleControlAction → Option BleControl
  | .arrive w => s.arrive w
  | .callback => s.stepCallback
  | .main => s.stepMain

/-- `app_ble_params` as it is initialised. -/
def bleControlStart : BleControl where
  evtWrite := false
  data := List.replicate bleAvailableDataSize 0
  params := ⟨0, 0, 0, 0⟩
  opts := ⟨[], []⟩
  callback := .idle
  main := .wait
  arrived := []
  executed := []

def bleControl : Machine BleControl BleControlAction where
  init s := s = bleControlStart
  step := BleControl.step

/-! ## Overlapping writes -/

/-- A write is waiting to be taken, or is being read. -/
def BleControl.Outstanding (s : BleControl) : Prop :=
  s.evtWrite = true ∨ s.main.reads = true

instance (s : BleControl) : Decidable s.Outstanding :=
  inferInstanceAs (Decidable (_ ∨ _))

/-- Whatever the main task reads of the stored indices and of those of `w`, it
does not take them for the indices of the control characteristic. -/
def BleControl.Apart (s : BleControl) (w : BleWrite) : Prop :=
  ((s.params.serviceIdx ≠ wifiCommissioningServiceIndex ∧
      w.serviceIdx ≠ wifiCommissioningServiceIndex) ∨
    (s.params.characIdx ≠ wifiControlCharIndex ∧
      w.characIdx ≠ wifiControlCharIndex)) ∧
  (s.main = .charac → w.characIdx ≠ wifiControlCharIndex)

instance (s : BleControl) (w : BleWrite) : Decidable (s.Apart w) :=
  inferInstanceAs (Decidable (_ ∧ _))

/-- A write arrives after the earlier ones were dealt with, or has nothing to do
with control, like those before it. -/
def OrderlyArrival (s : BleControl) : BleControlAction → Prop
  | .arrive w => ¬ s.Outstanding ∨ s.Apart w
  | _ => True

instance : (s : BleControl) → (a : BleControlAction) →
    Decidable (OrderlyArrival s a)
  | s, .arrive w => inferInstanceAs (Decidable (¬ s.Outstanding ∨ s.Apart w))
  | _, .callback => isTrue trivial
  | _, .main => isTrue trivial

/-! ## The invariant -/

/-- The write that the callback is storing. -/
def BleCallbackPlace.inStore : BleCallbackPlace → Option BleWrite
  | .idle => none
  | .storeConn w => some w
  | .storeService w => some w
  | .storeCharac w => some w
  | .storeLength w => some w
  | .configure w => some w
  | .setEvent w => some w

/-- The service index that the callback is going to store. -/
def BleCallbackPlace.nextService : BleCallbackPlace → Option UInt8
  | .storeConn w => some w.serviceIdx
  | .storeService w => some w.serviceIdx
  | _ => none

/-- The characteristic index that the callback is going to store. -/
def BleCallbackPlace.nextCharac : BleCallbackPlace → Option UInt8
  | .storeConn w => some w.characIdx
  | .storeService w => some w.characIdx
  | .storeCharac w => some w.characIdx
  | _ => none

/-- What the callback has stored so far. -/
def BleControl.Stored (s : BleControl) : Prop :=
  match s.callback with
  | .idle => True
  | .storeConn w => w.payload <+: s.data
  | .storeService w => w.payload <+: s.data
  | .storeCharac w =>
      w.payload <+: s.data ∧ s.params.serviceIdx = w.serviceIdx
  | .storeLength w =>
      w.payload <+: s.data ∧ s.params.serviceIdx = w.serviceIdx ∧
        s.params.characIdx = w.characIdx
  | .configure w =>
      w.payload <+: s.data ∧ s.params.serviceIdx = w.serviceIdx ∧
        s.params.characIdx = w.characIdx ∧
        s.params.availableDataLength = w.payload.length
  | .setEvent w =>
      w.payload <+: s.data ∧ s.params.serviceIdx = w.serviceIdx ∧
        s.params.characIdx = w.characIdx ∧
        s.params.availableDataLength = w.payload.length

/-- The main task does not find the control characteristic, however its reads
fall between the stores. -/
structure BleControl.Harmless (s : BleControl) : Prop where
  apart :
    (s.params.serviceIdx ≠ wifiCommissioningServiceIndex ∧
      ∀ x ∈ s.callback.nextService, x ≠ wifiCommissioningServiceIndex) ∨
    (s.params.characIdx ≠ wifiControlCharIndex ∧
      ∀ x ∈ s.callback.nextCharac, x ≠ wifiControlCharIndex)
  charac : s.main = .charac →
    s.params.characIdx ≠ wifiControlCharIndex ∧
      ∀ x ∈ s.callback.nextCharac, x ≠ wifiControlCharIndex

/-- No control write is outstanding; the callback has dealt with `done`. -/
structure BleControl.Quiet (s : BleControl) (done : List BleWrite) : Prop where
  arrived : s.arrived = done ++ s.callback.inStore.toList
  executed : s.executed = controlActions done
  harmless : s.Outstanding → s.Harmless
  place : s.main ≠ .length ∧ ∀ k, s.main ≠ .check k
  stored : s.Stored

/-- The comparisons before `k` failed for `opcode`. -/
def ControlCheck.Reached (opcode : UInt8) : ControlCheck → Prop
  | .startScan => True
  | .connect => opcode ≠ 1
  | .disconnect => opcode ≠ 1 ∧ opcode ≠ 3
  | .ping => opcode ≠ 1 ∧ opcode ≠ 3 ∧ opcode ≠ 4
  | .other => opcode ≠ 1 ∧ opcode ≠ 3 ∧ opcode ≠ 4 ∧ opcode ≠ 5

/-- The control write `w` is outstanding, and all that it stored is there. -/
structure BleControl.Pending (s : BleControl) (done : List BleWrite)
    (w : BleWrite) : Prop where
  arrived : s.arrived = done ++ [w]
  executed : s.executed = controlActions done
  idle : s.callback = .idle
  control : w.IsControl
  data : w.payload <+: s.data
  service : s.params.serviceIdx = w.serviceIdx
  charac : s.params.characIdx = w.characIdx
  length : s.params.availableDataLength = w.payload.length
  place : (s.evtWrite = true ∧ s.main.reads = false) ∨
    (s.evtWrite = false ∧ s.main.reads = true)
  check : ∀ k, s.main = .check k →
    w.payload ≠ [] ∧ k.Reached (s.data.headD 0)

def BleControl.Sound (s : BleControl) : Prop :=
  ∃ done, s.Quiet done ∨ ∃ w, s.Pending done w

section Steps

variable {s s' : BleControl} {done : List BleWrite} {w : BleWrite}

/-- A write that arrives while none is outstanding, or apart from those. -/
theorem BleControl.Quiet.arrive (h : s.Quiet done)
    (hguard : OrderlyArrival s (.arrive w)) (hs : s.arrive w = some s') :
    s'.Quiet done := by
  unfold BleControl.arrive at hs
  cases hidle : s.callback <;> simp only [hidle, reduceCtorEq] at hs
  simp only [Option.some.injEq] at hs
  subst hs
  have harrived : s.arrived = done := by
    simpa [hidle, BleCallbackPlace.inStore] using h.arrived
  refine ⟨?_, h.executed, ?_, h.place, List.prefix_append _ _⟩
  · simp [harrived, BleCallbackPlace.inStore]
  · intro hout
    have hapart : s.Apart w := hguard.resolve_left fun hnot => hnot hout
    refine ⟨?_, fun hmain => ⟨((h.harmless hout).charac hmain).1, ?_⟩⟩
    · rcases hapart.1 with ⟨hold, hnew⟩ | ⟨hold, hnew⟩
      · exact Or.inl ⟨hold, by simpa [BleCallbackPlace.nextService] using hnew⟩
      · exact Or.inr ⟨hold, by simpa [BleCallbackPlace.nextCharac] using hnew⟩
    · simpa [BleCallbackPlace.nextCharac] using hapart.2 hmain

/-- The options of a configure write are stored. -/
theorem BleControl.Quiet.configure (h : s.Quiet done) (hcb : s.callback = .configure w)
    (opts : WifiConnectOpts) :
    BleControl.Quiet { s with opts, callback := .setEvent w } done := by
  obtain ⟨harrived, hexec, hharm, hplace, hstored⟩ := h
  simp only [hcb, BleCallbackPlace.inStore] at harrived
  simp only [BleControl.Stored, hcb] at hstored
  refine ⟨harrived, hexec, fun hout => ?_, hplace, hstored⟩
  obtain ⟨hapart, hcharac⟩ := hharm hout
  simp only [hcb] at hapart hcharac
  exact ⟨hapart, hcharac⟩

/-- A configure write that does not set the event is no control write: there is
nothing to execute. -/
theorem BleControl.Quiet.leave (h : s.Quiet done) (hcb : s.callback = .configure w)
    (hconf : s.params.characIdx = wifiConfigureCharIndex) :
    BleControl.Quiet { s with callback := .idle } (done ++ [w]) := by
  obtain ⟨harrived, hexec, hharm, hplace, hstored⟩ := h
  simp only [hcb, BleCallbackPlace.inStore] at harrived
  simp only [BleControl.Stored, hcb] at hstored
  have hnot : ¬ w.IsControl := by
    rintro ⟨-, hcharac⟩
    rw [← hstored.2.2.1, hconf] at hcharac
    exact absurd hcharac (by decide)
  refine ⟨?_, ?_, fun hout => ?_, hplace, trivial⟩
  · simpa [BleCallbackPlace.inStore] using harrived
  · rw [controlActions_concat_of_not_control done hnot]
    exact hexec
  · obtain ⟨hapart, hcharac⟩ := hharm hout
    simp only [hcb] at hapart hcharac
    exact ⟨hapart, hcharac⟩

/-- The stored indices of a write that is no control write lead the main task to
nothing. -/
theorem BleControl.Harmless.setEvent (h : s.Outstanding → s.Harmless)
    (hservice : s.params.serviceIdx = w.serviceIdx)
    (hcharac : s.params.characIdx = w.characIdx) (hcontrol : ¬ w.IsControl) :
    BleControl.Harmless { s with evtWrite := true, callback := .idle } := by
  constructor
  · by_cases hserv : w.serviceIdx = wifiCommissioningServiceIndex
    · refine Or.inr ⟨fun heq => hcontrol ⟨hserv, hcharac.symm.trans heq⟩, ?_⟩
      simp [BleCallbackPlace.nextCharac]
    · refine Or.inl ⟨fun heq => hserv (hservice.symm.trans heq), ?_⟩
      simp [BleCallbackPlace.nextService]
  · intro hmain
    have hreads : s.main.reads = true := by
      change s.main = .charac at hmain
      rw [hmain]
      rfl
    have hold := (h (Or.inr hreads)).charac hmain
    refine ⟨hold.1, ?_⟩
    simp [BleCallbackPlace.nextCharac]

/-- The event makes a control write the outstanding one; any other write is dealt
with. -/
theorem BleControl.Quiet.setEvent (h : s.Quiet done) (hcb : s.callback = .setEvent w) :
    BleControl.Sound { s with evtWrite := true, callback := .idle } := by
  obtain ⟨harrived, hexec, hharm, hplace, hstored⟩ := h
  simp only [hcb, BleCallbackPlace.inStore] at harrived
  simp only [BleControl.Stored, hcb] at hstored
  obtain ⟨hdata, hservice, hcharac, hlength⟩ := hstored
  by_cases hcontrol : w.IsControl
  · have hnot : ¬ s.Outstanding := by
      intro hout
      obtain ⟨hservice', hcharac'⟩ := hcontrol
      rcases (hharm hout).apart with ⟨hne, -⟩ | ⟨hne, -⟩
      · exact hne (hservice.trans hservice')
      · exact hne (hcharac.trans hcharac')
    have hreads : s.main.reads = false := by
      cases hr : s.main.reads with
      | false => rfl
      | true => exact absurd (Or.inr hr) hnot
    exact ⟨done, Or.inr ⟨w, harrived, hexec, rfl, hcontrol, hdata, hservice,
      hcharac, hlength, Or.inl ⟨rfl, hreads⟩, fun k hk => absurd hk (hplace.2 k)⟩⟩
  · refine ⟨done ++ [w], Or.inl ⟨?_, ?_, fun _ => ?_, hplace, trivial⟩⟩
    · simpa [BleCallbackPlace.inStore] using harrived
    · rw [controlActions_concat_of_not_control done hcontrol]
      exact hexec
    · exact BleControl.Harmless.setEvent hharm hservice hcharac hcontrol

/-- The callback goes on; with its last step a control write becomes
outstanding. -/
theorem BleControl.Quiet.stepCallback (h : s.Quiet done)
    (hs : s.stepCallback = some s') : s'.Sound := by
  have ⟨harrived, hexec, hharm, hplace, hstored⟩ := h
  unfold BleControl.stepCallback at hs
  unfold BleControl.Stored at hstored
  cases hcb : s.callback with
  | idle => simp [hcb] at hs
  | storeConn w =>
      simp only [hcb, Option.some.injEq] at hs hstored
      simp only [hcb, BleCallbackPlace.inStore] at harrived
      subst hs
      refine ⟨done, Or.inl ⟨harrived, hexec, fun hout => ?_, hplace, hstored⟩⟩
      obtain ⟨hapart, hcharac⟩ := hharm hout
      simp only [hcb] at hapart hcharac
      exact ⟨hapart, hcharac⟩
  | storeService w =>
      simp only [hcb, Option.some.injEq] at hs hstored
      simp only [hcb, BleCallbackPlace.inStore] at harrived
      subst hs
      refine ⟨done, Or.inl ⟨harrived, hexec, fun hout => ?_, hplace, hstored, rfl⟩⟩
      obtain ⟨hapart, hcharac⟩ := hharm hout
      simp only [hcb] at hapart hcharac
      refine ⟨hapart.imp_left fun hnew => ⟨hnew.2 _ rfl, ?_⟩, hcharac⟩
      simp [BleCallbackPlace.nextService]
  | storeCharac w =>
      simp only [hcb, Option.some.injEq] at hs hstored
      simp only [hcb, BleCallbackPlace.inStore] at harrived
      subst hs
      refine ⟨done, Or.inl ⟨harrived, hexec, fun hout => ?_, hplace,
        hstored.1, hstored.2, rfl⟩⟩
      obtain ⟨hapart, hcharac⟩ := hharm hout
      simp only [hcb] at hapart hcharac
      refine ⟨hapart.imp_right fun hnew => ⟨hnew.2 _ rfl, ?_⟩,
        fun hmain => ⟨(hcharac hmain).2 _ rfl, ?_⟩⟩
      · simp [BleCallbackPlace.nextCharac]
      · simp [BleCallbackPlace.nextCharac]
  | storeLength w =>
      simp only [hcb, Option.some.injEq] at hs hstored
      simp only [hcb, BleCallbackPlace.inStore] at harrived
      subst hs
      refine ⟨done, Or.inl ⟨harrived, hexec, fun hout => ?_, hplace,
        hstored.1, hstored.2.1, hstored.2.2, rfl⟩⟩
      obtain ⟨hapart, hcharac⟩ := hharm hout
      simp only [hcb] at hapart hcharac
      exact ⟨hapart, hcharac⟩
  | configure w =>
      simp only [hcb] at hs
      split at hs
      · rename_i hconf
        cases hopts : bleConfigure s.opts s.data s.params.availableDataLength with
        | none =>
            simp only [hopts, Option.some.injEq] at hs
            subst hs
            exact ⟨done ++ [w], Or.inl (h.leave hcb hconf.2)⟩
        | some opts =>
            simp only [hopts, Option.some.injEq] at hs
            subst hs
            exact ⟨done, Or.inl (h.configure hcb opts)⟩
      · simp only [Option.some.injEq] at hs
        subst hs
        exact ⟨done, Or.inl (h.configure hcb s.opts)⟩
  | setEvent w =>
      simp only [hcb, Option.some.injEq] at hs
      subst hs
      exact h.setEvent hcb

/-- The main task goes on while no control write is outstanding. -/
theorem BleControl.Quiet.stepMain (h : s.Quiet done)
    (hs : s.stepMain = some s') : s'.Quiet done := by
  obtain ⟨harrived, hexec, hharm, hplace, hstored⟩ := h
  unfold BleControl.stepMain at hs
  cases hmain : s.main with
  | wait =>
      simp only [hmain, Option.ite_none_right_eq_some, Option.some.injEq] at hs
      obtain ⟨hevt, rfl⟩ := hs
      refine ⟨harrived, hexec, fun _ => ⟨(hharm (Or.inl hevt)).apart, ?_⟩, ?_, hstored⟩
      · intro hc
        cases hc
      · exact ⟨by simp, by simp⟩
  | service =>
      have hapart := (hharm (Or.inr (by rw [hmain]; rfl))).apart
      simp only [hmain] at hs
      split at hs
      · rename_i hservice
        simp only [Option.some.injEq] at hs
        subst hs
        have hcharac := hapart.resolve_left fun hne => hne.1 hservice
        exact ⟨harrived, hexec, fun _ => ⟨Or.inr hcharac, fun _ => hcharac⟩,
          ⟨by simp, by simp⟩, hstored⟩
      · simp only [Option.some.injEq] at hs
        subst hs
        exact ⟨harrived, hexec, fun _ => ⟨hapart, fun hc => by cases hc⟩,
          ⟨by simp, by simp⟩, hstored⟩
  | charac =>
      have hharm' := hharm (Or.inr (by rw [hmain]; rfl))
      simp only [hmain] at hs
      split at hs
      · rename_i hcharac
        exact absurd hcharac (hharm'.charac hmain).1
      · simp only [Option.some.injEq] at hs
        subst hs
        exact ⟨harrived, hexec, fun _ => ⟨hharm'.apart, fun hc => by cases hc⟩,
          ⟨by simp, by simp⟩, hstored⟩
  | length => exact absurd hmain hplace.1
  | check k => exact absurd hmain (hplace.2 k)
  | acting =>
      simp only [hmain, Option.some.injEq] at hs
      subst hs
      refine ⟨harrived, hexec, fun hout => ⟨(hharm ?_).apart, fun hc => by cases hc⟩,
        ⟨by simp, by simp⟩, hstored⟩
      exact hout.imp_right fun hr => by cases hr

/-- The byte that the main task reads is the one of the outstanding write. -/
theorem BleControl.Pending.action (h : s.Pending done w) (hne : w.payload ≠ []) :
    w.action = some (controlAction (s.data.headD 0)) := by
  obtain ⟨rest, hrest⟩ := h.data
  unfold BleWrite.action
  rw [if_pos h.control, ← hrest]
  cases hp : w.payload with
  | nil => exact absurd hp hne
  | cons b bs => rfl

theorem BleControl.Pending.evtWrite_eq (h : s.Pending done w)
    (hread : s.main.reads = true) : s.evtWrite = false := by
  rcases h.place with ⟨-, hr⟩ | ⟨hevt, -⟩
  · rw [hr] at hread
    cases hread
  · exact hevt

/-- The main task stops reading: the outstanding write is dealt with. -/
theorem BleControl.Pending.finish (h : s.Pending done w) {m : BleMainPlace}
    {executed : List ControlAction} (hread : s.main.reads = true)
    (hm : m.reads = false) (hexec : executed = s.executed ++ w.action.toList) :
    BleControl.Quiet { s with main := m, executed } (done ++ [w]) := by
  refine ⟨?_, ?_, fun hout => ?_, ⟨?_, ?_⟩, ?_⟩
  · simp [h.arrived, h.idle, BleCallbackPlace.inStore]
  · rw [controlActions_concat, ← h.executed]
    exact hexec
  · rcases hout with hout | hout
    · change s.evtWrite = true at hout
      rw [h.evtWrite_eq hread] at hout
      cases hout
    · change m.reads = true at hout
      rw [hm] at hout
      cases hout
  · rintro rfl
    cases hm
  · rintro k rfl
    cases hm
  · unfold BleControl.Stored
    rw [h.idle]
    trivial

/-- The main task goes on towards the action of the outstanding write. -/
theorem BleControl.Pending.advance (h : s.Pending done w) {m : BleMainPlace}
    (hread : s.main.reads = true) (hm : m.reads = true)
    (hcheck : ∀ k, m = .check k → w.payload ≠ [] ∧ k.Reached (s.data.headD 0)) :
    BleControl.Pending { s with main := m } done w :=
  ⟨h.arrived, h.executed, h.idle, h.control, h.data, h.service, h.charac,
    h.length, Or.inr ⟨h.evtWrite_eq hread, hm⟩, hcheck⟩

/-- One comparison of the outstanding opcode. -/
theorem BleControl.Pending.stepCheck (h : s.Pending done w) {k : ControlCheck}
    (hk : s.main = .check k) : (s.check k).Sound := by
  have hread : s.main.reads = true := by
    rw [hk]
    rfl
  obtain ⟨hne, hreached⟩ := h.check k hk
  have haction := h.action hne
  have hon : ∀ l : ControlCheck, l.Reached (s.data.headD 0) →
      BleControl.Sound { s with main := .check l } := by
    intro l hl
    refine ⟨done, Or.inr ⟨w, h.advance hread rfl ?_⟩⟩
    intro k' hk'
    cases hk'
    exact ⟨hne, hl⟩
  have hrun : ∀ c : ControlAction, controlAction (s.data.headD 0) = c →
      BleControl.Sound { s with main := .acting, executed := s.executed ++ [c] } :=
    fun c hc => ⟨done ++ [w], Or.inl (h.finish hread rfl (by rw [haction, hc]; rfl))⟩
  cases k with
  | startScan =>
      simp only [BleControl.check]
      split
      · rename_i hb
        exact hrun _ (by rw [hb]; rfl)
      · rename_i hb
        exact hon _ hb
  | connect =>
      simp only [BleControl.check]
      split
      · rename_i hb
        exact hrun _ (by rw [hb]; rfl)
      · rename_i hb
        exact hon _ ⟨hreached, hb⟩
  | disconnect =>
      simp only [BleControl.check]
      split
      · rename_i hb
        exact hrun _ (by rw [hb]; rfl)
      · rename_i hb
        exact hon _ ⟨hreached.1, hreached.2, hb⟩
  | ping =>
      simp only [BleControl.check]
      split
      · rename_i hb
        exact hrun _ (by rw [hb]; rfl)
      · rename_i hb
        exact hon _ ⟨hreached.1, hreached.2.1, hreached.2.2, hb⟩
  | other =>
      obtain ⟨h1, h3, h4, h5⟩ := hreached
      refine hrun _ ?_
      rw [controlAction, if_neg h1, if_neg h3, if_neg h4, if_neg h5]

/-- The main task goes on while a control write is outstanding. -/
theorem BleControl.Pending.stepMain (h : s.Pending done w)
    (hs : s.stepMain = some s') : s'.Sound := by
  unfold BleControl.stepMain at hs
  cases hmain : s.main with
  | wait =>
      simp only [hmain, Option.ite_none_right_eq_some, Option.some.injEq] at hs
      obtain ⟨-, rfl⟩ := hs
      exact ⟨done, Or.inr ⟨w, h.arrived, h.executed, h.idle, h.control, h.data,
        h.service, h.charac, h.length, Or.inr ⟨rfl, rfl⟩, by simp⟩⟩
  | service =>
      have hservice := h.service.trans h.control.1
      simp only [hmain, hservice, if_true, Option.some.injEq] at hs
      subst hs
      exact ⟨done, Or.inr ⟨w, h.advance (by rw [hmain]; rfl) rfl (by simp)⟩⟩
  | charac =>
      have hcharac := h.charac.trans h.control.2
      simp only [hmain, hcharac, if_true, Option.some.injEq] at hs
      subst hs
      exact ⟨done, Or.inr ⟨w, h.advance (by rw [hmain]; rfl) rfl (by simp)⟩⟩
  | length =>
      have hread : s.main.reads = true := by
        rw [hmain]
        rfl
      simp only [hmain, h.length] at hs
      split at hs
      · -- An empty payload asks for nothing.
        rename_i hlt
        simp only [Option.some.injEq] at hs
        subst hs
        have hnil : w.payload = [] := List.length_eq_zero_iff.mp (by omega)
        have haction : w.action = none := by
          rw [BleWrite.action, if_pos h.control, hnil]
          rfl
        refine ⟨done ++ [w], Or.inl (h.finish hread rfl ?_)⟩
        rw [haction]
        exact (List.append_nil _).symm
      · rename_i hlt
        simp only [Option.some.injEq] at hs
        subst hs
        refine ⟨done, Or.inr ⟨w, h.advance hread rfl ?_⟩⟩
        intro k hk
        cases hk
        refine ⟨?_, trivial⟩
        rintro hnil
        rw [hnil] at hlt
        exact hlt (by simp)
  | check k =>
      simp only [hmain, Option.some.injEq] at hs
      subst hs
      exact h.stepCheck hmain
  | acting =>
      have hevt : s.evtWrite = true := by
        rcases h.place with ⟨hevt, -⟩ | ⟨-, hr⟩
        · exact hevt
        · rw [hmain] at hr
          cases hr
      simp only [hmain, Option.some.injEq] at hs
      subst hs
      exact ⟨done, Or.inr ⟨w, h.arrived, h.executed, h.idle, h.control, h.data,
        h.service, h.charac, h.length, Or.inl ⟨hevt, rfl⟩, by simp⟩⟩

/-- No orderly write arrives while a control write is outstanding. -/
theorem BleControl.Pending.not_orderly (h : s.Pending done w) (v : BleWrite) :
    ¬ OrderlyArrival s (.arrive v) := by
  have hout : s.Outstanding := h.place.imp And.left And.right
  rintro (hnot | hapart)
  · exact hnot hout
  · rcases hapart.1 with ⟨hne, -⟩ | ⟨hne, -⟩
    · exact hne (h.service.trans h.control.1)
    · exact hne (h.charac.trans h.control.2)

theorem BleControl.Sound.step {a : BleControlAction} (h : s.Sound)
    (hguard : OrderlyArrival s a) (hs : bleControl.step s a = some s') :
    s'.Sound := by
  obtain ⟨done, hquiet | ⟨w, hpending⟩⟩ := h
  · cases a with
    | arrive v => exact ⟨done, Or.inl (hquiet.arrive hguard hs)⟩
    | callback => exact hquiet.stepCallback hs
    | main => exact ⟨done, Or.inl (hquiet.stepMain hs)⟩
  · cases a with
    | arrive v => exact absurd hguard (hpending.not_orderly v)
    | callback =>
        change s.stepCallback = some s' at hs
        simp [BleControl.stepCallback, hpending.idle] at hs
    | main => exact hpending.stepMain hs

end Steps

theorem sound_of_orderly {s : BleControl}
    (h : bleControl.ReachableVia OrderlyArrival s) : s.Sound := by
  refine h.invariant ?_ fun s a s' hinv hguard hs => hinv.step hguard hs
  rintro s rfl
  refine ⟨[], Or.inl ⟨rfl, rfl, fun hout => ?_, ⟨by decide, ?_⟩, trivial⟩⟩
  · exact absurd hout (by decide)
  · intro k hk
    cases hk

/-! ## Running on -/

/-- All writes that arrived were dealt with. -/
def BleControl.Settled (s : BleControl) : Prop :=
  s.callback = .idle ∧ s.evtWrite = false ∧ s.main = .wait

/-- Steps that the callback still has to take. -/
def BleCallbackPlace.left : BleCallbackPlace → ℕ
  | .idle => 0
  | .storeConn _ => 6
  | .storeService _ => 5
  | .storeCharac _ => 4
  | .storeLength _ => 3
  | .configure _ => 2
  | .setEvent _ => 1

/-- Steps that the main task still has to take before it waits again. -/
def BleMainPlace.left : BleMainPlace → ℕ
  | .wait => 0
  | .service => 10
  | .charac => 9
  | .length => 8
  | .check .startScan => 7
  | .check .connect => 6
  | .check .disconnect => 5
  | .check .ping => 4
  | .check .other => 3
  | .acting => 1

/-- A bound on the steps until everything is dealt with. -/
def BleControl.left (s : BleControl) : ℕ :=
  20 * s.callback.left + (if s.evtWrite then 12 else 0) + s.main.left

section Progress

variable {s s' : BleControl}

theorem stepCallback_left (hs : s.stepCallback = some s') :
    s'.left < s.left ∧ s'.arrived = s.arrived := by
  unfold BleControl.stepCallback at hs
  cases hcb : s.callback with
  | idle => simp [hcb] at hs
  | configure w =>
      simp only [hcb] at hs
      split at hs
      · split at hs <;> simp only [Option.some.injEq] at hs <;> subst hs <;>
          simp [BleControl.left, hcb, BleCallbackPlace.left]
      · simp only [Option.some.injEq] at hs
        subst hs
        simp [BleControl.left, hcb, BleCallbackPlace.left]
  | setEvent w =>
      simp only [hcb, Option.some.injEq] at hs
      subst hs
      refine ⟨?_, rfl⟩
      simp only [BleControl.left, hcb, BleCallbackPlace.left]
      split <;> simp <;> omega
  | _ w =>
      simp only [hcb, Option.some.injEq] at hs
      subst hs
      simp [BleControl.left, hcb, BleCallbackPlace.left]

theorem stepMain_left (hs : s.stepMain = some s') :
    s'.left < s.left ∧ s'.arrived = s.arrived := by
  unfold BleControl.stepMain at hs
  cases hmain : s.main with
  | wait =>
      simp only [hmain, Option.ite_none_right_eq_some, Option.some.injEq] at hs
      obtain ⟨hevt, rfl⟩ := hs
      simp [BleControl.left, hmain, hevt, BleMainPlace.left]
  | check k =>
      simp only [hmain, Option.some.injEq] at hs
      subst hs
      cases k <;> simp only [BleControl.check] <;> (try split) <;>
        simp [BleControl.left, hmain, BleMainPlace.left]
  | acting =>
      simp only [hmain, Option.some.injEq] at hs
      subst hs
      simp [BleControl.left, hmain, BleMainPlace.left]
  | _ =>
      simp only [hmain] at hs
      split at hs <;> simp only [Option.some.injEq] at hs <;> subst hs <;>
        simp [BleControl.left, hmain, BleMainPlace.left]

/-- Unless all is dealt with, one of the two tasks can go on. -/
theorem settled_or_step (s : BleControl) : s.Settled ∨
    ∃ a s', (a = .callback ∨ a = .main) ∧ bleControl.step s a = some s' := by
  by_cases hcb : s.callback = .idle
  · by_cases hmain : s.main = .wait
    · cases hevt : s.evtWrite with
      | false => exact Or.inl ⟨hcb, hevt, hmain⟩
      | true =>
          refine Or.inr ⟨.main, { s with evtWrite := false, main := .service },
            Or.inr rfl, ?_⟩
          simp [bleControl, BleControl.step, BleControl.stepMain, hmain, hevt]
    · have hstep : ∃ t, s.stepMain = some t := by
        unfold BleControl.stepMain
        cases hm : s.main with
        | wait => exact absurd hm hmain
        | check k => exact ⟨_, rfl⟩
        | acting => exact ⟨_, rfl⟩
        | _ => dsimp only; split <;> exact ⟨_, rfl⟩
      obtain ⟨t, ht⟩ := hstep
      exact Or.inr ⟨.main, t, Or.inr rfl, ht⟩
  · have hstep : ∃ t, s.stepCallback = some t := by
      unfold BleControl.stepCallback
      cases hc : s.callback with
      | idle => exact absurd hc hcb
      | configure w =>
          dsimp only
          split
          · split <;> exact ⟨_, rfl⟩
          · exact ⟨_, rfl⟩
      | _ w => exact ⟨_, rfl⟩
    obtain ⟨t, ht⟩ := hstep
    exact Or.inr ⟨.callback, t, Or.inl rfl, ht⟩

/-- The two tasks deal with all that arrived when they are left to run on. -/
theorem runs_to_settled (s : BleControl) : ∃ as t,
    (∀ a ∈ as, a = .callback ∨ a = .main) ∧ bleControl.run s as = some t ∧
      t.Settled ∧ t.arrived = s.arrived := by
  induction h : s.left using Nat.strongRecOn generalizing s with
  | _ n ih =>
      subst h
      rcases settled_or_step s with hsettled | ⟨a, s', ha, hs⟩
      · exact ⟨[], s, by simp, rfl, hsettled, rfl⟩
      · obtain ⟨hlt, harrived⟩ : s'.left < s.left ∧ s'.arrived = s.arrived := by
          rcases ha with rfl | rfl
          · exact stepCallback_left hs
          · exact stepMain_left hs
        obtain ⟨as, t, has, hrun, hsettled, ht⟩ := ih _ hlt s' rfl
        refine ⟨a :: as, t, ?_, ?_, hsettled, ht.trans harrived⟩
        · exact List.forall_mem_cons.mpr ⟨ha, has⟩
        · simp only [Machine.run, hs]
          exact hrun

end Progress

/-! ## Runs without overlap -/

theorem BleControl.Sound.executed_begins {s : BleControl} (h : s.Sound) :
    s.executed <+: controlActions s.arrived := by
  obtain ⟨done, hquiet | ⟨w, hpending⟩⟩ := h
  · rw [hquiet.arrived, hquiet.executed, controlActions, controlActions,
      List.filterMap_append]
    exact List.prefix_append _ _
  · rw [hpending.arrived, hpending.executed, controlActions_concat]
    exact List.prefix_append _ _

theorem BleControl.Sound.settled {s : BleControl} (h : s.Sound)
    (hsettled : s.Settled) : s.executed = controlActions s.arrived := by
  obtain ⟨hcb, hevt, hmain⟩ := hsettled
  obtain ⟨done, hquiet | ⟨w, hpending⟩⟩ := h
  · rw [hquiet.arrived, hquiet.executed, hcb]
    simp [BleCallbackPlace.inStore]
  · rcases hpending.place with ⟨htrue, -⟩ | ⟨-, hreads⟩
    · rw [hevt] at htrue
      cases htrue
    · rw [hmain] at hreads
      cases hreads

/-- The steps of the two tasks are orderly. -/
theorem meets_orderly {s : BleControl} {as : List BleControlAction}
    (has : ∀ a ∈ as, a = .callback ∨ a = .main) :
    bleControl.Meets OrderlyArrival s as := by
  induction as generalizing s with
  | nil => exact trivial
  | cons a as ih =>
      obtain ⟨ha, has⟩ := List.forall_mem_cons.mp has
      refine ⟨?_, fun s' _ => ih has⟩
      rcases ha with rfl | rfl
      · exact trivial
      · exact trivial

/-- While no write overtakes an earlier one that could be a control write, what
the main task executed is at any time a beginning of what the control writes
asked for, and when the tasks run on it is all of it. -/
theorem control_writes_executed {s : BleControl}
    (h : bleControl.ReachableVia OrderlyArrival s) :
    s.executed <+: controlActions s.arrived ∧
      (s.Settled → s.executed = controlActions s.arrived) ∧
      ∃ as t, (∀ a ∈ as, a = .callback ∨ a = .main) ∧
        bleControl.run s as = some t ∧ t.arrived = s.arrived ∧
        t.executed = controlActions s.arrived := by
  have hsound := sound_of_orderly h
  refine ⟨hsound.executed_begins, hsound.settled, ?_⟩
  obtain ⟨as, t, has, hrun, hsettled, harrived⟩ := runs_to_settled s
  refine ⟨as, t, has, hrun, harrived, ?_⟩
  rw [← harrived]
  exact (sound_of_orderly (h.run as (meets_orderly has) hrun)).settled hsettled

/-- A write to the characteristic `characIdx` of the commissioning service. -/
def commissioningWrite (characIdx : UInt8) (payload : List UInt8)
    (fits : payload.length ≤ bleAvailableDataSize) : BleWrite :=
  ⟨1, wifiCommissioningServiceIndex, characIdx, payload, fits⟩

/-- The callback from its call to its end. -/
def wholeCallback : List BleControlAction :=
  List.replicate 6 .callback

/-- The name and the password of the network one right after the other, then the
order to connect. -/
def commissioning : List BleControlAction :=
  .arrive (commissioningWrite 1 [1, 97] (by decide)) :: wholeCallback ++
  .main :: .arrive (commissioningWrite 1 [2, 98] (by decide)) :: wholeCallback ++
  List.replicate 5 .main ++
  .arrive (commissioningWrite 0 [3] (by decide)) :: wholeCallback ++
  List.replicate 7 .main

theorem control_writes_executed_commissioning : ∃ s : BleControl,
    bleControl.ReachableVia OrderlyArrival s ∧ s.opts = ⟨[97], [98]⟩ ∧
      s.Settled ∧ s.executed = controlActions s.arrived ∧
      s.executed = [.connect] := by
  have hrun : (bleControl.run bleControlStart commissioning).map
      (fun s => (s.opts, s.callback, s.evtWrite, s.main, s.executed)) =
        some (⟨[97], [98]⟩, .idle, false, .wait, [.connect]) := by
    decide +kernel
  have hmeets : bleControl.Meets OrderlyArrival bleControlStart commissioning := by
    decide +kernel
  obtain ⟨s, hs, heq⟩ := Option.map_eq_some_iff.mp hrun
  simp only [Prod.mk.injEq] at heq
  obtain ⟨hopts, hcb, hevt, hmain, hexec⟩ := heq
  have hreach : bleControl.ReachableVia OrderlyArrival s :=
    (Machine.ReachableVia.init rfl).run _ hmeets hs
  exact ⟨s, hreach, hopts, ⟨hcb, hevt, hmain⟩,
    (control_writes_executed hreach).2.1 ⟨hcb, hevt, hmain⟩, hexec⟩

/-- Two orders before the main task looks. -/
def connectAndDisconnect : List BleControlAction :=
  .arrive (commissioningWrite 0 [3] (by decide)) :: wholeCallback ++
  .arrive (commissioningWrite 0 [4] (by decide)) :: wholeCallback ++
  List.replicate 8 .main

/-- Only the second one is executed. -/
theorem control_write_lost : ∃ s : BleControl, bleControl.Reachable s ∧
    s.Settled ∧ controlActions s.arrived = [.connect, .disconnect] ∧
      s.executed = [.disconnect] := by
  have hrun : (bleControl.run bleControlStart connectAndDisconnect).map
      (fun s => (s.callback, s.evtWrite, s.main, controlActions s.arrived,
        s.executed)) =
        some (.idle, false, .wait, [.connect, .disconnect], [.disconnect]) := by
    decide +kernel
  obtain ⟨s, hs, heq⟩ := Option.map_eq_some_iff.mp hrun
  simp only [Prod.mk.injEq] at heq
  obtain ⟨hcb, hevt, hmain, hasked, hexec⟩ := heq
  exact ⟨s, Machine.reachable_of_run rfl _ hs, ⟨hcb, hevt, hmain⟩, hasked, hexec⟩

end RtpMulticast
