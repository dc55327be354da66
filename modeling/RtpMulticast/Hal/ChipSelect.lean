import RtpMulticast.Support.DownCounter
import Mathlib.Tactic.Ring

/-!
# The chip select of the SPI port

`spi_port_set_cs` lowers the chip select and notes the SysTick counter, and waits
with `WAIT_FROM` before it raises the chip select.  The wait reads the counter
once in every tick.
-/

namespace RtpMulticast

open DownCounter

/-- The SysTick timer: the registers at 0xe000e014 and 0xe000e018, of 24 bits. -/
structure SysTick where
  load : ℕ
  value : ℕ
  load_lt : load < 2 ^ 24
  value_le : value ≤ load

def SysTick.tick (timer : SysTick) : SysTick where
  load := timer.load
  value := next timer.load timer.value
  load_lt := timer.load_lt
  value_le := next_le timer.value_le

/-- The timer, the static variable of `spi_port_set_cs` and the level of the chip
select with the time of its last write, in ticks. -/
structure SpiPort where
  sysTick : SysTick
  now : ℕ
  lastFallingTick : UInt32
  csHigh : Bool
  csTick : ℕ

namespace SpiPort

def tick (port : SpiPort) : SpiPort :=
  { port with sysTick := port.sysTick.tick, now := port.now + 1 }

def later (port : SpiPort) (ticks : ℕ) : SpiPort := tick^[ticks] port

end SpiPort

/-- `MICROSECOND_TO_TICK`. -/
def microsecondToTick (us systemCoreClock : UInt32) : UInt32 :=
  us * (systemCoreClock >>> 20)

/-- `_end_tick` of `WAIT_FROM`.  It is an `int32_t`, here with its bits; the sum
and the comparison with the counter are unsigned. -/
def waitEndTick (startTick nbTick load : UInt32) : UInt32 :=
  let endTick := startTick - nbTick
  if 2 ^ 31 ≤ endTick.toNat then endTick + load else endTick

/-- The loop of `WAIT_FROM`; `none` when the fuel does not suffice. -/
def waitLoop (endTick : UInt32) : ℕ → SpiPort → Option SpiPort
  | 0, _ => none
  | fuel + 1, port =>
      if endTick.toNat < port.sysTick.value then
        waitLoop endTick fuel port.tick
      else some port

/-- `WAIT_FROM`; within one period the counter takes every value. -/
def waitFrom (startTick nbTick : UInt32) (port : SpiPort) : Option SpiPort :=
  waitLoop (waitEndTick startTick nbTick (UInt32.ofNat port.sysTick.load))
    (port.sysTick.load + 1) port

def spiPortSetCs (systemCoreClock : UInt32) (state : Bool) (port : SpiPort) :
    Option SpiPort :=
  if state then
    (waitFrom port.lastFallingTick (microsecondToTick 2 systemCoreClock)
      port).map fun port => { port with csHigh := true, csTick := port.now }
  else
    some { port with
      csHigh := false
      csTick := port.now
      lastFallingTick := UInt32.ofNat port.sysTick.value }

/-! ## Time passing -/

namespace SpiPort

theorem later_succ (port : SpiPort) (n : ℕ) :
    port.later (n + 1) = port.tick.later n := rfl

theorem later_now (port : SpiPort) (n : ℕ) :
    (port.later n).now = port.now + n := by
  induction n generalizing port with
  | zero => rfl
  | succ n ih =>
      rw [later_succ, ih, tick]
      ring

theorem later_load (port : SpiPort) (n : ℕ) :
    (port.later n).sysTick.load = port.sysTick.load := by
  induction n generalizing port with
  | zero => rfl
  | succ n ih =>
      rw [later_succ, ih]
      rfl

theorem later_value (port : SpiPort) (n : ℕ) :
    (port.later n).sysTick.value =
      after port.sysTick.load port.sysTick.value n := by
  induction n generalizing port with
  | zero => rfl
  | succ n ih =>
      rw [later_succ, ih, after_succ]
      rfl

theorem later_lastFallingTick (port : SpiPort) (n : ℕ) :
    (port.later n).lastFallingTick = port.lastFallingTick := by
  induction n generalizing port with
  | zero => rfl
  | succ n ih =>
      rw [later_succ, ih]
      rfl

end SpiPort

/-! ## The wait -/

/-- The counter comes down to the end of the wait without a reload. -/
theorem waitLoop_eq (endTick : UInt32) {fuel : ℕ} {port : SpiPort}
    (h : port.sysTick.value < fuel) :
    waitLoop endTick fuel port =
      some (port.later (port.sysTick.value - endTick.toNat)) := by
  induction fuel generalizing port with
  | zero => exact absurd h (Nat.not_lt_zero _)
  | succ fuel ih =>
      by_cases hend : endTick.toNat < port.sysTick.value
      · have hvalue : port.tick.sysTick.value = port.sysTick.value - 1 :=
          if_neg (by omega)
        have hticks : port.sysTick.value - endTick.toNat =
            port.sysTick.value - 1 - endTick.toNat + 1 := by omega
        rw [waitLoop, if_pos hend, ih (by omega), hvalue, hticks,
          SpiPort.later_succ]
      · have hticks : port.sysTick.value - endTick.toNat = 0 := by omega
        rw [waitLoop, if_neg hend, hticks]
        rfl

/-- The end of the wait; behind a reload it is one tick early. -/
theorem waitEndTick_toNat {start load : ℕ} {nbTick : UInt32}
    (hload : load < 2 ^ 24) (hstart : start ≤ load) (hnb : nbTick.toNat < load) :
    (waitEndTick (UInt32.ofNat start) nbTick (UInt32.ofNat load)).toNat =
      if nbTick.toNat ≤ start then start - nbTick.toNat
      else start + load - nbTick.toNat := by
  have hstartNat : (UInt32.ofNat start).toNat = start :=
    UInt32.toNat_ofNat_of_lt' (by rw [UInt32.size]; omega)
  have hloadNat : (UInt32.ofNat load).toNat = load :=
    UInt32.toNat_ofNat_of_lt' (by rw [UInt32.size]; omega)
  rw [waitEndTick]
  by_cases hwrap : nbTick.toNat ≤ start
  · have hend : (UInt32.ofNat start - nbTick).toNat = start - nbTick.toNat := by
      rw [UInt32.toNat_sub, hstartNat]
      omega
    rw [if_pos hwrap, hend, if_neg (by omega), hend]
  · have hend : (UInt32.ofNat start - nbTick).toNat =
        2 ^ 32 + start - nbTick.toNat := by
      rw [UInt32.toNat_sub, hstartNat]
      omega
    rw [if_neg hwrap, hend, if_pos (by omega), UInt32.toNat_add, hend, hloadNat]
    omega

/-- The ticks that a call waits, from the value at the falling edge and the ticks
since then. -/
def waitTicks (load start nb elapsed : ℕ) : ℕ :=
  after load start elapsed -
    if nb ≤ start then start - nb else start + load - nb

/-- A port whose chip select was lowered, and some time later. -/
theorem spiPortSetCs_raise (systemCoreClock : UInt32) (port : SpiPort)
    (elapsed : ℕ)
    (hnb : (microsecondToTick 2 systemCoreClock).toNat < port.sysTick.load) :
    ∃ fallen raised, spiPortSetCs systemCoreClock false port = some fallen ∧
      spiPortSetCs systemCoreClock true (fallen.later elapsed) = some raised ∧
      fallen.csTick = port.now ∧ raised.csHigh ∧
      raised.csTick = port.now + elapsed +
        waitTicks port.sysTick.load port.sysTick.value
          (microsecondToTick 2 systemCoreClock).toNat elapsed := by
  let fallen : SpiPort :=
    { port with
      csHigh := false
      csTick := port.now
      lastFallingTick := UInt32.ofNat port.sysTick.value }
  have hload : (fallen.later elapsed).sysTick.load = port.sysTick.load :=
    fallen.later_load elapsed
  have hvalue : (fallen.later elapsed).sysTick.value =
      after port.sysTick.load port.sysTick.value elapsed :=
    fallen.later_value elapsed
  have hlast : (fallen.later elapsed).lastFallingTick =
      UInt32.ofNat port.sysTick.value := fallen.later_lastFallingTick elapsed
  have hnow : (fallen.later elapsed).now = port.now + elapsed :=
    fallen.later_now elapsed
  have hfuel : (fallen.later elapsed).sysTick.value <
      (fallen.later elapsed).sysTick.load + 1 :=
    Nat.lt_succ_of_le (fallen.later elapsed).sysTick.value_le
  have hend := waitEndTick_toNat port.sysTick.load_lt port.sysTick.value_le hnb
  let waited := (fallen.later elapsed).later
    (waitTicks port.sysTick.load port.sysTick.value
      (microsecondToTick 2 systemCoreClock).toNat elapsed)
  have hwait : waitFrom (fallen.later elapsed).lastFallingTick
      (microsecondToTick 2 systemCoreClock) (fallen.later elapsed) =
        some waited := by
    rw [waitFrom, waitLoop_eq _ hfuel, hlast, hload, hvalue, hend]
    rfl
  refine ⟨fallen, { waited with csHigh := true, csTick := waited.now },
    rfl, ?_, rfl, rfl, ?_⟩
  · rw [spiPortSetCs, if_pos rfl, hwait]
    rfl
  · exact (SpiPort.later_now _ _).trans (by rw [hnow])

/-! ## The guard time -/

/-- The chip select is raised no earlier than the guard time after it was lowered,
and the call waits no longer than that. -/
def GuardTimeKept (systemCoreClock : UInt32) (port : SpiPort) (elapsed : ℕ) :
    Prop :=
  ∃ fallen raised, spiPortSetCs systemCoreClock false port = some fallen ∧
    spiPortSetCs systemCoreClock true (fallen.later elapsed) = some raised ∧
    raised.csHigh ∧
    fallen.csTick + (microsecondToTick 2 systemCoreClock).toNat ≤
      raised.csTick ∧
    raised.csTick ≤ (fallen.later elapsed).now +
      (microsecondToTick 2 systemCoreClock).toNat

/-- Away from the reload the wait is right; the counter at the call has to be on
the same side of it as the end of the wait. -/
theorem waitTicks_guard_iff {load start nb : ℕ} (hstart : start ≤ load)
    (hnb : nb < load) (elapsed : ℕ) :
    (nb ≤ elapsed + waitTicks load start nb elapsed ∧
        waitTicks load start nb elapsed ≤ nb) ↔
      (nb ≤ start ∧ elapsed % (load + 1) ≤ start) ∨
        (start < nb ∧ start < elapsed) := by
  have hplace : elapsed % (load + 1) < load + 1 :=
    Nat.mod_lt elapsed (Nat.succ_pos load)
  have hle : elapsed % (load + 1) ≤ elapsed := Nat.mod_le elapsed (load + 1)
  have hfirst : elapsed < load + 1 → elapsed % (load + 1) = elapsed :=
    Nat.mod_eq_of_lt
  rw [waitTicks, after_eq hstart]
  generalize elapsed % (load + 1) = place at hplace hle hfirst ⊢
  by_cases hwrap : nb ≤ start
  · by_cases hside : place ≤ start
    · rw [if_pos hwrap, if_pos hside]
      omega
    · rw [if_pos hwrap, if_neg hside]
      omega
  · by_cases hside : place ≤ start
    · rw [if_neg hwrap, if_pos hside]
      omega
    · rw [if_neg hwrap, if_neg hside]
      omega

theorem guardTimeKept_iff_waitTicks (systemCoreClock : UInt32)
    (port : SpiPort) (elapsed : ℕ)
    (hnb : (microsecondToTick 2 systemCoreClock).toNat < port.sysTick.load) :
    GuardTimeKept systemCoreClock port elapsed ↔
      (microsecondToTick 2 systemCoreClock).toNat ≤ elapsed +
          waitTicks port.sysTick.load port.sysTick.value
            (microsecondToTick 2 systemCoreClock).toNat elapsed ∧
        waitTicks port.sysTick.load port.sysTick.value
            (microsecondToTick 2 systemCoreClock).toNat elapsed ≤
          (microsecondToTick 2 systemCoreClock).toNat := by
  obtain ⟨fallen, raised, hfallen, hraised, hdown, hhigh, hup⟩ :=
    spiPortSetCs_raise systemCoreClock port elapsed hnb
  have hnow : (fallen.later elapsed).now = port.now + elapsed := by
    rw [SpiPort.later_now, ← Option.some.inj hfallen]
  constructor
  · rintro ⟨fallen', raised', hfallen', hraised', -, hearly, hlate⟩
    obtain rfl := Option.some.inj (hfallen.symm.trans hfallen')
    obtain rfl := Option.some.inj (hraised.symm.trans hraised')
    omega
  · rintro ⟨hearly, hlate⟩
    exact ⟨fallen, raised, hfallen, hraised, hhigh, by omega, by omega⟩

/-- The guard time is kept exactly when the end of the wait lies in front of the
reload and the counter at the call is on the same side, or when the end lies
behind the reload and so does the call. -/
theorem guardTimeKept_iff (systemCoreClock : UInt32) (port : SpiPort)
    (elapsed : ℕ)
    (hnb : (microsecondToTick 2 systemCoreClock).toNat < port.sysTick.load) :
    GuardTimeKept systemCoreClock port elapsed ↔
      ((microsecondToTick 2 systemCoreClock).toNat ≤ port.sysTick.value ∧
          elapsed % (port.sysTick.load + 1) ≤ port.sysTick.value) ∨
        (port.sysTick.value < (microsecondToTick 2 systemCoreClock).toNat ∧
          port.sysTick.value < elapsed) := by
  rw [guardTimeKept_iff_waitTicks systemCoreClock port elapsed hnb]
  exact waitTicks_guard_iff port.sysTick.value_le hnb elapsed

/-- A port at 600 MHz with a SysTick period of one millisecond. -/
def portAt (value : ℕ) (h : value ≤ 599999) : SpiPort where
  sysTick := ⟨599999, value, by decide, h⟩
  now := 0
  lastFallingTick := 0
  csHigh := true
  csTick := 0

theorem guardTimeKept_iff_middle :
    GuardTimeKept 600000000 (portAt 300000 (by decide)) 100 := by
  apply (guardTimeKept_iff 600000000 (portAt 300000 (by decide)) 100
    (by decide)).mpr
  decide

/-- An edge 100 ticks in front of the reload: a call 50 ticks later does not
wait. -/
theorem not_guardTimeKept_reload :
    ¬ ∀ (systemCoreClock : UInt32) (port : SpiPort) (elapsed : ℕ),
      (microsecondToTick 2 systemCoreClock).toNat < port.sysTick.load →
        GuardTimeKept systemCoreClock port elapsed := by
  intro h
  have hnb : (microsecondToTick 2 600000000).toNat < 599999 := by decide
  have hkept := (guardTimeKept_iff_waitTicks 600000000 (portAt 100 (by decide)) 50
    hnb).mp (h 600000000 (portAt 100 (by decide)) 50 hnb)
  have hguard := (waitTicks_guard_iff (by decide : 100 ≤ 599999) hnb 50).mp hkept
  exact absurd hguard (by decide)

end RtpMulticast
