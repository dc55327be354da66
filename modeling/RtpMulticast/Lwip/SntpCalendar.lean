import RtpMulticast.Lwip.Sntp
import RtpMulticast.Support.Calendar
import RtpMulticast.Support.Text

/-!
# From seconds to a date

`sntp_time_format` takes off whole years and then whole months from a number of
days.  `sntp_process` calls it with the seconds of the server, moved to the time
zone and from the NTP epoch to the one of Unix.
-/

namespace RtpMulticast

open ByteBuffer Calendar Text

/-! ## The functions -/

/-- `date_time_t` without `current_time`, which `sntp_time_format` leaves alone. -/
structure SntpDateTime where
  seconds : ℕ
  minutes : ℕ
  hours : ℕ
  day : ℕ
  month : ℕ
  year : ℕ
  dayOfWeek : ℕ
  raw : Bytes
  timestamp : ℕ
  deriving DecidableEq, Repr

/-- `days_in_month`. -/
def sntpDaysInMonth : List ℕ := [31, 28, 31, 30, 31, 30, 31, 31, 30, 31, 30, 31]

/-- `wday_name`. -/
def wdayName : List String := ["Sun", "Mon", "Tue", "Wed", "Thu", "Fri", "Sat"]

/-- `mon_name`. -/
def monName : List String :=
  ["Jan", "Feb", "Mar", "Apr", "May", "Jun", "Jul", "Aug", "Sep", "Oct", "Nov", "Dec"]

/-- The test that both loops make for a leap year. -/
def SntpLeap (year : ℕ) : Prop :=
  (year % 4 = 0 ∧ year % 100 ≠ 0) ∨ year % 400 = 0

instance : DecidablePred SntpLeap := fun _ => inferInstanceAs (Decidable (_ ∨ _))

/-- The loop over the years, for at most the given number of rounds. -/
def sntpYearLoop : ℕ → ℕ → ℕ → ℕ × ℕ
  | 0, year, day => (year, day)
  | n + 1, year, day =>
      let daysInYear := if SntpLeap year then 365 + 1 else 365
      if day < daysInYear then (year, day)
      else sntpYearLoop n (year + 1) (day - daysInYear)

/-- The loop over the months that are left; `month` counts with the loop variable. -/
def sntpMonthLoop (year : ℕ) : ℕ → ℕ → ℕ → ℕ × ℕ
  | 0, month, day => (month, day)
  | n + 1, month, day =>
      let dim := if month = 1 ∧ SntpLeap year then 29 else sntpDaysInMonth.getD month 0
      if day < dim then (month, day)
      else sntpMonthLoop year n (month + 1) (day - dim)

/-- The format `%s %s %2u %02u:%02u:%02u %04u`. -/
def sntpRaw (dayOfWeek month day hours minutes seconds year : ℕ) : Bytes :=
  ascii (wdayName.getD dayOfWeek "") ++ [0x20] ++ ascii (monName.getD (month - 1) "") ++
    [0x20] ++ padded 2 0x20 (decimal day) ++ [0x20] ++ padded 2 0x30 (decimal hours) ++
    [0x3A] ++ padded 2 0x30 (decimal minutes) ++ [0x3A] ++
    padded 2 0x30 (decimal seconds) ++ [0x20] ++ padded 4 0x30 (decimal year)

/-- `sntp_time_format` for a `time_t` that is not negative; `raw` has 26 bytes. -/
def sntpTimeFormat (timestamp : ℕ) : SntpDateTime :=
  let seconds := timestamp % 60
  let minutes := timestamp / 60 % 60
  let hours := timestamp / 60 / 60 % 24
  let days := timestamp / 60 / 60 / 24 % 2 ^ 32
  let dayOfWeek := (days + 4) % 2 ^ 32 % 7
  let year := sntpYearLoop days 1970 days
  let month := sntpMonthLoop year.1 12 0 year.2
  { seconds := seconds, minutes := minutes, hours := hours
    day := month.2 + 1, month := month.1 + 1, year := year.1, dayOfWeek := dayOfWeek
    raw := (sntpRaw dayOfWeek (month.1 + 1) (month.2 + 1) hours minutes seconds
      year.1).take 25
    timestamp := timestamp }

/-! ## What is to hold -/

/-- The fields of a date and time of the calendar. -/
structure SntpDateTime.Denotes (dt : SntpDateTime) (d : DateTime) : Prop where
  year : (dt.year : ℤ) = d.year
  month : dt.month = d.month
  day : dt.day = d.day
  hours : dt.hours = d.hour
  minutes : dt.minutes = d.minute
  seconds : dt.seconds = d.second
  dayOfWeek : dt.dayOfWeek = d.weekday

/-- The conversion yields the one date and time with that second count. -/
def ConvertsSeconds (t : ℕ) (dt : SntpDateTime) : Prop :=
  ∃ d : DateTime, d.secondCount = t ∧ (∀ other : DateTime, other.secondCount = t →
    other = d) ∧ dt.Denotes d

/-! ## The loops -/

section Loops

variable {day n k : ℕ}

theorem sntpLeap_iff {year : ℕ} : SntpLeap year ↔ IsLeap (year : ℤ) := by
  unfold SntpLeap IsLeap
  omega

theorem sntpDaysInYear_eq (year : ℕ) :
    (if SntpLeap year then 365 + 1 else 365) = Calendar.daysInYear (year : ℤ) := by
  unfold Calendar.daysInYear
  simp only [sntpLeap_iff]

theorem sntpDim_eq (year : ℕ) (hk : k < 12) :
    (if k = 1 ∧ SntpLeap year then 29 else sntpDaysInMonth.getD k 0) =
      Calendar.daysInMonth (year : ℤ) (k + 1) := by
  unfold Calendar.daysInMonth
  simp only [sntpLeap_iff]
  by_cases hleap : IsLeap (year : ℤ)
  · simp only [hleap, and_true, if_true]
    revert k
    decide
  · simp only [hleap, and_false, if_false]
    revert k
    decide

/-- The rounds take off the years that are over. -/
theorem sntpYearLoop_spec (year : ℕ) (h : day ≤ n) :
    (sntpYearLoop n year day).2 < Calendar.daysInYear (sntpYearLoop n year day).1 ∧
      daysBeforeYear (sntpYearLoop n year day).1 + (sntpYearLoop n year day).2 =
        daysBeforeYear year + day := by
  induction n generalizing year day with
  | zero =>
      obtain rfl : day = 0 := Nat.le_zero.mp h
      refine ⟨?_, rfl⟩
      show 0 < Calendar.daysInYear year
      unfold Calendar.daysInYear
      split_ifs <;> decide
  | succ n ih =>
      rw [sntpYearLoop, sntpDaysInYear_eq]
      by_cases hlast : day < Calendar.daysInYear year
      · rw [if_pos hlast]
        exact ⟨hlast, rfl⟩
      · rw [if_neg hlast]
        have hpos : 365 ≤ Calendar.daysInYear year := by
          unfold Calendar.daysInYear
          split_ifs <;> decide
        have hrest : day - Calendar.daysInYear year ≤ n := by omega
        obtain ⟨hlt, hcount⟩ := ih (year + 1) hrest
        refine ⟨hlt, hcount.trans ?_⟩
        have hsucc := daysBeforeYear_succ year
        push_cast
        omega

/-- The rounds take off the months that are over; one of the twelve is left. -/
theorem sntpMonthLoop_spec (year : ℕ) (hn : n + k = 12)
    (h : daysOfMonths year k + day < Calendar.daysInYear year) :
    (sntpMonthLoop year n k day).1 < 12 ∧
      (sntpMonthLoop year n k day).2 <
        Calendar.daysInMonth year ((sntpMonthLoop year n k day).1 + 1) ∧
      daysOfMonths year (sntpMonthLoop year n k day).1 + (sntpMonthLoop year n k day).2 =
        daysOfMonths year k + day := by
  induction n generalizing k day with
  | zero =>
      obtain rfl : k = 12 := by omega
      rw [daysOfMonths_twelve] at h
      omega
  | succ n ih =>
      rw [sntpMonthLoop, sntpDim_eq year (by omega)]
      by_cases hlast : day < Calendar.daysInMonth year (k + 1)
      · rw [if_pos hlast]
        exact ⟨by omega, hlast, rfl⟩
      · rw [if_neg hlast]
        have hsucc := daysOfMonths_succ year k
        have hrest : daysOfMonths year (k + 1) + (day - Calendar.daysInMonth year (k + 1)) <
            Calendar.daysInYear year := by omega
        obtain ⟨hlt, hday, hcount⟩ := ih (by omega) hrest
        exact ⟨hlt, hday, by omega⟩

end Loops

/-! ## The conversion -/

section Conversion

variable {t : ℕ}

/-- The first of January 1970 is day 719163, a Thursday. -/
theorem dayOfWeek_days {days : ℕ} (h : days < 2 ^ 31) :
    (days + 4) % 2 ^ 32 % 7 = ((719163 + (days : ℤ)) % 7).toNat := by
  have hnowrap : (days + 4) % 2 ^ 32 = days + 4 := Nat.mod_eq_of_lt (by omega)
  rw [hnowrap]
  omega

/-- The date and time that the fields are. -/
theorem exists_denotes (ht : t < 2 ^ 32) :
    ∃ d : DateTime, d.secondCount = t ∧ (sntpTimeFormat t).Denotes d := by
  have hdays : t / 60 / 60 / 24 % 2 ^ 32 = t / 86400 := by omega
  have hyear := sntpYearLoop_spec 1970 (Nat.le_refl (t / 86400))
  generalize hy : sntpYearLoop (t / 86400) 1970 (t / 86400) = year at hyear
  obtain ⟨hyearDay, hyearCount⟩ := hyear
  have hstart : daysOfMonths year.1 0 + year.2 < Calendar.daysInYear year.1 := by
    rw [daysOfMonths]
    omega
  have hmonth := sntpMonthLoop_spec year.1 (n := 12) rfl hstart
  generalize hm : sntpMonthLoop year.1 12 0 year.2 = month at hmonth
  obtain ⟨hmonthLt, hmonthDay, hmonthCount⟩ := hmonth
  let d : DateTime :=
    { year := year.1, month := month.1 + 1, day := month.2 + 1
      month_mem := ⟨by omega, by omega⟩
      day_mem := ⟨by omega, hmonthDay⟩
      hour := t / 60 / 60 % 24, minute := t / 60 % 60, second := t % 60
      hour_lt := Nat.mod_lt _ (by decide)
      minute_lt := Nat.mod_lt _ (by decide)
      second_lt := Nat.mod_lt _ (by decide) }
  have hepoch : daysBeforeYear ((1970 : ℕ) : ℤ) = 719162 := by decide
  have hrata : d.rataDie = 719163 + (t / 86400 : ℕ) := by
    show daysBeforeYear year.1 + (daysOfMonths year.1 (month.1 + 1 - 1) : ℕ) +
      ((month.2 + 1 : ℕ) : ℤ) = _
    rw [Nat.add_sub_cancel]
    rw [daysOfMonths] at hmonthCount
    rw [hepoch] at hyearCount
    omega
  refine ⟨d, ?_, ?_⟩
  · unfold DateTime.secondCount
    rw [hrata]
    show _ + ((t / 60 / 60 % 24 : ℕ) : ℤ) * 3600 + ((t / 60 % 60 : ℕ) : ℤ) * 60 +
      ((t % 60 : ℕ) : ℤ) = _
    omega
  · have hweekday : ((t / 86400 + 4) % 2 ^ 32) % 7 = d.weekday := by
      unfold Date.weekday
      rw [hrata]
      exact dayOfWeek_days (by omega)
    constructor
    all_goals simp only [sntpTimeFormat, hdays, hy, hm]
    · exact rfl
    · exact rfl
    · exact rfl
    · exact rfl
    · exact rfl
    · exact rfl
    · exact hweekday

theorem convertsSeconds (ht : t < 2 ^ 32) : ConvertsSeconds t (sntpTimeFormat t) := by
  obtain ⟨d, hcount, hdenotes⟩ := exists_denotes ht
  refine ⟨d, hcount, fun other hother => ?_, hdenotes⟩
  exact DateTime.secondCount_injective (hother.trans hcount.symm)

end Conversion

/-! ## The text -/

section RawText

variable {t : ℕ}

theorem length_sntpRaw {dayOfWeek month day hours minutes seconds year : ℕ}
    (hdayOfWeek : dayOfWeek < 7) (hmonth : month - 1 < 12) (hday : day < 100)
    (hhours : hours < 100) (hminutes : minutes < 100) (hseconds : seconds < 100)
    (hyear : year < 10000) :
    (sntpRaw dayOfWeek month day hours minutes seconds year).length = 24 := by
  have htwo {n : ℕ} (fill : UInt8) (hn : n < 100) : (padded 2 fill (decimal n)).length = 2 :=
    length_padded 2 fill ((length_decimal_le_iff (by decide)).mpr hn)
  have hfour : (padded 4 0x30 (decimal year)).length = 4 :=
    length_padded 4 _ ((length_decimal_le_iff (by decide)).mpr hyear)
  have hwday : (ascii (wdayName.getD dayOfWeek "")).length = 3 := by
    revert dayOfWeek
    decide
  have hmon : (ascii (monName.getD (month - 1) "")).length = 3 := by
    generalize month - 1 = k at hmonth
    revert k
    decide
  simp only [sntpRaw, List.length_append, hwday, hmon, htwo _ hday, htwo _ hhours,
    htwo _ hminutes, htwo _ hseconds, hfour, List.length_cons, List.length_nil]

/-- The text fits into `raw` with its terminator. -/
theorem length_raw (ht : t < 2 ^ 32) : (sntpTimeFormat t).raw.length = 24 := by
  obtain ⟨d, hcount, hdenotes⟩ := exists_denotes ht
  have hmonth := d.month_mem
  have hday := d.day_le
  have hyear : d.year < 10000 := by
    have hstart := d.rataDie_mem.1
    have := d.hour_lt
    unfold DateTime.secondCount at hcount
    unfold daysBeforeYear at hstart
    omega
  have hraw : (sntpTimeFormat t).raw =
      (sntpRaw (sntpTimeFormat t).dayOfWeek (sntpTimeFormat t).month
        (sntpTimeFormat t).day (sntpTimeFormat t).hours (sntpTimeFormat t).minutes
        (sntpTimeFormat t).seconds (sntpTimeFormat t).year).take 25 := by
    simp only [sntpTimeFormat]
  rw [hraw, List.length_take, length_sntpRaw]
  · rfl
  · rw [hdenotes.dayOfWeek]
    exact d.weekday_lt
  · rw [hdenotes.month]
    omega
  · rw [hdenotes.day]
    omega
  · rw [hdenotes.hours]
    have := d.hour_lt
    omega
  · rw [hdenotes.minutes]
    have := d.minute_lt
    omega
  · rw [hdenotes.seconds]
    have := d.second_lt
    omega
  · have := hdenotes.year
    omega

end RawText

/-! ## The seconds of the server -/

section Process

variable (c : SntpContext) (sec : UInt32)

theorem toNat_timestamp :
    ((sntpProcess c sec).timestamp.toNat : ℤ) =
      (sec.toNat + 3600 * c.timezoneOffset - 2208988800) % 2 ^ 32 := by
  have hofInt : ((UInt32.ofInt (c.timezoneOffset * 3600)).toNat : ℤ) =
      (c.timezoneOffset * 3600) % 2 ^ 32 := by
    rw [UInt32.ofInt, UInt32.toNat_ofNat']
    omega
  have hsec := sec.toNat_lt
  show ((sec + UInt32.ofInt (c.timezoneOffset * 3600) - 2208988800).toNat : ℤ) = _
  rw [UInt32.toNat_sub, UInt32.toNat_add,
    show (2208988800 : UInt32).toNat = 2208988800 from rfl]
  omega

/-- The date that `sntp_process` computes. -/
def sntpProcessDate (c : SntpContext) (sec : UInt32) : SntpDateTime :=
  sntpTimeFormat (sntpProcess c sec).timestamp.toNat

/-- Every second count becomes its date, `sntp_process` converts the local seconds
modulo `2 ^ 32`, and so the local time of every instant of those `2 ^ 32` seconds,
in which the NTP seconds wrap once. -/
theorem sntpProcess_converts (t : UInt32) :
    ConvertsSeconds t.toNat (sntpTimeFormat t.toNat) ∧
      ((sntpProcess c sec).timestamp.toNat : ℤ) =
        (sec.toNat + 3600 * c.timezoneOffset - 2208988800) % 2 ^ 32 ∧
      ∀ instant : ℤ, (sec.toNat : ℤ) = (instant + 2208988800) % 2 ^ 32 →
        0 ≤ instant + 3600 * c.timezoneOffset →
        instant + 3600 * c.timezoneOffset < 2 ^ 32 →
        ∃ d : DateTime, d.secondCount = instant + 3600 * c.timezoneOffset ∧
          (sntpProcessDate c sec).Denotes d := by
  refine ⟨convertsSeconds t.toNat_lt, toNat_timestamp c sec, ?_⟩
  intro instant hsec hlow hhigh
  obtain ⟨d, hcount, hdenotes⟩ :=
    exists_denotes (sntpProcess c sec).timestamp.toNat_lt
  refine ⟨d, hcount.trans ?_, hdenotes⟩
  rw [toNat_timestamp, hsec]
  omega

end Process

/-- The NTP seconds 0 are those of the era that starts in 2036. -/
example :
    let dt := sntpProcessDate ⟨none, 0, 0, 2, 0⟩ 0
    (dt.year, dt.month, dt.day, dt.hours, dt.minutes, dt.seconds, dt.dayOfWeek) =
      (2036, 2, 7, 8, 28, 16, 4) := by decide

end RtpMulticast
