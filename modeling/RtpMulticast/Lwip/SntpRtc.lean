import RtpMulticast.Hal.Rtc
import RtpMulticast.Lwip.SntpCalendar

/-!
# The time of the server in the RTC

`sntp_process` writes the local date and time into the RTC, and `sntp_gettime`
reads them there.  The RTC counts the years from 2000 and calls Sunday the day 7;
`sntp_time_format` calls it 0, and `sntp_process` writes that.
-/

namespace RtpMulticast

open ByteBuffer Calendar

/-! ## The functions -/

/-- The structure given to `HAL_RTC_SetTime`. -/
def sntpRtcTime (dt : SntpDateTime) : RtcTime :=
  { hours := UInt8.ofNat dt.hours
    minutes := UInt8.ofNat dt.minutes
    seconds := UInt8.ofNat dt.seconds
    timeFormat := 0 }

/-- The structure given to `HAL_RTC_SetDate`; the year is computed in 32 bits. -/
def sntpRtcDate (dt : SntpDateTime) : RtcDate :=
  { year := UInt8.ofNat ((dt.year + 2 ^ 32 - 2000) % 2 ^ 32)
    month := UInt8.ofNat dt.month
    date := UInt8.ofNat dt.day
    weekDay := UInt8.ofNat dt.dayOfWeek }

/-- The part of `sntp_process` behind the conversion; `timeReady` and `dateReady` tell
whether the RTC enters its initialization mode.  Behind the registers, whether
`SNTP_TIME_RECEIVED` is set. -/
def sntpSetRtc (dt : SntpDateTime) (timeReady dateReady : Bool) (regs : RtcRegisters) :
    RtcRegisters × Bool :=
  if timeReady = false then (regs, false)
  else
    let regs := halRtcSetTime regs (sntpRtcTime dt)
    if dateReady = false then (regs, false)
    else (halRtcSetDate regs (sntpRtcDate dt), true)

/-- `sntp_gettime` with the date of the client, if there is one; `out` is what the
caller's structure held. -/
def sntpGettime (ctx : Option SntpDateTime) (out : SntpDateTime) (regs : RtcRegisters) :
    Option SntpDateTime :=
  match ctx with
  | none => none
  | some dt =>
      if dt.timestamp = 0 then none
      else
        let rtcTime := halRtcGetTime regs
        let rtcDate := halRtcGetDate regs
        some { out with
          seconds := rtcTime.seconds.toNat
          minutes := rtcTime.minutes.toNat
          hours := rtcTime.hours.toNat
          day := rtcDate.date.toNat
          month := rtcDate.month.toNat
          year := rtcDate.year.toNat + 2000
          dayOfWeek := rtcDate.weekDay.toNat }

/-! ## What is to hold -/

/-- The fields of a time and a date of the RTC. -/
structure RtcDenotes (t : RtcTime) (r : RtcDate) (d : DateTime) : Prop where
  hours : t.hours.toNat = d.hour
  minutes : t.minutes.toNat = d.minute
  seconds : t.seconds.toNat = d.second
  year : (r.year.toNat : ℤ) + 2000 = d.year
  month : r.month.toNat = d.month
  date : r.date.toNat = d.day
  weekDay : r.weekDay.toNat % 7 = d.weekday

/-- The local date and time `d` is written to the RTC with legal fields and read back
from it. -/
structure WritesLocalTime (d : DateTime) (dt : SntpDateTime) (regs : RtcRegisters) :
    Prop where
  computed : dt.Denotes d
  legalTime : (sntpRtcTime dt).Legal
  legalDate : (sntpRtcDate dt).Legal
  denotes : RtcDenotes (sntpRtcTime dt) (sntpRtcDate dt) d
  readsBack : ∀ out, ∃ back,
    sntpGettime (some dt) out (sntpSetRtc dt true true regs).1 = some back ∧
      back.Denotes d

section Fields

variable {d : DateTime} {dt : SntpDateTime} {regs : RtcRegisters}

theorem toNat_ofNat_byte {n : ℕ} (h : n < 256) : (UInt8.ofNat n).toNat = n := by
  rw [UInt8.toNat_ofNat']
  exact Nat.mod_eq_of_lt h

theorem ofNat_byte_le {n k : ℕ} (h : n ≤ k) (hk : k < 256) :
    UInt8.ofNat n ≤ UInt8.ofNat k := by
  rw [UInt8.le_iff_toNat_le, toNat_ofNat_byte (by omega), toNat_ofNat_byte hk]
  exact h

theorem legal_sntpRtcTime (h : dt.Denotes d) : (sntpRtcTime dt).Legal where
  hours := ofNat_byte_le (k := 23) (by rw [h.hours]; have := d.hour_lt; omega) (by decide)
  minutes :=
    ofNat_byte_le (k := 59) (by rw [h.minutes]; have := d.minute_lt; omega) (by decide)
  seconds :=
    ofNat_byte_le (k := 59) (by rw [h.seconds]; have := d.second_lt; omega) (by decide)

/-- The two digits of the year. -/
theorem rtcYear_eq (h : dt.Denotes d) (hyear : 2000 ≤ d.year ∧ d.year ≤ 2099) :
    (dt.year + 2 ^ 32 - 2000) % 2 ^ 32 = dt.year - 2000 ∧ 2000 ≤ dt.year ∧
      dt.year ≤ 2099 := by
  have := h.year
  omega

theorem toNat_weekDay (h : dt.Denotes d) : (sntpRtcDate dt).weekDay.toNat = d.weekday := by
  have hweekday := d.weekday_lt
  exact (toNat_ofNat_byte (by rw [h.dayOfWeek]; omega)).trans h.dayOfWeek

theorem rtcDenotes (h : dt.Denotes d) (hyear : 2000 ≤ d.year ∧ d.year ≤ 2099) :
    RtcDenotes (sntpRtcTime dt) (sntpRtcDate dt) d := by
  obtain ⟨hdigits, hlow, hhigh⟩ := rtcYear_eq h hyear
  have hhour := d.hour_lt
  have hminute := d.minute_lt
  have hsecond := d.second_lt
  have hmonth := d.month_mem
  have hday := d.day_le
  have hweekday := d.weekday_lt
  constructor
  · exact (toNat_ofNat_byte (by rw [h.hours]; omega)).trans h.hours
  · exact (toNat_ofNat_byte (by rw [h.minutes]; omega)).trans h.minutes
  · exact (toNat_ofNat_byte (by rw [h.seconds]; omega)).trans h.seconds
  · have hyear' := h.year
    rw [sntpRtcDate, hdigits, toNat_ofNat_byte (by omega)]
    omega
  · exact (toNat_ofNat_byte (by rw [h.month]; omega)).trans h.month
  · exact (toNat_ofNat_byte (by rw [h.day]; omega)).trans h.day
  · rw [toNat_weekDay h]
    exact Nat.mod_eq_of_lt hweekday

/-- Only the weekday can be illegal. -/
theorem legal_sntpRtcDate_iff (h : dt.Denotes d) (hyear : 2000 ≤ d.year ∧ d.year ≤ 2099) :
    (sntpRtcDate dt).Legal ↔ d.weekday ≠ 0 := by
  obtain ⟨hdigits, hlow, hhigh⟩ := rtcYear_eq h hyear
  have hmonth := d.month_mem
  have hday := d.day_mem
  have hday' := d.day_le
  have hweekday := d.weekday_lt
  constructor
  · intro hlegal hzero
    have hle := UInt8.le_iff_toNat_le.mp hlegal.weekDay.1
    rw [sntpRtcDate, h.dayOfWeek, hzero] at hle
    exact absurd (show (1 : UInt8).toNat ≤ (UInt8.ofNat 0).toNat from hle) (by decide)
  · intro hne
    constructor
    · constructor
      · exact ofNat_byte_le (n := 1) (by rw [h.dayOfWeek]; omega)
          (by rw [h.dayOfWeek]; omega)
      · exact ofNat_byte_le (k := 7) (by rw [h.dayOfWeek]; omega) (by decide)
    · rw [sntpRtcDate, hdigits]
      exact ofNat_byte_le (k := 99) (by omega) (by decide)
    · constructor
      · exact ofNat_byte_le (n := 1) (by rw [h.month]; omega) (by rw [h.month]; omega)
      · exact ofNat_byte_le (k := 12) (by rw [h.month]; omega) (by decide)
    · constructor
      · exact ofNat_byte_le (n := 1) (by rw [h.day]; omega) (by rw [h.day]; omega)
      · exact ofNat_byte_le (k := 31) (by rw [h.day]; omega) (by decide)

theorem halRtcGetDate_sntpRtcDate (h : dt.Denotes d)
    (hyear : 2000 ≤ d.year ∧ d.year ≤ 2099) (regs : RtcRegisters) :
    halRtcGetDate (halRtcSetDate regs (sntpRtcDate dt)) = sntpRtcDate dt := by
  obtain ⟨hdigits, hlow, hhigh⟩ := rtcYear_eq h hyear
  have hmonth := d.month_mem
  have hday := d.day_le
  have hweekday := d.weekday_lt
  apply halRtcGetDate_set
  · rw [sntpRtcDate, hdigits]
    exact ofNat_byte_le (k := 99) (by omega) (by decide)
  · exact ofNat_byte_le (k := 12) (by rw [h.month]; omega) (by decide)
  · exact ofNat_byte_le (k := 31) (by rw [h.day]; omega) (by decide)
  · exact ofNat_byte_le (k := 7) (by rw [h.dayOfWeek]; omega) (by decide)

/-- The date register does not touch the time. -/
theorem halRtcGetTime_setDate (regs : RtcRegisters) (r : RtcDate) :
    halRtcGetTime (halRtcSetDate regs r) = halRtcGetTime regs := rfl

/-- What is read behind a write of both registers. -/
theorem sntpGettime_denotes (h : dt.Denotes d) (hyear : 2000 ≤ d.year ∧ d.year ≤ 2099)
    (hinstant : dt.timestamp ≠ 0) (out : SntpDateTime) :
    ∃ back, sntpGettime (some dt) out (sntpSetRtc dt true true regs).1 = some back ∧
      back.Denotes d := by
  have hrtc := rtcDenotes h hyear
  have hlegal := legal_sntpRtcTime h
  have hweekDay := toNat_weekDay h
  have hdate := halRtcGetDate_sntpRtcDate h hyear
  simp only [sntpGettime, sntpSetRtc, if_neg hinstant, Bool.true_eq_false, if_false]
  generalize sntpRtcDate dt = r at hrtc hweekDay hdate
  generalize sntpRtcTime dt = t at hrtc hlegal
  obtain ⟨hhours, hminutes, hseconds⟩ := halRtcGetTime_set regs hlegal
  refine ⟨_, rfl, ?_⟩
  rw [halRtcGetTime_setDate, hdate, hhours, hminutes, hseconds]
  constructor
  · show ((r.year.toNat + 2000 : ℕ) : ℤ) = d.year
    rw [Nat.cast_add]
    exact hrtc.year
  · exact hrtc.month
  · exact hrtc.date
  · exact hrtc.hours
  · exact hrtc.minutes
  · exact hrtc.seconds
  · exact hweekDay

end Fields

/-! ## When the fields are right -/

section Process

variable {c : SntpContext} {sec : UInt32} {d : DateTime}

/-- The date that `sntp_process` computes is the one of the local seconds. -/
theorem sntpProcessDate_denotes
    (hd : d.secondCount = (sec.toNat + 3600 * c.timezoneOffset - 2208988800) % 2 ^ 32) :
    (sntpProcessDate c sec).Denotes d := by
  obtain ⟨d', hcount, hdenotes⟩ := exists_denotes (sntpProcess c sec).timestamp.toNat_lt
  rw [toNat_timestamp, ← hd] at hcount
  rw [← DateTime.secondCount_injective hcount]
  exact hdenotes

/-- The local time of the years 2000 to 2099 is written with legal fields, and read
back, exactly when the day is not a Sunday. -/
theorem writesLocalTime_iff (regs : RtcRegisters)
    (hd : d.secondCount = (sec.toNat + 3600 * c.timezoneOffset - 2208988800) % 2 ^ 32)
    (hyear : 2000 ≤ d.year ∧ d.year ≤ 2099) :
    WritesLocalTime d (sntpProcessDate c sec) regs ↔ d.weekday ≠ 0 := by
  have hdenotes := sntpProcessDate_denotes hd
  constructor
  · intro h
    exact (legal_sntpRtcDate_iff hdenotes hyear).mp h.legalDate
  · intro hweekday
    have hinstant : (sntpProcessDate c sec).timestamp ≠ 0 := by
      have hpos : 0 < d.secondCount := by
        have hstart := d.rataDie_mem.1
        have := d.hour_lt
        unfold daysBeforeYear at hstart
        unfold DateTime.secondCount
        omega
      rw [hd, ← toNat_timestamp] at hpos
      show (sntpProcess c sec).timestamp.toNat ≠ 0
      omega
    exact ⟨hdenotes, legal_sntpRtcTime hdenotes,
      (legal_sntpRtcDate_iff hdenotes hyear).mpr hweekday, rtcDenotes hdenotes hyear,
      sntpGettime_denotes hdenotes hyear hinstant⟩

end Process

/-- 2025-06-02 12:00:00, a Monday, two hours east of the server. -/
def mondayNoon : DateTime :=
  ⟨⟨2025, 6, 2, by decide, by decide⟩, 12, 0, 0, by decide, by decide, by decide⟩

theorem writesLocalTime_iff_monday :
    mondayNoon.secondCount =
        ((3957847200 : UInt32).toNat + 3600 * 2 - 2208988800) % 2 ^ 32 ∧
      (WritesLocalTime mondayNoon
          (sntpProcessDate ⟨none, 0, 0, 2, 0⟩ 3957847200) ⟨0, 0⟩ ↔
        mondayNoon.weekday ≠ 0) :=
  ⟨by decide, writesLocalTime_iff _ (by decide) (by decide)⟩

/-- 2025-06-01 00:00:00, a Sunday. -/
def sundayStart : DateTime :=
  ⟨⟨2025, 6, 1, by decide, by decide⟩, 0, 0, 0, by decide, by decide, by decide⟩

/-- On a Sunday the weekday 0 is written. -/
theorem not_writesLocalTime_sunday :
    sundayStart.secondCount = ((3957724800 : UInt32).toNat - 2208988800) % 2 ^ 32 ∧
      ¬ WritesLocalTime sundayStart
        (sntpProcessDate ⟨none, 0, 0, 0, 0⟩ 3957724800) ⟨0, 0⟩ := by
  refine ⟨by decide, fun h => ?_⟩
  have hweekDay := h.legalDate.weekDay.1
  exact absurd hweekDay (by decide)

end RtpMulticast
