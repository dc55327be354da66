import RtpMulticast.Support.ByteBuffer

/-!
# The calendar registers of the RTC

`HAL_RTC_SetTime` and `HAL_RTC_SetDate` write the fields of a time and a date as
binary-coded decimals into one register each, and `HAL_RTC_GetTime` and
`HAL_RTC_GetDate` read them.  The RTC counts 24 hours.
-/

namespace RtpMulticast

open ByteBuffer

/-- `RTC_TimeTypeDef`, the fields that are set and got here. -/
structure RtcTime where
  hours : UInt8
  minutes : UInt8
  seconds : UInt8
  timeFormat : UInt8
  deriving DecidableEq, Repr

/-- `RTC_DateTypeDef`. -/
structure RtcDate where
  weekDay : UInt8
  month : UInt8
  date : UInt8
  year : UInt8
  deriving DecidableEq, Repr

/-- `RTC->TR` and `RTC->DR`. -/
structure RtcRegisters where
  tr : UInt32
  dr : UInt32
  deriving DecidableEq, Repr

/-- `IS_RTC_HOUR24`, `IS_RTC_MINUTES` and `IS_RTC_SECONDS`. -/
structure RtcTime.Legal (t : RtcTime) : Prop where
  hours : t.hours ≤ 23
  minutes : t.minutes ≤ 59
  seconds : t.seconds ≤ 59

/-- `IS_RTC_WEEKDAY`, `IS_RTC_YEAR`, `IS_RTC_MONTH` and `IS_RTC_DATE`; Monday is 1 and
Sunday 7. -/
structure RtcDate.Legal (d : RtcDate) : Prop where
  weekDay : 1 ≤ d.weekDay ∧ d.weekDay ≤ 7
  year : d.year ≤ 99
  month : 1 ≤ d.month ∧ d.month ≤ 12
  date : 1 ≤ d.date ∧ d.date ≤ 31

/-! ## Binary-coded decimals -/

/-- The loop of `RTC_ByteToBcd2`, for at most the given number of rounds. -/
def bcdLoop : ℕ → UInt32 → UInt8 → UInt32 × UInt8
  | 0, bcdHigh, tmpValue => (bcdHigh, tmpValue)
  | n + 1, bcdHigh, tmpValue =>
      if 10 ≤ tmpValue then bcdLoop n (bcdHigh + 1) (tmpValue - 10)
      else (bcdHigh, tmpValue)

/-- A byte has no more than 25 tens. -/
def rtcByteToBcd2 (value : UInt8) : UInt8 :=
  let bcd := bcdLoop 25 0 value
  (bcd.1 <<< 4).toUInt8 ||| bcd.2

def rtcBcd2ToByte (value : UInt8) : UInt8 :=
  let tmp := ((value.toUInt32 &&& 0xF0) >>> 4) * 10
  (tmp + (value.toUInt32 &&& 0x0F)).toUInt8

/-! ## The registers -/

/-- `HAL_RTC_SetTime` with `RTC_FORMAT_BIN`, when the RTC enters its initialization
mode. -/
def halRtcSetTime (regs : RtcRegisters) (t : RtcTime) : RtcRegisters :=
  let timeFormat : UInt8 := 0
  { regs with
    tr := ((rtcByteToBcd2 t.hours).toUInt32 <<< 16 |||
      (rtcByteToBcd2 t.minutes).toUInt32 <<< 8 |||
      (rtcByteToBcd2 t.seconds).toUInt32 <<< 0 |||
      timeFormat.toUInt32 <<< 22) &&& 0x7F7F7F }

def halRtcGetTime (regs : RtcRegisters) : RtcTime :=
  let tmpreg := regs.tr &&& 0x7F7F7F
  { hours := rtcBcd2ToByte ((tmpreg &&& 0x3F0000) >>> 16).toUInt8
    minutes := rtcBcd2ToByte ((tmpreg &&& 0x7F00) >>> 8).toUInt8
    seconds := rtcBcd2ToByte ((tmpreg &&& 0x7F) >>> 0).toUInt8
    timeFormat := ((tmpreg &&& 0x400000) >>> 22).toUInt8 }

/-- `HAL_RTC_SetDate` with `RTC_FORMAT_BIN`, when the RTC enters its initialization
mode. -/
def halRtcSetDate (regs : RtcRegisters) (d : RtcDate) : RtcRegisters :=
  let month := if d.month &&& 0x10 = 0x10 then (d.month &&& 0xEF) + 0x0A else d.month
  { regs with
    dr := ((rtcByteToBcd2 d.year).toUInt32 <<< 16 |||
      (rtcByteToBcd2 month).toUInt32 <<< 8 |||
      (rtcByteToBcd2 d.date).toUInt32 <<< 0 |||
      d.weekDay.toUInt32 <<< 13) &&& 0xFFFF3F }

def halRtcGetDate (regs : RtcRegisters) : RtcDate :=
  let datetmpreg := regs.dr &&& 0xFFFF3F
  { year := rtcBcd2ToByte ((datetmpreg &&& 0xFF0000) >>> 16).toUInt8
    month := rtcBcd2ToByte ((datetmpreg &&& 0x1F00) >>> 8).toUInt8
    date := rtcBcd2ToByte ((datetmpreg &&& 0x3F) >>> 0).toUInt8
    weekDay := ((datetmpreg &&& 0xE000) >>> 13).toUInt8 }

/-! ## Reading back what was written -/

section Fields

theorem or_and_distrib (a b mask : UInt32) :
    (a ||| b) &&& mask = (a &&& mask) ||| (b &&& mask) := by
  apply UInt32.toNat_inj.mp
  simp only [UInt32.toNat_and, UInt32.toNat_or]
  exact Nat.and_or_distrib_right _ _ _

/-- A field behind the mask of the register. -/
theorem and_field {reserved mask : UInt32} (h : reserved &&& (reserved &&& mask) = mask)
    (w : UInt32) : w &&& reserved &&& reserved &&& mask = w &&& mask := by
  rw [UInt32.and_assoc, UInt32.and_assoc, h]

/-- The image of a byte at a position of a register: its own field holds all of it,
and the other fields nothing. -/
def ImageIn (image : UInt32) (own : UInt32) (others : List UInt32) : Prop :=
  image &&& own = image ∧ ∀ mask ∈ others, image &&& mask = 0

instance (image own : UInt32) (others : List UInt32) :
    Decidable (ImageIn image own others) :=
  @instDecidableAnd _ _ _ (List.decidableBAll _ others)

set_option maxRecDepth 4000 in
theorem hours_image : ∀ v : UInt8, v ≤ 23 →
    ImageIn ((rtcByteToBcd2 v).toUInt32 <<< 16) 0x3F0000 [0x7F00, 0x7F] ∧
      rtcBcd2ToByte ((rtcByteToBcd2 v).toUInt32 <<< 16 >>> 16).toUInt8 = v :=
  forall_byte (by decide)

set_option maxRecDepth 4000 in
theorem minutes_image : ∀ v : UInt8, v ≤ 59 →
    ImageIn ((rtcByteToBcd2 v).toUInt32 <<< 8) 0x7F00 [0x3F0000, 0x7F] ∧
      rtcBcd2ToByte ((rtcByteToBcd2 v).toUInt32 <<< 8 >>> 8).toUInt8 = v :=
  forall_byte (by decide)

set_option maxRecDepth 4000 in
theorem seconds_image : ∀ v : UInt8, v ≤ 59 →
    ImageIn ((rtcByteToBcd2 v).toUInt32 <<< 0) 0x7F [0x3F0000, 0x7F00] ∧
      rtcBcd2ToByte ((rtcByteToBcd2 v).toUInt32 <<< 0 >>> 0).toUInt8 = v :=
  forall_byte (by decide)

theorem timeFormat_image :
    ∀ mask ∈ ([0x3F0000, 0x7F00, 0x7F] : List UInt32),
      (0 : UInt8).toUInt32 <<< 22 &&& mask = 0 := by
  simp only [List.forall_mem_cons, List.not_mem_nil, false_implies, implies_true]
  decide

set_option maxRecDepth 4000 in
theorem year_image : ∀ v : UInt8, v ≤ 99 →
    ImageIn ((rtcByteToBcd2 v).toUInt32 <<< 16) 0xFF0000 [0x1F00, 0x3F, 0xE000] ∧
      rtcBcd2ToByte ((rtcByteToBcd2 v).toUInt32 <<< 16 >>> 16).toUInt8 = v :=
  forall_byte (by decide)

set_option maxRecDepth 4000 in
theorem month_image : ∀ v : UInt8, v ≤ 12 →
    ImageIn ((rtcByteToBcd2 v).toUInt32 <<< 8) 0x1F00 [0xFF0000, 0x3F, 0xE000] ∧
      rtcBcd2ToByte ((rtcByteToBcd2 v).toUInt32 <<< 8 >>> 8).toUInt8 = v ∧
      v &&& 0x10 ≠ 0x10 :=
  forall_byte (by decide)

set_option maxRecDepth 4000 in
theorem date_image : ∀ v : UInt8, v ≤ 31 →
    ImageIn ((rtcByteToBcd2 v).toUInt32 <<< 0) 0x3F [0xFF0000, 0x1F00, 0xE000] ∧
      rtcBcd2ToByte ((rtcByteToBcd2 v).toUInt32 <<< 0 >>> 0).toUInt8 = v :=
  forall_byte (by decide)

set_option maxRecDepth 4000 in
theorem weekDay_image : ∀ v : UInt8, v ≤ 7 →
    ImageIn (v.toUInt32 <<< 13) 0xE000 [0xFF0000, 0x1F00, 0x3F] ∧
      (v.toUInt32 <<< 13 >>> 13).toUInt8 = v :=
  forall_byte (by decide)

end Fields

section ReadBack

variable (regs : RtcRegisters)

/-- A legal time is read back as it was written. -/
theorem halRtcGetTime_set {t : RtcTime} (h : t.Legal) :
    (halRtcGetTime (halRtcSetTime regs t)).hours = t.hours ∧
      (halRtcGetTime (halRtcSetTime regs t)).minutes = t.minutes ∧
      (halRtcGetTime (halRtcSetTime regs t)).seconds = t.seconds := by
  obtain ⟨⟨hh, hothers⟩, hback⟩ := hours_image t.hours h.hours
  obtain ⟨⟨mm, mothers⟩, mback⟩ := minutes_image t.minutes h.minutes
  obtain ⟨⟨ss, sothers⟩, sback⟩ := seconds_image t.seconds h.seconds
  have hzero := timeFormat_image
  simp only [List.forall_mem_cons] at hothers mothers sothers hzero
  refine ⟨?_, ?_, ?_⟩
  · simp only [halRtcGetTime, halRtcSetTime]
    rw [and_field (by decide), or_and_distrib, or_and_distrib, or_and_distrib, hh,
      mothers.1, sothers.1, hzero.1, UInt32.or_zero, UInt32.or_zero, UInt32.or_zero, hback]
  · simp only [halRtcGetTime, halRtcSetTime]
    rw [and_field (by decide), or_and_distrib, or_and_distrib, or_and_distrib, mm,
      hothers.1, sothers.2.1, hzero.2.1, UInt32.zero_or, UInt32.or_zero, UInt32.or_zero,
      mback]
  · simp only [halRtcGetTime, halRtcSetTime]
    rw [and_field (by decide), or_and_distrib, or_and_distrib, or_and_distrib, ss,
      hothers.2.1, mothers.2.1, hzero.2.2.1, UInt32.zero_or, UInt32.zero_or,
      UInt32.or_zero, sback]

/-- A date is read back as it was written, also when its weekday is 0. -/
theorem halRtcGetDate_set {d : RtcDate} (hyear : d.year ≤ 99) (hmonth : d.month ≤ 12)
    (hdate : d.date ≤ 31) (hweekDay : d.weekDay ≤ 7) :
    halRtcGetDate (halRtcSetDate regs d) = d := by
  obtain ⟨⟨yy, yothers⟩, yback⟩ := year_image d.year hyear
  obtain ⟨⟨mm, mothers⟩, mback, hbcd⟩ := month_image d.month hmonth
  obtain ⟨⟨dd, dothers⟩, dback⟩ := date_image d.date hdate
  obtain ⟨⟨ww, wothers⟩, wback⟩ := weekDay_image d.weekDay hweekDay
  simp only [List.forall_mem_cons] at yothers mothers dothers wothers
  simp only [halRtcGetDate, halRtcSetDate, if_neg hbcd]
  rw [and_field (by decide), and_field (by decide), and_field (by decide),
    and_field (by decide)]
  simp only [or_and_distrib, yy, yothers, mm, mothers, dd, dothers, ww, wothers,
    UInt32.or_zero, UInt32.zero_or, yback, mback, dback, wback]

end ReadBack

end RtpMulticast
