import Mathlib.Algebra.Order.Group.Int
import Mathlib.Order.Interval.Set.Monotone
import Mathlib.Data.Int.ConditionallyCompleteOrder
import Mathlib.Data.Int.SuccPred
import Mathlib.Order.SuccPred.IntervalSucc
import Mathlib.Tactic.Ring

/-!
# The proleptic Gregorian calendar

Dates are counted from the first of January of the year 1, which is day 1 and a
Monday, and seconds from the start of 1970.  Only dates and times that exist can
be built, and each of them has a count of its own.
-/

namespace Calendar

/-- A year that is divisible by 4 and not by 100, or by 400. -/
def IsLeap (year : ℤ) : Prop := (4 ∣ year ∧ ¬ 100 ∣ year) ∨ 400 ∣ year

instance : DecidablePred IsLeap := fun _ => inferInstanceAs (Decidable (_ ∨ _))

def daysInYear (year : ℤ) : ℕ := if IsLeap year then 366 else 365

def daysInMonth (year : ℤ) (month : ℕ) : ℕ :=
  if month = 2 then if IsLeap year then 29 else 28
  else if month = 4 ∨ month = 6 ∨ month = 9 ∨ month = 11 then 30
  else 31

/-- The days from the first of January of the year 1 on. -/
def daysBeforeYear (year : ℤ) : ℤ :=
  365 * (year - 1) + (year - 1) / 4 - (year - 1) / 100 + (year - 1) / 400

/-- The days of the first `k` months. -/
def daysOfMonths (year : ℤ) : ℕ → ℕ
  | 0 => 0
  | k + 1 => daysOfMonths year k + daysInMonth year (k + 1)

/-! ## Dates and times -/

@[ext] structure Date where
  year : ℤ
  month : ℕ
  day : ℕ
  month_mem : 1 ≤ month ∧ month ≤ 12
  day_mem : 1 ≤ day ∧ day ≤ daysInMonth year month

namespace Date

def rataDie (d : Date) : ℤ :=
  daysBeforeYear d.year + daysOfMonths d.year (d.month - 1) + d.day

/-- The day of the week, 0 for Sunday. -/
def weekday (d : Date) : ℕ := (d.rataDie % 7).toNat

end Date

@[ext] structure DateTime extends Date where
  hour : ℕ
  minute : ℕ
  second : ℕ
  hour_lt : hour < 24
  minute_lt : minute < 60
  second_lt : second < 60

/-- The seconds since 1970-01-01 00:00:00. -/
def DateTime.secondCount (d : DateTime) : ℤ :=
  (d.rataDie - 719163) * 86400 + d.hour * 3600 + d.minute * 60 + d.second

/-! ## Years and months -/

section Lengths

variable {year : ℤ}

theorem daysBeforeYear_succ (year : ℤ) :
    daysBeforeYear (year + 1) = daysBeforeYear year + daysInYear year := by
  unfold daysBeforeYear daysInYear
  split_ifs with hleap
  · unfold IsLeap at hleap
    push_cast
    omega
  · unfold IsLeap at hleap
    push_cast
    omega

theorem daysBeforeYear_mono : Monotone daysBeforeYear := by
  apply monotone_int_of_le_succ
  intro year
  rw [daysBeforeYear_succ]
  omega

theorem daysOfMonths_succ (year : ℤ) (k : ℕ) :
    daysOfMonths year (k + 1) = daysOfMonths year k + daysInMonth year (k + 1) := rfl

theorem daysOfMonths_mono (year : ℤ) : Monotone (daysOfMonths year) := by
  apply monotone_nat_of_le_succ
  intro k
  exact Nat.le_add_right _ _

theorem daysOfMonths_twelve (year : ℤ) : daysOfMonths year 12 = daysInYear year := by
  by_cases hleap : IsLeap year
  · simp [daysOfMonths, daysInMonth, daysInYear, hleap]
  · simp [daysOfMonths, daysInMonth, daysInYear, hleap]

end Lengths

/-! ## Counting -/

namespace Date

variable {d d' : Date}

/-- The day of the year lies in its month. -/
theorem yearDay_mem (d : Date) :
    daysOfMonths d.year (d.month - 1) + d.day ∈
      Set.Ioc (daysOfMonths d.year (d.month - 1))
        (daysOfMonths d.year (Order.succ (d.month - 1))) := by
  obtain ⟨hpos, hle⟩ := d.day_mem
  obtain ⟨hmonth, -⟩ := d.month_mem
  have hsucc : d.month - 1 + 1 = d.month := by omega
  rw [Order.succ_eq_add_one, daysOfMonths_succ, hsucc]
  constructor <;> omega

/-- The day lies in its year. -/
theorem rataDie_mem (d : Date) :
    d.rataDie ∈ Set.Ioc (daysBeforeYear d.year) (daysBeforeYear (Order.succ d.year)) := by
  obtain ⟨hlow, hhigh⟩ := d.yearDay_mem
  have hmonths := daysOfMonths_mono d.year
    (show Order.succ (d.month - 1) ≤ 12 by
      have := d.month_mem
      rw [Order.succ_eq_add_one]
      omega)
  rw [daysOfMonths_twelve] at hmonths
  rw [Order.succ_eq_add_one, daysBeforeYear_succ]
  unfold rataDie
  constructor <;> omega

theorem rataDie_injective (h : d.rataDie = d'.rataDie) : d = d' := by
  have hyear : d.year = d'.year := by
    by_contra hne
    have hdisjoint := daysBeforeYear_mono.pairwise_disjoint_on_Ioc_succ hne
    exact Set.disjoint_left.mp hdisjoint d.rataDie_mem (h ▸ d'.rataDie_mem)
  have hyearDay : daysOfMonths d.year (d.month - 1) + d.day =
      daysOfMonths d'.year (d'.month - 1) + d'.day := by
    unfold rataDie at h
    rw [hyear] at h ⊢
    omega
  have hmonth : d.month - 1 = d'.month - 1 := by
    by_contra hne
    have hdisjoint := (daysOfMonths_mono d.year).pairwise_disjoint_on_Ioc_succ hne
    have hmem := d'.yearDay_mem
    rw [← hyearDay, ← hyear] at hmem
    exact Set.disjoint_left.mp hdisjoint d.yearDay_mem hmem
  have hday : d.day = d'.day := by
    rw [hyear, hmonth] at hyearDay
    omega
  have := d.month_mem
  have := d'.month_mem
  exact Date.ext hyear (by omega) hday

theorem day_le (d : Date) : d.day ≤ 31 := by
  have hlen : daysInMonth d.year d.month ≤ 31 := by
    unfold daysInMonth
    split_ifs <;> decide
  exact d.day_mem.2.trans hlen

theorem weekday_lt (d : Date) : d.weekday < 7 := by
  unfold weekday
  omega

end Date

/-- A time of a date is known by its seconds. -/
theorem DateTime.secondCount_injective {d d' : DateTime}
    (h : d.secondCount = d'.secondCount) : d = d' := by
  have := d.hour_lt
  have := d.minute_lt
  have := d.second_lt
  have := d'.hour_lt
  have := d'.minute_lt
  have := d'.second_lt
  unfold secondCount at h
  have hdate : d.toDate = d'.toDate := Date.rataDie_injective (by omega)
  rw [hdate] at h
  have hyear := congrArg Date.year hdate
  have hmonth := congrArg Date.month hdate
  have hday := congrArg Date.day hdate
  exact DateTime.ext hyear hmonth hday (by omega) (by omega) (by omega)

/-- The first of January 1970 was a Thursday. -/
example :
    let d : Date := ⟨1970, 1, 1, by decide, by decide⟩
    d.rataDie = 719163 ∧ d.weekday = 4 := by decide

end Calendar
