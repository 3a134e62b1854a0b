import Mathlib.Order.Monotone.Basic
import Mathlib.Tactic.Common

/-!
# The calendar

Dates of the proleptic Gregorian calendar, as the `datetime` module of Python counts them.

* `daysInMonth`, `daysBeforeMonth`, `daysBeforeYear` : the lengths and starts of months and years;
* `DateTime` : a date and a time of day that exist; `DateTime.seconds` : its place on the time line;
* `month_le_of_seconds_le`, `year_le_of_seconds_le` : a later time is of no earlier year, nor month of a year;
* `year_eq_of_within` : the year of a time within the last 365 days, from its month.
-/

namespace OciHpc

/-! ## Months and years -/

def isLeap (year : Nat) : Bool := year % 4 = 0 && (year % 100 ≠ 0 || year % 400 = 0)

def leapDay (year : Nat) : Nat := if isLeap year then 1 else 0

def commonDays : Nat → Nat
  | 2 => 28
  | 4 | 6 | 9 | 11 => 30
  | 1 | 3 | 5 | 7 | 8 | 10 | 12 => 31
  | _ => 0

def daysInMonth (year month : Nat) : Nat := commonDays month + if month = 2 then leapDay year else 0

def daysBeforeMonth (year : Nat) : Nat → Nat
  | 0 => 0
  | month + 1 => daysBeforeMonth year month + daysInMonth year month

def daysBeforeYear (year : Nat) : Nat :=
  let before := year - 1
  365 * before + before / 4 - before / 100 + before / 400

theorem leapDay_le (year : Nat) : leapDay year ≤ 1 := by
  unfold leapDay
  split <;> omega

/-- A quotient grows at the multiples of the divisor. -/
theorem succ_div_eq (n k : Nat) : (n + 1) / k = n / k + if (n + 1) % k = 0 then 1 else 0 := by
  split
  case isTrue h => exact Nat.succ_div_of_mod_eq_zero h
  case isFalse h => exact Nat.succ_div_of_mod_ne_zero h

theorem daysBeforeYear_succ (year : Nat) (h : 1 ≤ year) :
    daysBeforeYear (year + 1) = daysBeforeYear year + 365 + leapDay year := by
  obtain ⟨before, rfl⟩ := Nat.exists_eq_add_of_le' h
  have hfour := succ_div_eq before 4
  have hcentury := succ_div_eq before 100
  have hfourth := succ_div_eq before 400
  have hcentury_four : (before + 1) % 100 = 0 → (before + 1) % 4 = 0 := by omega
  have hfourth_century : (before + 1) % 400 = 0 → (before + 1) % 100 = 0 := by omega
  have hle : before / 100 ≤ before / 4 := Nat.div_le_div_left (by decide) (by decide)
  unfold daysBeforeYear leapDay isLeap
  simp only [Nat.add_sub_cancel, Bool.and_eq_true, Bool.or_eq_true, decide_eq_true_eq, ne_eq, decide_not,
    Bool.not_eq_true', decide_eq_false_iff_not]
  rw [hfour, hcentury, hfourth]
  generalize before / 4 = q at *
  generalize before / 100 = c at *
  generalize before / 400 = f at *
  generalize (before + 1) % 4 = r at *
  generalize (before + 1) % 100 = r' at *
  generalize (before + 1) % 400 = r'' at *
  clear hfour hcentury hfourth
  split_ifs <;> omega

theorem daysBeforeMonth_eq (year month : Nat) :
    daysBeforeMonth year month = daysBeforeMonth 1 month + if 2 < month then leapDay year else 0 := by
  induction month with
  | zero => rfl
  | succ n ih =>
    have hleap : leapDay 1 = 0 := by decide
    rw [daysBeforeMonth, daysBeforeMonth, ih, daysInMonth, daysInMonth, hleap]
    split <;> split <;> split <;> omega

theorem daysBeforeMonth_mono (year : Nat) : Monotone (daysBeforeMonth year) :=
  monotone_nat_of_le_succ fun _ => Nat.le_add_right _ _

/-- A year ends with its last month. -/
theorem daysBeforeMonth_le (year : Nat) {month : Nat} (h : month ≤ 13) :
    daysBeforeMonth year month ≤ 365 + leapDay year := by
  have hyear : daysBeforeMonth 1 13 = 365 := by decide
  have hlast : daysBeforeMonth year 13 = 365 + leapDay year := by
    rw [daysBeforeMonth_eq, hyear, if_pos (by decide)]
  exact hlast ▸ daysBeforeMonth_mono year h

/-! ## Dates and times -/

structure DateTime where
  year : Nat
  month : Nat
  day : Nat
  hour : Nat
  minute : Nat
  second : Nat
  year_pos : 1 ≤ year
  month_pos : 1 ≤ month
  month_le : month ≤ 12
  day_pos : 1 ≤ day
  day_le : day ≤ daysInMonth year month
  hour_lt : hour < 24
  minute_lt : minute < 60
  second_lt : second < 60
  deriving DecidableEq

namespace DateTime
variable (t : DateTime)

/-- `date.toordinal()`. -/
def ordinal : Nat := daysBeforeYear t.year + daysBeforeMonth t.year t.month + t.day

def timeOfDay : Nat := t.hour * 3600 + t.minute * 60 + t.second

/-- The seconds since the calendar began. -/
def seconds : Nat := t.ordinal * 86400 + t.timeOfDay

theorem timeOfDay_lt : t.timeOfDay < 86400 := by
  have hhour := t.hour_lt
  have hminute := t.minute_lt
  have hsecond := t.second_lt
  unfold timeOfDay
  omega

/-- A date is after the months before its own, and no later than the end of its month. -/
theorem ordinal_month : daysBeforeYear t.year + daysBeforeMonth t.year t.month < t.ordinal ∧
    t.ordinal ≤ daysBeforeYear t.year + daysBeforeMonth t.year (t.month + 1) := by
  have hpos := t.day_pos
  have hle := t.day_le
  unfold ordinal
  rw [daysBeforeMonth]
  omega

theorem ordinal_year : daysBeforeYear t.year < t.ordinal ∧ t.ordinal ≤ daysBeforeYear (t.year + 1) := by
  have hmonth := t.ordinal_month
  have hlast := daysBeforeMonth_le t.year (show t.month + 1 ≤ 13 from Nat.succ_le_succ t.month_le)
  have hnext := daysBeforeYear_succ t.year t.year_pos
  omega

end DateTime

theorem daysBeforeYear_mono {year later : Nat} (h : year ≤ later) (hpos : 1 ≤ year) :
    daysBeforeYear year ≤ daysBeforeYear later := by
  induction later, h using Nat.le_induction with
  | base => exact Nat.le_refl _
  | succ later hle ih =>
    have hnext := daysBeforeYear_succ later (hpos.trans hle)
    omega

section
variable {t now : DateTime}

theorem ordinal_le_of_seconds_le (h : t.seconds ≤ now.seconds) : t.ordinal ≤ now.ordinal := by
  have hlt := now.timeOfDay_lt
  unfold DateTime.seconds at h
  omega

theorem year_le_of_seconds_le (h : t.seconds ≤ now.seconds) : t.year ≤ now.year := by
  by_contra hlater
  have hord := ordinal_le_of_seconds_le h
  have hmono := daysBeforeYear_mono (show now.year + 1 ≤ t.year from Nat.not_le.mp hlater) (Nat.succ_pos _)
  have hnow := now.ordinal_year
  have ht := t.ordinal_year
  omega

theorem month_le_of_seconds_le (h : t.seconds ≤ now.seconds) (hyear : t.year = now.year) : t.month ≤ now.month := by
  by_contra hlater
  have hord := ordinal_le_of_seconds_le h
  have hmono := daysBeforeMonth_mono now.year (show now.month + 1 ≤ t.month from Nat.not_le.mp hlater)
  have hnow := now.ordinal_month
  have ht := t.ordinal_month
  rw [hyear] at ht
  omega

/-- Within 365 days, a time of an earlier year is of the year before, in the same month or a later one. -/
theorem year_of_within (hyear : t.year < now.year) (hwithin : now.seconds ≤ t.seconds + 365 * 86400) :
    t.year + 1 = now.year ∧ now.month ≤ t.month := by
  have hlt := t.timeOfDay_lt
  have hdays : now.ordinal ≤ t.ordinal + 365 := by
    unfold DateTime.seconds at hwithin
    omega
  have hnow := now.ordinal_month
  have ht := t.ordinal_month
  have hbefore := t.ordinal_year
  have hnext := daysBeforeYear_succ t.year t.year_pos
  constructor
  · by_contra hne
    have hgap : t.year + 1 + 1 ≤ now.year := by omega
    have hmono := daysBeforeYear_mono hgap (by omega)
    have hsecond := daysBeforeYear_succ (t.year + 1) (Nat.succ_pos _)
    omega
  · by_contra hmonth
    have hlater : t.month + 1 ≤ now.month := by omega
    have hsucc : now.year = t.year + 1 ∨ t.year + 1 + 1 ≤ now.year := by omega
    rcases hsucc with hsucc | hgap
    · have hmono := daysBeforeMonth_mono t.year hlater
      rw [daysBeforeMonth_eq t.year now.month] at hmono
      rw [hsucc, daysBeforeMonth_eq (t.year + 1)] at hnow
      have hleap := leapDay_le t.year
      split at hnow <;> split at hmono <;> omega
    · have hmono := daysBeforeYear_mono hgap (by omega)
      have hsecond := daysBeforeYear_succ (t.year + 1) (Nat.succ_pos _)
      omega

/-- The same day and time in a later year is later. -/
theorem seconds_lt_of_year_lt (hyear : t.year < now.year) : t.seconds < now.seconds := by
  by_contra hle
  exact absurd (year_le_of_seconds_le (Nat.not_lt.mp hle)) (by omega)

end

end OciHpc
