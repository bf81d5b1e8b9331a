import Mathlib.Data.List.Basic
import Mathlib.Order.Basic

/-!
# The calendar

Days are counted in the proleptic Gregorian calendar, as `datetime.toordinal` does, and a date and a
time of day are one count of seconds.

`ordinal_lt_iff` says that the count orders days as their fields do, the year first.
-/

set_option autoImplicit false

namespace Calendar

/-! ## Days -/

/-- `_is_leap`. -/
def IsLeap (year : Int) : Prop := year % 4 = 0 ∧ (year % 100 ≠ 0 ∨ year % 400 = 0)

instance (year : Int) : Decidable (IsLeap year) := inferInstanceAs (Decidable (_ ∧ _))

/-- `_days_before_year`. -/
def daysBeforeYear (year : Int) : Int :=
  (year - 1) * 365 + (year - 1) / 4 - (year - 1) / 100 + (year - 1) / 400

/-- The days of a month, in a leap year or not. -/
def daysIn (leap : Bool) (month : Nat) : Nat :=
  match month with
  | 2 => if leap then 29 else 28
  | 4 | 6 | 9 | 11 => 30
  | _ => 31

/-- The days before a month. -/
def daysBefore (leap : Bool) : Nat → Nat
  | 0 | 1 => 0
  | month + 2 => daysBefore leap (month + 1) + daysIn leap (month + 1)

/-- `_days_in_month`. -/
def daysInMonth (year : Int) (month : Nat) : Nat := daysIn (decide (IsLeap year)) month

/-- `_days_before_month`. -/
def daysBeforeMonth (year : Int) (month : Nat) : Nat := daysBefore (decide (IsLeap year)) month

/-- `_ymd2ord`. -/
def ordinal (year : Int) (month day : Nat) : Int :=
  daysBeforeYear year + daysBeforeMonth year month + day

/-- `_isoweek1monday`: the Monday of the week that the 4th of January is in. -/
def week1Monday (year : Int) : Int :=
  let firstWeekday := (daysBeforeYear year + 1 + 6) % 7
  daysBeforeYear year + 1 - firstWeekday + if 3 < firstWeekday then 7 else 0

/-- The weeks that a year has. -/
def weeksInYear (year : Int) : Int := (week1Monday (year + 1) - week1Monday year) / 7

theorem daysBeforeYear_succ (year : Int) : daysBeforeYear (year + 1)
    = daysBeforeYear year + 365 + if IsLeap year then 1 else 0 := by
  by_cases h : IsLeap year
  · rw [if_pos h, daysBeforeYear, daysBeforeYear]
    obtain ⟨h4, h100⟩ := h
    omega
  · rw [if_neg h, daysBeforeYear, daysBeforeYear]
    rw [IsLeap, not_and_or, not_or] at h
    omega

theorem daysBeforeYear_mono {year year' : Int} (h : year ≤ year') :
    daysBeforeYear year ≤ daysBeforeYear year' := by
  rw [daysBeforeYear, daysBeforeYear]
  omega

theorem daysBefore_mono (leap : Bool) {month : Nat} : ∀ {month' : Nat}, month < month' →
    1 ≤ month → daysBefore leap month + daysIn leap month ≤ daysBefore leap month'
  | 0, h, _ => absurd h (Nat.not_lt_zero _)
  | 1, h, hpos => absurd h (by omega)
  | month' + 2, h, hpos => by
    rcases Nat.lt_succ_iff_lt_or_eq.1 h with h | rfl
    · exact Nat.le_trans (daysBefore_mono leap h hpos) (Nat.le_add_right _ _)
    · exact Nat.le_refl _

theorem daysBefore_year (leap : Bool) : daysBefore leap 13 = 365 + if leap then 1 else 0 := by
  cases leap <;> rfl

/-- All months are the year. -/
theorem daysBeforeMonth_year (year : Int) :
    daysBeforeYear year + daysBeforeMonth year 13 = daysBeforeYear (year + 1) := by
  rw [daysBeforeYear_succ, daysBeforeMonth, daysBefore_year]
  by_cases hleap : IsLeap year
  · rw [decide_eq_true hleap, if_pos rfl, if_pos hleap]
    omega
  · rw [decide_eq_false hleap, if_neg Bool.false_ne_true, if_neg hleap]
    omega

theorem one_le_daysInMonth (year : Int) (month : Nat) : 1 ≤ daysInMonth year month := by
  rw [daysInMonth, daysIn.eq_def]
  split
  · split <;> decide
  all_goals decide

/-- A day of the calendar. -/
structure ValidDay (year : Int) (month day : Nat) : Prop where
  month_pos : 1 ≤ month
  month_le : month ≤ 12
  day_pos : 1 ≤ day
  day_le : day ≤ daysInMonth year month

namespace ValidDay

variable {year year' : Int} {month month' day day' : Nat}

theorem day_le_thirtyOne (h : ValidDay year month day) : day ≤ 31 := by
  have hdays : daysIn (decide (IsLeap year)) month ≤ 31 := by
    rw [daysIn.eq_def]
    split
    · split <;> decide
    all_goals decide
  exact Nat.le_trans h.day_le hdays

/-- A day of a month comes before the next month. -/
theorem day_lt_of_month_lt (h : ValidDay year month day) (hmonth : month < month') :
    daysBeforeMonth year month + day ≤ daysBeforeMonth year month' :=
  Nat.le_trans (Nat.add_le_add_left h.day_le _) (daysBefore_mono _ hmonth h.month_pos)

/-- A day of a year comes before the next year. -/
theorem ordinal_le (h : ValidDay year month day) :
    ordinal year month day ≤ daysBeforeYear (year + 1) := by
  have hday : daysBeforeMonth year month + day ≤ daysBeforeMonth year 13 :=
    h.day_lt_of_month_lt (Nat.lt_succ_of_le h.month_le)
  rw [ordinal, ← daysBeforeMonth_year]
  omega

theorem lt_ordinal (h : ValidDay year month day) :
    daysBeforeYear year < ordinal year month day := by
  have hday := h.day_pos
  rw [ordinal]
  omega

/-- **Days are counted in the order of their years, months and days.** -/
theorem ordinal_lt (h : ValidDay year month day) (h' : ValidDay year' month' day')
    (hlt : year < year' ∨ year = year' ∧ (month < month' ∨ month = month' ∧ day < day')) :
    ordinal year month day < ordinal year' month' day' := by
  rcases hlt with hyear | ⟨rfl, hmonth | ⟨rfl, hday⟩⟩
  · calc ordinal year month day ≤ daysBeforeYear (year + 1) := h.ordinal_le
      _ ≤ daysBeforeYear year' := daysBeforeYear_mono hyear
      _ < ordinal year' month' day' := h'.lt_ordinal
  · have hday := h.day_lt_of_month_lt hmonth
    have hpos := h'.day_pos
    rw [ordinal, ordinal]
    omega
  · rw [ordinal, ordinal]
    omega

theorem ordinal_lt_iff (h : ValidDay year month day) (h' : ValidDay year' month' day') :
    ordinal year month day < ordinal year' month' day' ↔
      year < year' ∨ year = year' ∧ (month < month' ∨ month = month' ∧ day < day') := by
  refine ⟨fun hlt => ?_, h.ordinal_lt h'⟩
  by_contra hnot
  have hcases : (year' < year ∨ year' = year ∧ (month' < month ∨ month' = month ∧ day' < day)) ∨
      year = year' ∧ month = month' ∧ day = day' := by omega
  rcases hcases with hgt | ⟨rfl, rfl, rfl⟩
  · exact Int.lt_irrefl _ (Int.lt_trans hlt (h'.ordinal_lt h hgt))
  · exact Int.lt_irrefl _ hlt

theorem ordinal_eq_iff (h : ValidDay year month day) (h' : ValidDay year' month' day') :
    ordinal year month day = ordinal year' month' day' ↔
      year = year' ∧ month = month' ∧ day = day' := by
  have hlt := h.ordinal_lt_iff h'
  have hgt := h'.ordinal_lt_iff h
  omega

/-- The first day of a month, or of the next year. -/
theorem firstDay_le_iff (h' : ValidDay year' month' day') (k : Nat) :
    ordinal year (min (k + 1) 13) 1 ≤ ordinal year' month' day' ↔
      year < year' ∨ year = year' ∧ k < month' := by
  by_cases hk : k < 12
  · have h : ValidDay year (k + 1) 1 :=
      ⟨Nat.le_add_left 1 k, hk, Nat.le_refl 1, one_le_daysInMonth year (k + 1)⟩
    have hlt := h'.ordinal_lt_iff h
    have hpos := h'.day_pos
    rw [Nat.min_eq_left (by omega)]
    omega
  · have hle := h'.ordinal_le
    have hlt := h'.lt_ordinal
    have hmonth := h'.month_le
    have hstart : ordinal year (min (k + 1) 13) 1 = daysBeforeYear (year + 1) + 1 := by
      rw [Nat.min_eq_right (by omega), ordinal, daysBeforeMonth_year]
      rfl
    rw [hstart]
    constructor
    · intro h
      refine .inl (Int.not_le.1 fun hyear => ?_)
      have := daysBeforeYear_mono (Int.add_le_add_right hyear 1)
      omega
    · intro h
      have := daysBeforeYear_mono (show year + 1 ≤ year' by omega)
      omega

end ValidDay

/-! ## Dates and times -/

/-- A date and a time of day, to the second. -/
structure Civil where
  year : Nat
  month : Nat
  day : Nat
  hour : Nat
  minute : Nat
  second : Nat
  year_lt : year < 10000
  valid : ValidDay year month day
  hour_lt : hour < 24
  minute_lt : minute < 60
  second_lt : second < 60

namespace Civil

/-- The seconds up to here. -/
def seconds (c : Civil) : Int :=
  ((ordinal c.year c.month c.day * 24 + c.hour) * 60 + c.minute) * 60 + c.second

end Civil

end Calendar
