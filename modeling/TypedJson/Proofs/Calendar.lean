import TypedJson.Calendar
import Mathlib.Order.Monotone.Basic
import Mathlib.Logic.Function.Iterate
import Mathlib.Tactic.IntervalCases

/-!
# Day numbers count days

The day after a day is the next day of the month, or else the first of the next month, or else the first of
the next year (`Day.next`).  Its number is greater by one (`number_next`), and different days have different
numbers (`number_injective`), so the number of a day is the number of steps from 1970-01-01 to it, negative
for steps from it to 1970-01-01 (`daysFromEpoch_iff`), and every number is that of a day (`number_surjective`).

Numbers of days are taken apart into the number of the first day of the year and the place in the year
(`dayNumber_eq`), and of the place one needs that months do not overlap (`daysBeforeMonth_mono`).
-/

namespace TypedJson.Calendar

variable {year : Int} {month day : Nat}

/-! ### Months -/

theorem daysInMonth_pos_iff : 0 < daysInMonth year month ↔ 1 ≤ month ∧ month ≤ 12 := by
  constructor
  · intro h
    by_contra hmonth
    unfold daysInMonth at h
    split at h <;> omega
  · rintro ⟨hfirst, hlast⟩
    interval_cases month <;> grind [daysInMonth]

theorem daysInMonth_le (year : Int) (month : Nat) : daysInMonth year month ≤ 31 := by
  unfold daysInMonth
  split <;> grind

theorem isDay_iff : isDay year month day = true ↔ 1 ≤ day ∧ day ≤ daysInMonth year month := by
  simp [isDay]

theorem month_of_isDay (h : isDay year month day = true) : 1 ≤ month ∧ month ≤ 12 := by
  obtain ⟨hpos, hle⟩ := isDay_iff.mp h
  exact daysInMonth_pos_iff.mp (Nat.lt_of_lt_of_le hpos hle)

theorem daysBeforeMonth_succ (year : Int) (month : Nat) :
    daysBeforeMonth year (month + 1) = daysBeforeMonth year month + daysInMonth year month := rfl

@[simp]
theorem daysBeforeMonth_one (year : Int) : daysBeforeMonth year 1 = 0 := rfl

theorem daysBeforeMonth_mono (year : Int) : Monotone (daysBeforeMonth year) :=
  monotone_nat_of_le_succ fun _ => Nat.le_add_right _ _

/-! ### Years -/

/-- The months of a year make 365 days, or 366 in a leap year. -/
theorem daysBeforeMonth_thirteen (year : Int) :
    daysBeforeMonth year 13 = 365 + if isLeapYear year then 1 else 0 := by
  simp only [daysBeforeMonth, daysInMonth]
  split <;> rfl

/-- Every leap year counts once. -/
theorem leapYearsBefore_succ (year : Int) :
    leapYearsBefore (year + 1) = leapYearsBefore year + if isLeapYear year then 1 else 0 := by
  simp only [leapYearsBefore, isLeapYear, Bool.and_eq_true, Bool.or_eq_true, Bool.not_eq_true',
    decide_eq_true_eq, decide_eq_false_iff_not]
  split <;> omega

/-- The number of a day is that of the first day of the year and its place in the year. -/
theorem dayNumber_eq (year : Int) (month day : Nat) :
    dayNumber year month day = dayNumber year 1 1 + daysBeforeMonth year month + day - 1 := by
  unfold dayNumber
  rw [daysBeforeMonth_one]
  omega

theorem dayNumber_next_year (year : Int) :
    dayNumber (year + 1) 1 1 = dayNumber year 1 1 + daysBeforeMonth year 13 := by
  unfold dayNumber
  rw [daysBeforeMonth_one, daysBeforeMonth_one, leapYearsBefore_succ, daysBeforeMonth_thirteen]
  split <;> omega

theorem dayNumber_year_mono {first last : Int} (h : first ≤ last) :
    dayNumber first 1 1 ≤ dayNumber last 1 1 := by
  unfold dayNumber leapYearsBefore
  rw [daysBeforeMonth_one, daysBeforeMonth_one]
  omega

/-- A day lies before the next month and in its year. -/
theorem place_of_isDay (h : isDay year month day = true) :
    daysBeforeMonth year month + day ≤ daysBeforeMonth year (month + 1) ∧
      daysBeforeMonth year (month + 1) ≤ daysBeforeMonth year 13 := by
  rw [daysBeforeMonth_succ]
  exact ⟨Nat.add_le_add_left (isDay_iff.mp h).2 _,
    daysBeforeMonth_mono year (Nat.succ_le_succ (month_of_isDay h).2)⟩

/-- A day lies between the first day of its year and that of the next. -/
theorem dayNumber_mem_year (h : isDay year month day = true) :
    dayNumber year 1 1 ≤ dayNumber year month day ∧
      dayNumber year month day < dayNumber (year + 1) 1 1 := by
  obtain ⟨hmonth, hyear⟩ := place_of_isDay h
  have hpos := (isDay_iff.mp h).1
  rw [dayNumber_eq year month day, dayNumber_next_year]
  omega

/-! ### Days -/

/-- **An existing day.** -/
structure Day where
  year : Int
  month : Nat
  day : Nat
  isDay : isDay year month day = true

namespace Day

/-- The day from which days are counted. -/
def epoch : Day := ⟨1970, 1, 1, rfl⟩

/-- **The day after**: the next one of the month, or else the first one of the next month, or else the first
one of the next year. -/
def next (d : Day) : Day :=
  if h : Calendar.isDay d.year d.month (d.day + 1) = true then ⟨d.year, d.month, d.day + 1, h⟩
  else if h : Calendar.isDay d.year (d.month + 1) 1 = true then ⟨d.year, d.month + 1, 1, h⟩
  else ⟨d.year + 1, 1, 1, rfl⟩

/-- The number of the day. -/
def number (d : Day) : Int := dayNumber d.year d.month d.day

/-- **The day after has the next number.** -/
theorem number_next (d : Day) : d.next.number = d.number + 1 := by
  obtain ⟨year, month, day, hday⟩ := d
  obtain ⟨hpos, hle⟩ := isDay_iff.mp hday
  have hmonth := month_of_isDay hday
  have hplace := dayNumber_eq year month day
  unfold next number
  dsimp only
  split
  · rw [dayNumber_eq year month (day + 1), hplace]
    omega
  · next hlast =>
    have hday : day = daysInMonth year month := by
      rw [isDay_iff] at hlast
      omega
    have hsucc := daysBeforeMonth_succ year month
    split
    · rw [dayNumber_eq year (month + 1) 1, hplace]
      omega
    · next hdecember =>
      have htwelve : month = 12 := by
        by_contra hne
        exact hdecember (isDay_iff.mpr ⟨le_refl 1, daysInMonth_pos_iff.mpr (by omega)⟩)
      subst htwelve
      have hyear : daysBeforeMonth year 13 = daysBeforeMonth year 12 + daysInMonth year 12 := rfl
      rw [dayNumber_next_year, hplace]
      omega

/-- A day is numbered before the first day of a year exactly if its year is an earlier one. -/
theorem number_lt_iff (d : Day) (year : Int) : d.number < dayNumber year 1 1 ↔ d.year < year := by
  obtain ⟨hstart, hend⟩ := dayNumber_mem_year d.isDay
  constructor
  · intro h
    by_contra hle
    have hmono : dayNumber year 1 1 ≤ dayNumber d.year 1 1 := dayNumber_year_mono (by omega)
    unfold number at h
    omega
  · intro h
    have hmono : dayNumber (d.year + 1) 1 1 ≤ dayNumber year 1 1 := dayNumber_year_mono h
    unfold number
    omega

/-- **The days of some years** are numbered from the first day of the first year to before that of the year after. -/
theorem mem_years_iff (d : Day) (first last : Int) :
    first ≤ d.year ∧ d.year ≤ last ↔ dayNumber first 1 1 ≤ d.number ∧ d.number < dayNumber (last + 1) 1 1 := by
  have hfirst := number_lt_iff d first
  have hlast := number_lt_iff d (last + 1)
  omega

/-- Days of earlier years have smaller numbers. -/
theorem number_lt_of_year_lt {a b : Day} (h : a.year < b.year) : a.number < b.number :=
  calc a.number < dayNumber b.year 1 1 := (number_lt_iff a b.year).mpr h
    _ ≤ b.number := (dayNumber_mem_year b.isDay).1

/-- So have days of earlier months of the same year. -/
theorem number_lt_of_month_lt {a b : Day} (hyear : a.year = b.year) (h : a.month < b.month) :
    a.number < b.number := by
  have hplace := (place_of_isDay a.isDay).1
  have hmono : daysBeforeMonth a.year (a.month + 1) ≤ daysBeforeMonth a.year b.month :=
    daysBeforeMonth_mono a.year h
  have hpos := (isDay_iff.mp b.isDay).1
  rw [number, number, ← hyear, dayNumber_eq a.year a.month, dayNumber_eq a.year b.month]
  omega

/-- **Different days have different numbers.** -/
theorem number_injective : Function.Injective number := by
  intro a b h
  have hyear : a.year = b.year := by
    rcases lt_trichotomy a.year b.year with hlt | heq | hlt
    · exact absurd h (number_lt_of_year_lt hlt).ne
    · exact heq
    · exact absurd h (number_lt_of_year_lt hlt).ne'
  have hmonth : a.month = b.month := by
    rcases lt_trichotomy a.month b.month with hlt | heq | hlt
    · exact absurd h (number_lt_of_month_lt hyear hlt).ne
    · exact heq
    · exact absurd h (number_lt_of_month_lt hyear.symm hlt).ne'
  have hday : a.day = b.day := by
    rw [number, number, ← hyear, ← hmonth, dayNumber_eq a.year a.month a.day,
      dayNumber_eq a.year a.month b.day] at h
    omega
  obtain ⟨year, month, day, hisDay⟩ := a
  obtain ⟨_, _, _, _⟩ := b
  obtain rfl := hyear
  obtain rfl := hmonth
  obtain rfl := hday
  rfl

/-- **The day is so many days after 1970-01-01**, or before it if the number is negative. -/
def DaysFromEpoch (d : Day) (n : Int) : Prop := next^[n.toNat] epoch = next^[(-n).toNat] d

theorem number_iterate_next (d : Day) (k : Nat) : (next^[k] d).number = d.number + k := by
  induction k generalizing d with
  | zero => simp
  | succ k ih =>
    rw [Function.iterate_succ_apply, ih, number_next]
    omega

/-- **Every number is that of a day.**  An early enough year begins before it, and the days after are numbered
one by one. -/
theorem number_surjective : Function.Surjective number := by
  intro n
  let start : Day := ⟨-n.natAbs, 1, 1, rfl⟩
  have hstart : start.number ≤ n := by
    have hnumber : start.number = dayNumber (-n.natAbs) 1 1 := rfl
    have hleap : leapYearsBefore 1970 = 477 := by decide
    rw [hnumber, dayNumber, daysBeforeMonth_one, hleap]
    unfold leapYearsBefore
    omega
  refine ⟨next^[(n - start.number).toNat] start, ?_⟩
  rw [number_iterate_next]
  omega

/-- **The number of a day counts the days from 1970-01-01.** -/
theorem daysFromEpoch_iff {d : Day} {n : Int} : d.DaysFromEpoch n ↔ n = d.number := by
  have hepoch : epoch.number = 0 := by decide
  rw [DaysFromEpoch, ← number_injective.eq_iff, number_iterate_next, number_iterate_next, hepoch]
  omega

end Day

end TypedJson.Calendar
