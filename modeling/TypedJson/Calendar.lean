/-!
# The proleptic Gregorian calendar

Years extend without end in both directions and include the year zero.  Days are numbered from
1970-01-01, which is day `0`.
-/

namespace TypedJson.Calendar

/-- Whether a year has a 29 February. -/
def isLeapYear (year : Int) : Bool :=
  decide (4 ∣ year) && (!decide (100 ∣ year) || decide (400 ∣ year))

/-- The length of a month, in days; a month outside `1..12` has none. -/
def daysInMonth (year : Int) (month : Nat) : Nat :=
  match month with
  | 1 | 3 | 5 | 7 | 8 | 10 | 12 => 31
  | 4 | 6 | 9 | 11 => 30
  | 2 => if isLeapYear year then 29 else 28
  | _ => 0

/-- Whether there is such a day. -/
def isDay (year : Int) (month day : Nat) : Bool :=
  decide (1 ≤ day) && decide (day ≤ daysInMonth year month)

/-- The number of leap years from the year `1` to before `year`, negative going backwards. -/
def leapYearsBefore (year : Int) : Int :=
  (year - 1) / 4 - (year - 1) / 100 + (year - 1) / 400

/-- The number of days of a year before a month. -/
def daysBeforeMonth (year : Int) : (month : Nat) → Nat
  | 0 => 0
  | month + 1 => daysBeforeMonth year month + daysInMonth year month

/-- **The number of a day**, counted from 1970-01-01. -/
def dayNumber (year : Int) (month day : Nat) : Int :=
  365 * (year - 1970) + (leapYearsBefore year - leapYearsBefore 1970) +
    daysBeforeMonth year month + day - 1

end TypedJson.Calendar
