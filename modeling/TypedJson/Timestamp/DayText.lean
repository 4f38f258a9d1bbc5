import TypedJson.Timestamp.Instant
import TypedJson.Text.Blank

/-!
# Days in text

A day is written as year, month and day with hyphens between.  Blanks may stand before each of the
three numbers.  A year with a sign may have any number of digits, one without has at most four;
month and day have at most two.
-/

namespace TypedJson.DayText

/-- The number that a list of ASCII digits writes. -/
def numberOf (digits : List Char) : Nat :=
  digits.foldl (fun value c => 10 * value + (c.toNat - '0'.toNat)) 0

/-- Reads a number of at least one digit and at most `limit`. -/
def takeNumber? (limit : Nat) (cs : List Char) : Option (Nat × List Char) :=
  let digits := (cs.take limit).takeWhile Char.isDigit
  if digits.isEmpty then none else some (numberOf digits, cs.drop digits.length)

/-- Reads a year after its blanks. -/
def takeYear? (cs : List Char) : Option (Int × List Char) :=
  match Text.skipBlanks cs with
  | '+' :: rest => (takeNumber? rest.length rest).map fun (n, rest) => ((n : Int), rest)
  | '-' :: rest => (takeNumber? rest.length rest).map fun (n, rest) => (-(n : Int), rest)
  | rest => (takeNumber? 4 rest).map fun (n, rest) => ((n : Int), rest)

/-- Reads a hyphen, then a month or a day after its blanks. -/
def takePart? : List Char → Option (Nat × List Char)
  | '-' :: rest => takeNumber? 2 (Text.skipBlanks rest)
  | _ => none

/-- **The start of the day that a text writes**, if it writes an existing day of a year of
instants. -/
def parse? (text : String) : Option Instant := do
  let (year, rest) ← takeYear? text.toList
  let (month, rest) ← takePart? rest
  let (day, rest) ← takePart? rest
  if rest.isEmpty && decide (Instant.firstYear ≤ year) && decide (year ≤ Instant.lastYear) &&
      Calendar.isDay year month day then
    some (Instant.ofDay (Calendar.dayNumber year month day))
  else
    none

end TypedJson.DayText
