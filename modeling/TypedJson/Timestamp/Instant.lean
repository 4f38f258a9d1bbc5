import TypedJson.Calendar
import TypedJson.Binary64.Basic

/-!
# Instants

An instant is a count of seconds since the epoch and of nanoseconds within the second.  The
nanoseconds of a leap second go on from `10^9`, so that it follows the second before it.  Instants
reach from the year -262143 to the year 262142.
-/

namespace TypedJson

/-- A point in time, in UTC. -/
structure Instant where
  /-- Whole seconds since the epoch, rounded down. -/
  seconds : Int
  /-- Nanoseconds since that second; from `10^9` on inside a leap second. -/
  nanos : Nat
deriving DecidableEq

namespace Instant

/-- The years whose days are instants. -/
def firstYear : Int := -262143

@[inherit_doc firstYear]
def lastYear : Int := 262142

/-- The start of a day. -/
def ofDay (day : Int) : Instant := ⟨86400 * day, 0⟩

/-- Earlier instants first. -/
def order (a b : Instant) : Ordering :=
  if a.seconds < b.seconds then .lt
  else if b.seconds < a.seconds then .gt
  else if a.nanos < b.nanos then .lt
  else if b.nanos < a.nanos then .gt
  else .eq

/-- The greatest number of milliseconds either side of the epoch, a hundred million days. -/
def maxMillis : Nat := 8640000000000000

/-- The first millisecond of the first year. -/
def firstMillis : Int := -8334601228800000

/-- The last millisecond of the last year. -/
def lastMillis : Int := 8210266876799999

/-- The instant a whole number of milliseconds from the epoch, within the years of instants. -/
def ofMillis? (millis : Int) : Option Instant :=
  if firstMillis ≤ millis ∧ millis ≤ lastMillis then
    some ⟨millis / 1000, (millis % 1000).toNat * 1000000⟩
  else
    none

/-- The instant a number of milliseconds from the epoch, a fraction being dropped: the number must
not exceed `maxMillis` either side, and its instant must exist. -/
def ofBinary64? (millis : Binary64) : Option Instant :=
  if maxMillis * Binary64.unitsPerOne < millis.magnitude then none else ofMillis? millis.truncate

end Instant

end TypedJson
