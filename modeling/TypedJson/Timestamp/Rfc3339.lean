import TypedJson.Timestamp.Instant

/-!
# Timestamps of RFC 3339

`YYYY-MM-DDThh:mm:ss[.fff]` with an offset, `Z` or `±hh:mm`.  The first nineteen characters have
fixed places; what follows is read from left to right.  A text that is no timestamp is refused with
the first fault in reading order, where the day is checked before the time of day is read, the time
of day once its fraction is read, and the offset at the very end.

A second `60` is a leap second in any minute.  It becomes the second `59` with nanoseconds from
`10^9` on.
-/

namespace TypedJson.Rfc3339

/-- Why a text is no timestamp. -/
inductive Fault where
  | invalid
  | tooShort
  | tooLong
  | outOfRange
deriving DecidableEq

/-- The words for a fault. -/
def Fault.text : Fault → String
  | invalid => "input contains invalid characters"
  | tooShort => "premature end of input"
  | tooLong => "trailing input"
  | outOfRange => "input is out of range"

/-- The value of an ASCII digit. -/
def digit? (c : Char) : Option Nat :=
  if c.isDigit then some (c.toNat - '0'.toNat) else none

/-- The number of bytes of a text in UTF-8. -/
def byteLength : List Char → Nat
  | [] => 0
  | c :: rest => c.utf8Size + byteLength rest

/-- Reads one digit. -/
def takeDigit : List Char → Except Fault (Nat × List Char)
  | [] => .error .tooShort
  | c :: rest =>
    match digit? c with
    | some n => .ok (n, rest)
    | none => .error .invalid

/-- Reads a number of exactly so many digits. -/
def takeNumber : (digits : Nat) → (value : Nat) → List Char → Except Fault (Nat × List Char)
  | 0, value, cs => .ok (value, cs)
  | digits + 1, value, cs => do
    let (n, rest) ← takeDigit cs
    takeNumber digits (10 * value + n) rest

/-- Reads a character that must satisfy `accepts`. -/
def takeMark (accepts : Char → Bool) : List Char → Except Fault (List Char)
  | [] => .error .tooShort
  | c :: rest => if accepts c then .ok rest else .error .invalid

/-- Reads `YYYY-MM-DD`, the number of an existing day. -/
def takeDay (cs : List Char) : Except Fault (Int × List Char) := do
  let (year, cs) ← takeNumber 4 0 cs
  let cs ← takeMark (· == '-') cs
  let (month, cs) ← takeNumber 2 0 cs
  let cs ← takeMark (· == '-') cs
  let (day, cs) ← takeNumber 2 0 cs
  if Calendar.isDay year month day then .ok (Calendar.dayNumber year month day, cs)
  else .error .outOfRange

/-- A time of day as it is written. -/
structure Clock where
  hour : Nat
  minute : Nat
  second : Nat

/-- Reads the separator and `hh:mm:ss`. -/
def takeClock (cs : List Char) : Except Fault (Clock × List Char) := do
  let cs ← takeMark (fun c => c == 'T' || c == 't' || c == ' ') cs
  let (hour, cs) ← takeNumber 2 0 cs
  let cs ← takeMark (· == ':') cs
  let (minute, cs) ← takeNumber 2 0 cs
  let cs ← takeMark (· == ':') cs
  let (second, cs) ← takeNumber 2 0 cs
  .ok (⟨hour, minute, second⟩, cs)

/-- The first `places` digits of a text as a decimal fraction, in units of its last place. -/
def fractionValue : (places : Nat) → List Char → Nat
  | 0, _ => 0
  | _, [] => 0
  | places + 1, c :: rest => (digit? c).getD 0 * Nat.pow 10 places + fractionValue places rest

/-- Reads the fraction of a second, if there is one, in nanoseconds; digits beyond the ninth are
dropped. -/
def takeFraction : List Char → Except Fault (Nat × List Char)
  | '.' :: cs => do
    let _ ← takeDigit cs
    .ok (fractionValue 9 (cs.takeWhile Char.isDigit), cs.dropWhile Char.isDigit)
  | cs => .ok (0, cs)

/-- The second of the day and the nanoseconds of a time of day. -/
def Clock.resolve (clock : Clock) (fraction : Nat) : Except Fault (Nat × Nat) :=
  if 23 < clock.hour ∨ 59 < clock.minute ∨ 60 < clock.second then .error .outOfRange
  else if clock.second = 60 then
    .ok (3600 * clock.hour + 60 * clock.minute + 59, 1000000000 + fraction)
  else
    .ok (3600 * clock.hour + 60 * clock.minute + clock.second, fraction)

/-- Reads two digits, the end being judged by the bytes that are left. -/
def takeOffsetPair (cs : List Char) : Except Fault (Nat × List Char) :=
  if byteLength cs < 2 then .error .tooShort else takeNumber 2 0 cs

/-- Reads an offset from UTC, in minutes. -/
def takeOffset : List Char → Except Fault (Int × List Char)
  | [] => .error .tooShort
  | c :: cs =>
    if c = 'Z' ∨ c = 'z' then .ok (0, cs)
    else if c = '+' ∨ c = '-' ∨ c = '\u2212' then do
      let (hours, cs) ← takeOffsetPair cs
      let cs ← takeMark (· == ':') cs
      let (minutes, cs) ← takeOffsetPair cs
      if 59 < minutes then .error .outOfRange
      else
        let size : Int := 60 * hours + minutes
        .ok (if c = '+' then size else -size, cs)
    else .error .invalid

/-- **The instant that a timestamp denotes**, or the first fault of the text. -/
def parse (text : String) : Except Fault Instant := do
  let cs := text.toList
  if byteLength cs < 19 then .error .tooShort
  else
    let (day, cs) ← takeDay cs
    let (clock, cs) ← takeClock cs
    let (fraction, cs) ← takeFraction cs
    let (second, nanos) ← clock.resolve fraction
    let (offset, cs) ← takeOffset cs
    if !cs.isEmpty then .error .tooLong
    else if 24 * 60 ≤ offset.natAbs then .error .outOfRange
    else .ok ⟨86400 * day + second - 60 * offset, nanos⟩

end TypedJson.Rfc3339
