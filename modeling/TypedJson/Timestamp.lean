import TypedJson.Timestamp.Rfc3339
import TypedJson.Timestamp.DayText
import TypedJson.Failure.Basic
import TypedJson.Number
import TypedJson.Text.Quoted

/-!
# Reading timestamps

A text is a timestamp of RFC 3339 or else a bare day; if it is neither, the fault reported is that
of the former.  A number counts milliseconds since the epoch.
-/

namespace TypedJson.Timestamp

/-- The instant of a text. -/
def ofText (text : String) : Except Failure Instant :=
  match Rfc3339.parse text with
  | .ok instant => .ok instant
  | .error fault =>
    match DayText.parse? text with
    | some instant => .ok instant
    | none => .error (.ofCause (.invalidTimestamp (Text.quoted text) fault.text))

/-- The instant of a number of milliseconds. -/
def ofMillis (millis : Binary64) : Except Failure Instant :=
  match Instant.ofBinary64? millis with
  | some instant => .ok instant
  | none =>
    .error (.ofCause
      (.invalidTimestamp (millis.shortest.text .plain millis.negative) "out of range"))

end TypedJson.Timestamp
