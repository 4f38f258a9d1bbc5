import TypedJson.Schema.Basic
import TypedJson.Decoder.Primitive

/-!
# Schemas of special leaves

Numbers and strings with a rule of their own.  Doubles become integers by dropping the fraction and
keeping within the range.
-/

namespace TypedJson.Schema

/-- A double as an integer of a signed 64-bit word. -/
def toInt64 (x : Binary64) : Int := x.saturate Number.minInt Number.maxSigned

/-- A double as an integer of an unsigned 16-bit word. -/
def toUInt16 (x : Binary64) : Int := x.saturate 0 65535

/-- Even whole numbers, as integers. -/
def even : Schema := .custom fun input => do
  let x ← Decoder.number input
  if x.isEven then .ok (.int (toInt64 x))
  else .error (.valueMismatch (.string "even number") input)

/-- Numbers as port numbers. -/
def portNumber : Schema := .custom fun input => do
  let x ← Decoder.number input
  .ok (.int (toUInt16 x))

/-- A double as an integer; other outputs stay as they are. -/
def wholePart : Output → Output
  | .float x => .int (toInt64 x)
  | x => x

/-- Numbers as integers. -/
def integer : Schema := .mapped wholePart .number

/-- The length of a text in bytes; other outputs stay as they are. -/
def byteCount : Output → Output
  | .text s => .int s.utf8ByteSize
  | x => x

/-- Strings, by their length. -/
def textLength : Schema := .mapped byteCount .string

/-- Any input at all, by its kind. -/
def kindName : Schema := .custom fun input => .ok (.text (Kind.of input).text)

end TypedJson.Schema
