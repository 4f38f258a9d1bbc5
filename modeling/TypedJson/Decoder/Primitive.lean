import TypedJson.Decoder.Basic
import TypedJson.Value.Equality
import TypedJson.Timestamp

/-!
# Decoders of single values

Each primitive accepts one kind of input, a literal one value.  Nothing is coerced: a number in
quotes is no number, and `null` is not absence.
-/

namespace TypedJson.Decoder

/-- Accepts strings. -/
def string : Decoder String
  | some (.string s) => .ok s
  | input => .error (.typeMismatch "string" input)

/-- Accepts numbers, as doubles. -/
def number : Decoder Binary64
  | some (.number n) => .ok n.toBinary64
  | input => .error (.typeMismatch "number" input)

/-- Accepts `true` and `false`. -/
def boolean : Decoder Bool
  | some (.bool b) => .ok b
  | input => .error (.typeMismatch "boolean" input)

/-- Accepts only absence. -/
def absent : Decoder Unit
  | none => .ok ()
  | input => .error (.typeMismatch "absent" input)

/-- Accepts only `null`. -/
def null : Decoder Unit
  | some .null => .ok ()
  | input => .error (.typeMismatch "null" input)

/-- Accepts timestamps: RFC 3339, a bare day, or milliseconds since the epoch. -/
def date : Decoder Instant
  | some (.string s) => Timestamp.ofText s
  | some (.number n) => Timestamp.ofMillis n.toBinary64
  | input => .error (.typeMismatch "string or number" input)

/-- Accepts the values numerically equal to `expected`, with the fixed output `output`. -/
def literal {α : Type} (output : α) (expected : Value) : Decoder α
  | some v =>
    if expected.numericEq v then .ok output else .error (.valueMismatch expected (some v))
  | none => .error (.valueMismatch expected none)

end TypedJson.Decoder
