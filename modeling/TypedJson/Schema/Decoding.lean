import TypedJson.Schema.Basic
import TypedJson.Decoder.Primitive
import TypedJson.Decoder.Sequence
import TypedJson.Decoder.Object
import TypedJson.Decoder.Choice
import TypedJson.Decoder.Limit
import TypedJson.Failure.Equality
import TypedJson.Output.Equality
import TypedJson.Output.Order

/-!
# The decoder of a schema

Every schema has a decoder (`Schema.decoder`), built from the combinators by recursion on the
schema.  Sets compare outputs by `Output.eqv`, and maps order their keys by `Output.order`.
-/

namespace TypedJson

mutual

/-- **The decoder of a schema.** -/
def Schema.decoder : Schema → Decoder Output
  | .string => Decoder.string.map .text
  | .number => Decoder.number.map .float
  | .boolean => Decoder.boolean.map .bool
  | .absent => Decoder.absent.map fun _ => .unit
  | .null => Decoder.null.map fun _ => .unit
  | .date => Decoder.date.map .date
  | .literal v => Decoder.literal (Output.ofLiteral v) v
  | .tuple a b => (Decoder.tuple a.decoder b.decoder).map fun (x, y) => .pair x y
  | .record fields => (Decoder.record (fieldDecoders fields)).map .dict
  | .union alternatives => Decoder.union (decoders alternatives)
  | .option s => (Decoder.option s.decoder).map Output.ofOption
  | .array s => (Decoder.array s.decoder).map .list
  | .set s => (Decoder.set Output.eqv s.decoder).map .list
  | .map k v => (Decoder.mapping Output.order k.decoder v.decoder).map .map
  | .dict s => (Decoder.dict s.decoder).map .dict
  | .struct name fields => (Decoder.struct (structDecoders fields)).map (.record name)
  | .mapped f s => s.decoder.map f
  | .custom d => d
  | .text t => Decoder.literal (.text t) (.string t)
  | .pair a b => (Decoder.tuple a.decoder b.decoder).map fun (x, y) => .pair x y
  | .fieldTable fields =>
    (Decoder.record (Entries.ofList Text.order (fieldDecoders fields))).map .dict
  | .choice a b rest => Decoder.union (a.decoder :: b.decoder :: decoders rest)
  | .shared s => s.decoder

/-- The decoder of each schema. -/
def decoders : List Schema → List (Decoder Output)
  | [] => []
  | s :: rest => s.decoder :: decoders rest

/-- The decoder of each field. -/
def fieldDecoders : List (String × Schema) → List (String × Decoder Output)
  | [] => []
  | (name, s) :: rest => (name, s.decoder) :: fieldDecoders rest

/-- The decoder of each field of a record type. -/
def structDecoders : List (FieldName × Schema) → List (FieldName × Decoder Output)
  | [] => []
  | (name, s) :: rest => (name, s.decoder) :: structDecoders rest

end

namespace Schema

/-- Decodes a value. -/
def decode (s : Schema) (value : Value) : Except Failure Output := s.decoder (some value)

/-- Decodes an absent value. -/
def decodeAbsent (s : Schema) : Except Failure Output := s.decoder none

/-- Decodes a value within limits. -/
def decodeWithin (s : Schema) (limits : Limits) (value : Value) : Except Failure Output :=
  s.decoder.decodeWithin limits value

/-- Decodes a field of an object. -/
def decodeField (s : Schema) (name : String) (input : Option Value) : Except Failure Output := do
  Decoder.field (← Decoder.expectObject input) name s.decoder

end Schema

/-- Equality of two results: both outputs, or both failures, and equal as such. -/
def resultEqv : Except Failure Output → Except Failure Output → Bool
  | .ok x, .ok y => x.eqv y
  | .error e, .error f => e.eqv f
  | _, _ => false

end TypedJson
