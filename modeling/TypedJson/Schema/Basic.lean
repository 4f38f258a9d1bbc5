import TypedJson.Decoder.Object
import TypedJson.Output.Basic

/-!
# Schemas

A schema is a description of data that can be decoded, and itself data: it can be built, inspected
and transformed.  Beside the combinators there are shorthands, each of which stands for one of them:
a bare text for a literal, a pair for a tuple, a table of fields for a record, alternatives written
out in place for a union, and a shared schema for the schema.
-/

namespace TypedJson

/-- A description of data. -/
inductive Schema where
  | string
  | number
  | boolean
  | absent
  | null
  | date
  /-- A value that must be numerically equal. -/
  | literal (value : Value)
  /-- An array of length two. -/
  | tuple (first second : Schema)
  /-- An object with these fields, read in this order. -/
  | record (fields : List (String × Schema))
  /-- The first alternative that succeeds. -/
  | union (alternatives : List Schema)
  /-- A value that may be absent. -/
  | option (schema : Schema)
  | array (schema : Schema)
  /-- An array without duplicates. -/
  | set (schema : Schema)
  /-- An array of pairs without duplicate keys. -/
  | map (key value : Schema)
  /-- An object whose fields are all alike. -/
  | dict (schema : Schema)
  /-- An object with the fields of a record type, read in this order. -/
  | struct (name : String) (fields : List (FieldName × Schema))
  /-- The same data with another output. -/
  | mapped (f : Output → Output) (schema : Schema)
  /-- A decoder that is a plain function. -/
  | custom (decoder : Decoder Output)
  /-- Shorthand for the literal of a text. -/
  | text (value : String)
  /-- Shorthand for a tuple. -/
  | pair (first second : Schema)
  /-- Shorthand for the record of the same fields in the order of their names. -/
  | fieldTable (fields : List (String × Schema))
  /-- Shorthand for the union of at least two alternatives. -/
  | choice (first second : Schema) (rest : List Schema)
  /-- A schema that several others hold. -/
  | shared (schema : Schema)

/-- The same data with the output wrapped as the variant `name`. -/
def Schema.tagged (name : String) (schema : Schema) : Schema := .mapped (.tag name) schema

end TypedJson
