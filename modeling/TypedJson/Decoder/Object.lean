import TypedJson.Decoder.Basic

/-!
# Decoders of objects

A record names the fields it reads, each with its decoder, and ignores the others.  A missing field
is decoded as an absent input; if that is refused, the failure is that the field is missing,
whatever the decoder said.  Fields are read in the order of declaration, and of a field declared
twice the later output stays.  A record type names its fields by identifiers and keeps the outputs
in the order of declaration.  A dictionary decodes every field of the object alike.
-/

namespace TypedJson

/-- An identifier without the mark `r#` of one that would otherwise be a keyword. -/
def bareIdentifier (ident : String) : String :=
  match ident.toList with
  | 'r' :: '#' :: rest => String.ofList rest
  | _ => ident

/-- The name of a field of a record type: an identifier, and a key of its own if the field is read
from another one. -/
structure FieldName where
  ident : String
  rename : Option String
deriving DecidableEq

/-- The key under which a field is read. -/
def FieldName.key (name : FieldName) : String := name.rename.getD (bareIdentifier name.ident)

namespace Decoder

variable {α : Type}

/-- The entries of an object, or a failure of shape. -/
def expectObject : Option Value → Except Failure (List (String × Value))
  | some (.object entries) => .ok entries
  | input => .error (.shapeMismatch .object input)

/-- Decodes the field `name` of an object. -/
def field (entries : List (String × Value)) (name : String) (d : Decoder α) : Except Failure α :=
  match Value.lookup name entries with
  | some v => under (.field name) (d (some v))
  | none =>
    match d none with
    | .ok x => .ok x
    | .error _ => .error ((Failure.ofCause (.missingField name)).under (.field name))

/-- A field that is there is decoded in its place. -/
theorem field_of_lookup_some {entries : List (String × Value)} {name : String} {v : Value}
    (h : Value.lookup name entries = some v) (d : Decoder α) :
    field entries name d = under (.field name) (d (some v)) := by
  simp [field, h]

/-- A field that is not there is missing unless its decoder accepts absence. -/
theorem field_of_lookup_none {entries : List (String × Value)} {name : String}
    (h : Value.lookup name entries = none) (d : Decoder α) :
    field entries name d =
      match d none with
      | .ok x => .ok x
      | .error _ => .error ⟨[.field name], .missingField name⟩ := by
  simp only [field, h]
  rfl

/-- Decodes declared fields one after the other into the entries `decoded` so far. -/
def recordFrom (entries : List (String × Value)) :
    (decoded : List (String × α)) → List (String × Decoder α) →
      Except Failure (List (String × α))
  | decoded, [] => .ok decoded
  | decoded, (name, d) :: rest => do
    let x ← field entries name d
    recordFrom entries (Entries.insert Text.order name x decoded) rest

/-- Decodes an object with the declared fields. -/
def record (fields : List (String × Decoder α)) : Decoder (List (String × α)) := fun input => do
  recordFrom (← expectObject input) [] fields

/-- Decodes the fields of a record type one after the other. -/
def structFrom (entries : List (String × Value)) :
    List (FieldName × Decoder α) → Except Failure (List (String × α))
  | [] => .ok []
  | (name, d) :: rest => do
    let x ← field entries name.key d
    let xs ← structFrom entries rest
    .ok ((name.ident, x) :: xs)

/-- Decodes an object to the fields of a record type, each under its identifier. -/
def struct (fields : List (FieldName × Decoder α)) : Decoder (List (String × α)) :=
  fun input => do structFrom (← expectObject input) fields

/-- Decodes the entries of an object one after the other. -/
def dictFrom (d : Decoder α) : List (String × Value) → Except Failure (List (String × α))
  | [] => .ok []
  | (name, v) :: rest => do
    let x ← under (.field name) (d (some v))
    let xs ← dictFrom d rest
    .ok ((name, x) :: xs)

/-- Decodes every field of an object. -/
def dict (d : Decoder α) : Decoder (List (String × α)) := fun input => do
  dictFrom d (← expectObject input)

end Decoder

end TypedJson
