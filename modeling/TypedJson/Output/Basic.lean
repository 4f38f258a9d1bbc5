import TypedJson.Value.Basic
import TypedJson.Timestamp.Instant

/-!
# Outputs

The outputs of all schemas in one type.  A schema determines which form its outputs have: a pair of
schemas gives pairs, a dictionary gives entries under names, a record type a named list of fields
in the order of declaration.
-/

namespace TypedJson

/-- What decoding produces. -/
inductive Output where
  | unit
  | bool (value : Bool)
  | int (value : Int)
  | float (value : Binary64)
  | text (value : String)
  | date (value : Instant)
  | pair (first second : Output)
  | none
  | some (value : Output)
  | list (items : List Output)
  | map (entries : List (Output × Output))
  | dict (entries : List (String × Output))
  | record (name : String) (fields : List (String × Output))
  | tag (name : String) (value : Output)
  | json (value : Value)

namespace Output

/-- The output of a literal: texts, truth values and the integers of a signed 64-bit word have a
form of their own, and every other value stays as it is. -/
def ofLiteral : Value → Output
  | .string s => text s
  | .bool b => bool b
  | .number (.int n) =>
    if Number.minInt ≤ n ∧ n ≤ Number.maxSigned then int n else json (.number (.int n))
  | v => json v

/-- An output that may be missing. -/
def ofOption : Option Output → Output
  | Option.none => none
  | Option.some x => some x

/-- A map whose keys are texts, as a dictionary; every other output stays as it is. -/
def dictOfMap : Output → Output
  | map entries =>
    match entries.mapM fun (k, x) => match k with
      | text name => Option.some (name, x)
      | _ => Option.none with
    | Option.some named => dict named
    | Option.none => map entries
  | x => x

end Output

end TypedJson
