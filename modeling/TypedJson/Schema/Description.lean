import TypedJson.Schema.Basic
import TypedJson.Text.Quoted
import TypedJson.Number

/-!
# Descriptions of schemas

The structure of a schema on one line, for people: combinators by name with their parts in braces,
lists in brackets, texts quoted.  Functions have no structure to show.  Shorthands are described as
what they stand for.
-/

namespace TypedJson

/-- Texts one after the other with a comma and a space between neighbours. -/
def listed : List String → String
  | [] => ""
  | [s] => s
  | s :: rest => s ++ ", " ++ listed rest

/-- A name with parts in braces, each under its own name. -/
def braced (name : String) (parts : List (String × String)) : String :=
  name ++ " \x7b " ++ listed (parts.map fun part => part.1 ++ ": " ++ part.2) ++ " \x7d"

/-- A list in brackets. -/
def bracketed (items : List String) : String := "[" ++ listed items ++ "]"

mutual

/-- The structure of a value. -/
def Value.description : Value → String
  | .null => "Null"
  | .bool b => if b then "Bool(true)" else "Bool(false)"
  | .number n => "Number(" ++ n.text ++ ")"
  | .string s => "String(" ++ Text.quoted s ++ ")"
  | .array items => "Array " ++ bracketed (valueDescriptions items)
  | .object entries => "Object \x7b" ++ listed (entryDescriptions entries) ++ "\x7d"

/-- The structure of each value. -/
def valueDescriptions : List Value → List String
  | [] => []
  | v :: rest => v.description :: valueDescriptions rest

/-- The structure of each entry. -/
def entryDescriptions : List (String × Value) → List String
  | [] => []
  | (name, v) :: rest => (Text.quoted name ++ ": " ++ v.description) :: entryDescriptions rest

end

/-- The output of a literal, as its description shows it. -/
def literalDescription (v : Value) : String :=
  match Output.ofLiteral v with
  | .text s => Text.quoted s
  | .bool b => if b then "true" else "false"
  | .int n => toString n
  | _ => v.description

/-- The description of a literal. -/
def describeLiteral (v : Value) : String :=
  braced "Literal" [("expected", literalDescription v), ("value", v.description)]

/-- The description of a record, from those of its fields. -/
def describeRecord (fields : List (String × String)) : String :=
  braced "Record"
    [("fields", bracketed (fields.map fun field =>
      "(" ++ Text.quoted field.1 ++ ", " ++ field.2 ++ ")"))]

mutual

/-- **The description of a schema.** -/
def Schema.description : Schema → String
  | .string => "StringDecoder"
  | .number => "NumberDecoder"
  | .boolean => "BooleanDecoder"
  | .absent => "UndefDecoder"
  | .null => "NilDecoder"
  | .date => "DateDecoder"
  | .literal v => describeLiteral v
  | .tuple a b | .pair a b =>
    braced "Tuple" [("first", a.description), ("second", b.description)]
  | .record fields => describeRecord (fieldDescriptions fields)
  | .union alternatives =>
    braced "Union" [("alternatives", bracketed (descriptions alternatives))]
  | .option s => braced "Optional" [("decoder", s.description)]
  | .array s => braced "Array" [("decoder", s.description)]
  | .set s => braced "Set" [("decoder", s.description)]
  | .map k v =>
    braced "Map" [("entry", braced "Tuple" [("first", k.description), ("second", v.description)])]
  | .dict s => braced "Dict" [("decoder", s.description)]
  | .struct _ _ => "FnDecoder"
  | .mapped _ s => braced "Mapped" [("decoder", s.description)]
  | .custom _ => "FnDecoder"
  | .text t => describeLiteral (.string t)
  | .fieldTable fields => describeRecord (Entries.ofList Text.order (fieldDescriptions fields))
  | .choice a b rest =>
    braced "Union"
      [("alternatives", "(" ++ listed (a.description :: b.description :: descriptions rest) ++ ")")]
  | .shared s => s.description

/-- The description of each schema. -/
def descriptions : List Schema → List String
  | [] => []
  | s :: rest => s.description :: descriptions rest

/-- The description of each field, by its name. -/
def fieldDescriptions : List (String × Schema) → List (String × String)
  | [] => []
  | (name, s) :: rest => (name, s.description) :: fieldDescriptions rest

end

end TypedJson
