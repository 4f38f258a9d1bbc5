import TypedJson.Schema.Basic

/-!
# Schemas without shorthands

Every shorthand can be written out as the schema that it stands for, everywhere inside a schema.
-/

namespace TypedJson

mutual

/-- The schema with its shorthands written out. -/
def Schema.expand : Schema → Schema
  | .text t => .literal (.string t)
  | .pair a b => .tuple a.expand b.expand
  | .fieldTable fields => .record (Entries.ofList Text.order (expandFields fields))
  | .choice a b rest => .union (a.expand :: b.expand :: expandAll rest)
  | .shared s => s.expand
  | .tuple a b => .tuple a.expand b.expand
  | .record fields => .record (expandFields fields)
  | .union alternatives => .union (expandAll alternatives)
  | .option s => .option s.expand
  | .array s => .array s.expand
  | .set s => .set s.expand
  | .map k v => .map k.expand v.expand
  | .dict s => .dict s.expand
  | .struct name fields => .struct name (expandStruct fields)
  | .mapped f s => .mapped f s.expand
  | s => s

/-- Each schema with its shorthands written out. -/
def expandAll : List Schema → List Schema
  | [] => []
  | s :: rest => s.expand :: expandAll rest

/-- The same for fields. -/
def expandFields : List (String × Schema) → List (String × Schema)
  | [] => []
  | (name, s) :: rest => (name, s.expand) :: expandFields rest

/-- The same for the fields of a record type. -/
def expandStruct : List (FieldName × Schema) → List (FieldName × Schema)
  | [] => []
  | (name, s) :: rest => (name, s.expand) :: expandStruct rest

end

end TypedJson
