import TypedJson.Schema.Basic

/-!
# Schemas that accept absence

Whether a schema accepts an input that is not there can be read off the schema.
-/

namespace TypedJson

mutual

/-- Whether a schema accepts absence. -/
def Schema.acceptsAbsent : Schema → Bool
  | .absent => true
  | .option _ => true
  | .union alternatives => acceptAbsent alternatives
  | .choice a b rest => a.acceptsAbsent || b.acceptsAbsent || acceptAbsent rest
  | .mapped _ s => s.acceptsAbsent
  | .shared s => s.acceptsAbsent
  | .custom d => (d none).isOk
  | _ => false

/-- Whether one of the schemas accepts absence. -/
def acceptAbsent : List Schema → Bool
  | [] => false
  | s :: rest => s.acceptsAbsent || acceptAbsent rest

end

end TypedJson
