import TypedJson.Value.Basic

/-!
# Paths into a value

A path is a list of steps, each into a field of an object or an element of an array.  Following it
from an input either leads nowhere or reaches a target, which is again an input: a field that the
object does not have is an absent target, and no step leads on from there.
-/

namespace TypedJson

/-- One step from a value to one of its parts. -/
inductive Step where
  | field (name : String)
  | index (position : Nat)
deriving DecidableEq

namespace Step

/-- The step without its notation: the name, or the decimal position. -/
def token : Step → String
  | field name => name
  | index position => toString position

/-- The step as part of a path: `.name` or `[position]`. -/
def text : Step → String
  | field name => "." ++ name
  | index position => "[" ++ toString position ++ "]"

/-- The step as part of a report: a JSON string or number. -/
def toValue : Step → Value
  | field name => .string name
  | index position => .nat position

end Step

/-- The text of a path, from the root `$`. -/
def pathText (path : List Step) : String := "$" ++ String.join (path.map Step.text)

namespace Value

/-- The target of one step, if the input allows it. -/
def step? : Option Value → Step → Option (Option Value)
  | some (array items), .index position => (items[position]?).map some
  | some (object entries), .field name => some (lookup name entries)
  | _, _ => none

/-- The target of a path, if every step is allowed. -/
def follow? : Option Value → List Step → Option (Option Value)
  | input, [] => some input
  | input, step :: rest => (step? input step).bind fun target => follow? target rest

@[simp] theorem follow?_nil (input : Option Value) : follow? input [] = some input := rfl

end Value

end TypedJson
