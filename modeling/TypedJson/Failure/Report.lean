import TypedJson.Failure.Basic

/-!
# The report of a failure

A report is a JSON object for machines: the path as an array of names and positions, the kind of the
cause, and the data of the cause under names of their own.  A value that was not there is reported
as `null`.
-/

namespace TypedJson

/-- The name of the kind of a cause. -/
def Cause.name {ε : Type} : Cause ε → String
  | typeMismatch .. => "typeMismatch"
  | valueMismatch .. => "valueMismatch"
  | shapeMismatch .. => "shapeMismatch"
  | missingField .. => "missingField"
  | unionExhausted .. => "unionExhausted"
  | invalidTimestamp .. => "invalidTimestamp"
  | duplicateValue .. => "duplicateValue"
  | duplicateKey .. => "duplicateKey"
  | depthExceeded .. => "maxDepthExceeded"

/-- An expected shape in a report. -/
def Shape.report : Shape → Value
  | array => .string "array"
  | object => .string "object"
  | tuple length => .object [("tuple", .object [("len", .nat length)])]

/-- A path in a report. -/
def pathReport (path : List Step) : Value := .array (path.map Step.toValue)

mutual

/-- **The report of a failure.** -/
def Failure.report : Failure → Value
  | ⟨path, cause⟩ => .object (reportEntries (.string cause.name) (pathReport path) cause)

/-- The entries of a report, in the order of their names: kind and path among the data of the
cause. -/
def reportEntries (kind path : Value) : Cause Failure → List (String × Value)
  | .typeMismatch expected found =>
    [("expected", .string expected), ("found", .string found.text), ("kind", kind), ("path", path)]
  | .valueMismatch expected found =>
    [("expected", expected), ("found", found.getD .null), ("kind", kind), ("path", path)]
  | .shapeMismatch expected found =>
    [("expected", expected.report), ("found", .string found), ("kind", kind), ("path", path)]
  | .missingField name => [("field", .string name), ("kind", kind), ("path", path)]
  | .unionExhausted failures =>
    [("errors", .array (reports failures)), ("kind", kind), ("path", path)]
  | .invalidTimestamp found reason =>
    [("found", .string found), ("kind", kind), ("path", path), ("reason", .string reason)]
  | .duplicateValue first => [("first", .nat first), ("kind", kind), ("path", path)]
  | .duplicateKey first => [("first", .nat first), ("kind", kind), ("path", path)]
  | .depthExceeded limit => [("kind", kind), ("max_depth", .nat limit), ("path", path)]

/-- The report of each failure. -/
def reports : List Failure → List Value
  | [] => []
  | failure :: rest => failure.report :: reports rest

end

end TypedJson
