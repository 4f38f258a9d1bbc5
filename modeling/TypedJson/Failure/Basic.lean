import TypedJson.Value.Path

/-!
# Failures

A failure says what went wrong (`Cause`) and where (`path`).  The path is relative to the decoder
that produced the failure; whatever contains that decoder puts its own step in front
(`Failure.under`).  A choice that ran out of alternatives carries the failure of each.
-/

namespace TypedJson

/-- The shape that a decoder of containers expected. -/
inductive Shape where
  | array
  | object
  | tuple (length : Nat)
deriving DecidableEq

/-- The words for an expected shape. -/
def Shape.text : Shape → String
  | array => "array"
  | object => "object"
  | tuple length => "array of length " ++ toString length

/-- What went wrong; `ε` is the type of the failures of alternatives. -/
inductive Cause (ε : Type) where
  /-- The input is of the wrong kind. -/
  | typeMismatch (expected : String) (found : Kind)
  /-- The input is not the one value that is accepted; nothing at all may have been found. -/
  | valueMismatch (expected : Value) (found : Option Value)
  /-- The input is not a container of the right shape. -/
  | shapeMismatch (expected : Shape) (found : String)
  /-- The object lacks a field that must be there. -/
  | missingField (name : String)
  /-- No alternative accepted the input. -/
  | unionExhausted (failures : List ε)
  /-- The input denotes no instant. -/
  | invalidTimestamp (found reason : String)
  /-- The element equals the one at index `first`. -/
  | duplicateValue (first : Nat)
  /-- The key equals that of the entry at index `first`. -/
  | duplicateKey (first : Nat)
  /-- A container lies under more than `limit` levels. -/
  | depthExceeded (limit : Nat)

/-- A located failure. -/
structure Failure where
  /-- The steps from the root to the part that is at fault. -/
  path : List Step
  /-- What is wrong with that part. -/
  cause : Cause Failure

/-- The words for the shape of an input: an array comes with its length. -/
def shapeText : Option Value → String
  | some (.array items) => "array of length " ++ toString items.length
  | input => (Kind.of input).text

namespace Failure

/-- A failure at the root. -/
def ofCause (cause : Cause Failure) : Failure := ⟨[], cause⟩

/-- The failure as seen from one step further out. -/
def under (failure : Failure) (step : Step) : Failure := ⟨step :: failure.path, failure.cause⟩

/-- The input is not of the kind `expected`. -/
def typeMismatch (expected : String) (input : Option Value) : Failure :=
  ofCause (.typeMismatch expected (Kind.of input))

/-- The input is not a container of the shape `expected`. -/
def shapeMismatch (expected : Shape) (input : Option Value) : Failure :=
  ofCause (.shapeMismatch expected (shapeText input))

/-- The input is not the value `expected`. -/
def valueMismatch (expected : Value) (input : Option Value) : Failure :=
  ofCause (.valueMismatch expected input)

/-- The path, each step as a bare token. -/
def tokens (failure : Failure) : List String := failure.path.map Step.token

@[simp] theorem path_under (failure : Failure) (step : Step) :
    (failure.under step).path = step :: failure.path := rfl

@[simp] theorem cause_under (failure : Failure) (step : Step) :
    (failure.under step).cause = failure.cause := rfl

@[simp] theorem path_ofCause (cause : Cause Failure) : (ofCause cause).path = [] := rfl

@[simp] theorem cause_ofCause (cause : Cause Failure) : (ofCause cause).cause = cause := rfl

end Failure

end TypedJson
