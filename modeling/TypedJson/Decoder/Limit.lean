import TypedJson.Decoder.Basic

/-!
# Limits on the input

A limit on nesting is checked before anything is decoded, over the whole value, also where the
decoder would not look.  The limit `0` is none.
-/

namespace TypedJson

/-- Limits that a value must meet before it is decoded. -/
structure Limits where
  /-- The greatest nesting depth; `0` for any. -/
  maxDepth : Nat
deriving DecidableEq

/-- No limits. -/
def Limits.unlimited : Limits := ⟨0⟩

/-- The same limits but for the nesting depth. -/
def Limits.withMaxDepth (_ : Limits) (maxDepth : Nat) : Limits := ⟨maxDepth⟩

namespace DepthCheck

/-- Enters a container.  The steps that lead to it are as many as the containers around it. -/
def enter (maxDepth : Nat) (tokens : List Step) : Except Failure Unit :=
  if tokens.length = maxDepth then .error ⟨tokens.reverse, .depthExceeded maxDepth⟩ else .ok ()

mutual

/-- Checks a value.  The steps that lead to it stand on a stack, the last one on top, and the stack is
given back for the next value. -/
def value (maxDepth : Nat) : Value → (tokens : List Step) → Except Failure (List Step)
  | .array elements, tokens => do
    enter maxDepth tokens
    items maxDepth elements 0 tokens
  | .object fields, tokens => do
    enter maxDepth tokens
    entries maxDepth fields tokens
  | _, tokens => .ok tokens

/-- Checks the elements of an array from `position` on. -/
def items (maxDepth : Nat) : List Value → (position : Nat) → (tokens : List Step) →
    Except Failure (List Step)
  | [], _, tokens => .ok tokens
  | v :: rest, position, tokens => do
    let pushed ← value maxDepth v (.index position :: tokens)
    items maxDepth rest (position + 1) pushed.tail

/-- Checks the entries of an object. -/
def entries (maxDepth : Nat) : List (String × Value) → (tokens : List Step) →
    Except Failure (List Step)
  | [], tokens => .ok tokens
  | (name, v) :: rest, tokens => do
    let pushed ← value maxDepth v (.field name :: tokens)
    entries maxDepth rest pushed.tail

end

end DepthCheck

/-- Refuses a value that nests deeper than the limit, at the first container past it. -/
def Limits.check (limits : Limits) (value : Value) : Except Failure Unit :=
  if limits.maxDepth = 0 then .ok ()
  else do
    let _ ← DepthCheck.value limits.maxDepth value []
    .ok ()

/-- Decodes a value that meets the limits. -/
def Decoder.decodeWithin {α : Type} (d : Decoder α) (limits : Limits) (value : Value) :
    Except Failure α := do
  limits.check value
  d (some value)

end TypedJson
