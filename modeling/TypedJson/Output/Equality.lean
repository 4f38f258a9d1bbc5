import TypedJson.Output.Basic
import TypedJson.Value.Equality

/-!
# Equality of outputs

Outputs are equal when they have the same form and equal parts.  Doubles are compared by their
value, so that the two zeros are equal; outputs of different forms are not.
-/

namespace TypedJson.Output

mutual

/-- Equality of outputs. -/
def eqv : Output → Output → Bool
  | unit, unit => true
  | bool a, bool b => a == b
  | int a, int b => decide (a = b)
  | float a, float b => a.eqv b
  | text a, text b => a == b
  | date a, date b => decide (a = b)
  | pair a b, pair a' b' => eqv a a' && eqv b b'
  | none, none => true
  | some a, some b => eqv a b
  | list a, list b => eqvItems a b
  | map a, map b => eqvPairs a b
  | dict a, dict b => eqvNamed a b
  | record n a, record m b => n == m && eqvNamed a b
  | tag n a, tag m b => n == m && eqv a b
  | json a, json b => a.eqv b
  | _, _ => false

/-- Element by element. -/
def eqvItems : List Output → List Output → Bool
  | [], [] => true
  | x :: xs, y :: ys => eqv x y && eqvItems xs ys
  | _, _ => false

/-- Entry by entry, keys and values. -/
def eqvPairs : List (Output × Output) → List (Output × Output) → Bool
  | [], [] => true
  | (k, x) :: xs, (l, y) :: ys => eqv k l && eqv x y && eqvPairs xs ys
  | _, _ => false

/-- Entry by entry, names and values. -/
def eqvNamed : List (String × Output) → List (String × Output) → Bool
  | [], [] => true
  | (n, x) :: xs, (m, y) :: ys => n == m && eqv x y && eqvNamed xs ys
  | _, _ => false

end

end TypedJson.Output
