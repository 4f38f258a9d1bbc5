import TypedJson.Value.Basic

/-!
# Two equalities of values

`Value.eqv` keeps an integer and a float apart at every depth; `Value.numericEq` compares numbers by
their doubles, so that `1` and `1.0` agree.  Both look at objects as finite maps and differ on
nothing but numbers.
-/

namespace TypedJson.Value

mutual

/-- Equality that keeps integers and floats apart. -/
def eqv : Value → Value → Bool
  | null, null => true
  | bool a, bool b => a == b
  | number a, number b => a.eqv b
  | string a, string b => a == b
  | array a, array b => eqvItems a b
  | object a, object b => eqvEntries a b
  | _, _ => false

/-- Element by element. -/
def eqvItems : List Value → List Value → Bool
  | [], [] => true
  | v :: vs, w :: ws => eqv v w && eqvItems vs ws
  | _, _ => false

/-- Entry by entry, in the order of the names. -/
def eqvEntries : List (String × Value) → List (String × Value) → Bool
  | [], [] => true
  | (k, v) :: vs, (l, w) :: ws => k == l && eqv v w && eqvEntries vs ws
  | _, _ => false

end

mutual

/-- Equality that compares numbers by their doubles, at every depth. -/
def numericEq : Value → Value → Bool
  | null, null => true
  | bool a, bool b => a == b
  | number a, number b => a.numericEq b
  | string a, string b => a == b
  | array a, array b => a.length == b.length && numericEqItems a b
  | object a, object b => a.length == b.length && numericEqEntries a b
  | _, _ => false

/-- Element by element, as far as both lists go. -/
def numericEqItems : List Value → List Value → Bool
  | v :: vs, w :: ws => numericEq v w && numericEqItems vs ws
  | _, _ => true

/-- Every entry on the left has an equal one on the right. -/
def numericEqEntries : List (String × Value) → List (String × Value) → Bool
  | [], _ => true
  | (k, v) :: rest, entries =>
    (match lookup k entries with
      | some w => numericEq v w
      | none => false) && numericEqEntries rest entries

end

/-- Equality of inputs: nothing equals only nothing. -/
def eqvInput : Option Value → Option Value → Bool
  | none, none => true
  | some v, some w => eqv v w
  | _, _ => false

end TypedJson.Value
