import TypedJson.Output.Basic
import TypedJson.Text.Order
import TypedJson.Value.Text

/-!
# The order of outputs

The keys of a map are outputs, and this is their order.  Outputs of one form are compared part by
part, the first difference deciding; of two forms, the one with the lower rank comes first.
-/

namespace TypedJson.Output

/-- The place of a form among the forms. -/
def rank : Output → Nat
  | unit => 0
  | bool _ => 1
  | int _ => 2
  | float _ => 3
  | text _ => 4
  | date _ => 5
  | pair _ _ => 6
  | none => 7
  | some _ => 7
  | list _ => 8
  | map _ => 9
  | dict _ => 10
  | record _ _ => 11
  | tag _ _ => 12
  | json _ => 13

/-- The order of truth values: `false` first. -/
def orderBool : Bool → Bool → Ordering
  | false, true => .lt
  | true, false => .gt
  | _, _ => .eq

/-- The order of integers. -/
def orderInt (a b : Int) : Ordering :=
  if a < b then .lt else if b < a then .gt else .eq

mutual

/-- The order of outputs. -/
def order : Output → Output → Ordering
  | bool a, bool b => orderBool a b
  | int a, int b => orderInt a b
  | float a, float b => a.order b
  | text a, text b => Text.order a b
  | date a, date b => a.order b
  | pair a b, pair a' b' => (order a a').then (order b b')
  | none, some _ => .lt
  | some _, none => .gt
  | some a, some b => order a b
  | list a, list b => orderItems a b
  | map a, map b => orderPairs a b
  | dict a, dict b => orderNamed a b
  | record n a, record m b => (Text.order n m).then (orderNamed a b)
  | tag n a, tag m b => (Text.order n m).then (order a b)
  | json a, json b => Text.order a.text b.text
  | x, y => orderInt x.rank y.rank

/-- Element by element, an initial part first. -/
def orderItems : List Output → List Output → Ordering
  | [], [] => .eq
  | [], _ :: _ => .lt
  | _ :: _, [] => .gt
  | x :: xs, y :: ys => (order x y).then (orderItems xs ys)

/-- Entry by entry, keys before values. -/
def orderPairs : List (Output × Output) → List (Output × Output) → Ordering
  | [], [] => .eq
  | [], _ :: _ => .lt
  | _ :: _, [] => .gt
  | (k, x) :: xs, (l, y) :: ys => ((order k l).then (order x y)).then (orderPairs xs ys)

/-- Entry by entry, names before values. -/
def orderNamed : List (String × Output) → List (String × Output) → Ordering
  | [], [] => .eq
  | [], _ :: _ => .lt
  | _ :: _, [] => .gt
  | (n, x) :: xs, (m, y) :: ys =>
    ((Text.order n m).then (order x y)).then (orderNamed xs ys)

end

end TypedJson.Output
