import TypedJson.Binary64.Basic
import TypedJson.Decimal

/-!
# The shortest decimal that reads back

Among the decimals that round to a given double, the shortest one is wanted, and of several equally
short ones the nearest.  The decimals with last digit at `10^g` form a grid; the coarsest grid with
a point in the rounding interval of the double has the shortest ones, and on that grid only the two
neighbours of the double can win.  A tie goes to the even digit.

All comparisons are exact: the double, its interval and the grid are scaled to whole numbers of
quarter units (`2^-1076`).  An interval end belongs to the interval exactly when the coefficient is
even, because a tie rounds to the even coefficient.
-/

namespace TypedJson.Binary64

/-- The distance from `x` up to the end of its rounding interval, in quarter units. -/
def roomAbove (x : Binary64) : Nat := 2 * Nat.pow 2 x.exponent

/-- The distance from `x` down to the end of its rounding interval, in quarter units; a power of two
has closer neighbours below. -/
def roomBelow (x : Binary64) : Nat :=
  if x.mantissa = Nat.pow 2 52 ∧ 0 < x.exponent then Nat.pow 2 x.exponent
  else 2 * Nat.pow 2 x.exponent

/-- Whether a distance of `gap / scale` stays within `room`, the end included for an even
coefficient. -/
def reaches (x : Binary64) (gap room scale : Nat) : Bool :=
  if x.mantissa % 2 = 0 then decide (gap ≤ room * scale) else decide (gap < room * scale)

/-- The point of the grid of `10 ^ exponent` that lies in the rounding interval of `x` and is
nearest to `x`, if there is one. -/
def nearestOnGrid? (x : Binary64) (exponent : Int) : Option Nat :=
  let scale := Nat.pow 10 (-exponent).toNat
  let step := Nat.pow 10 exponent.toNat * Nat.pow 2 1076
  let value := 4 * x.magnitude * scale
  let below := value / step
  let gapBelow := value % step
  let gapAbove := step - gapBelow
  let hitBelow := x.reaches gapBelow x.roomBelow scale
  let hitAbove := x.reaches gapAbove x.roomAbove scale
  if hitBelow && hitAbove then
    if gapBelow < gapAbove then some below
    else if gapAbove < gapBelow then some (below + 1)
    else some (below + below % 2)
  else if hitBelow then some below
  else if hitAbove then some (below + 1)
  else none

/-- The exact decimal value. -/
def exactDecimal (x : Binary64) : Decimal := ⟨x.magnitude * Nat.pow 5 1074, -1074⟩

/-- Searches `count` grids, the coarsest being that of `10 ^ (count - 325)` and the finest that of
`10 ^ -324`. -/
def searchGrids (x : Binary64) : Nat → Decimal
  | 0 => x.exactDecimal
  | count + 1 =>
    match x.nearestOnGrid? ((count : Int) - 324) with
    | some coefficient => ⟨coefficient, (count : Int) - 324⟩
    | none => x.searchGrids count

/-- **The shortest decimal that rounds to `x`**, of several the nearest to `x`; sign aside. -/
def shortest (x : Binary64) : Decimal :=
  if x.mantissa = 0 then ⟨0, 0⟩ else x.searchGrids 634

end TypedJson.Binary64
