import TypedJson.Binary64.Basic

/-!
# Rounding to the nearest double

A quotient of natural numbers, counted in units, is rounded by keeping 53 bits: the exponent is the
number of further bits of the quotient, the coefficient the quotient at that scale rounded to the
nearest whole number, ties to even (`roundDiv`).  Rounding up to `2^53` moves on to the next
exponent.  Whole numbers (`ofInt`) and decimals (`ofDecimal?`) are two instances.
-/

namespace TypedJson

/-- The quotient of `num` by `den` rounded to the nearest whole number, a tie to the even one. -/
def roundDiv (num den : Nat) : Nat :=
  let quotient := num / den
  let rest := num % den
  if 2 * rest < den then quotient
  else if den < 2 * rest then quotient + 1
  else quotient + quotient % 2

namespace Binary64

/-- The double nearest to `± num / den` units, or `none` beyond the largest one. -/
def ofRatio? (negative : Bool) (num den : Nat) : Option Binary64 :=
  let exponent := Nat.log2 (num / den) - 52
  let mantissa := roundDiv num (den * Nat.pow 2 exponent)
  if mantissa = Nat.pow 2 53 then ofParts? negative (Nat.pow 2 52) (exponent + 1)
  else ofParts? negative mantissa exponent

/-- The double nearest to a whole number; beyond the largest double, that one. -/
def ofInt (n : Int) : Binary64 :=
  let negative := decide (n < 0)
  (ofRatio? negative (n.natAbs * unitsPerOne) 1).getD (largest negative)

/-- The double nearest to `± coefficient * 10 ^ exponent`, or `none` beyond the largest one.

The value is at least `10 ^ (exponent + log2 coefficient / 4)` and below
`10 ^ (exponent + log2 coefficient + 1)`, so the first two cases only spare computing a power of ten
whose outcome is known. -/
def ofDecimal? (negative : Bool) (coefficient : Nat) (exponent : Int) : Option Binary64 :=
  if coefficient = 0 ∨ exponent + Nat.log2 coefficient + 1 < -330 then some (zero negative)
  else if 310 < exponent + Nat.log2 coefficient / 4 then none
  else
    ofRatio? negative (coefficient * Nat.pow 10 exponent.toNat * unitsPerOne)
      (Nat.pow 10 (-exponent).toNat)

end Binary64

end TypedJson
