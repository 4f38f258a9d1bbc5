import TypedJson.Binary64.Rounding
import TypedJson.Binary64.Shortest

/-!
# Numbers

A JSON number is an integer or a double, and which of the two it is depends on its spelling: a token
without fraction and exponent that fits a 64-bit word is an integer, every other one is the nearest
double (`Number.ofDecimal?`).  So `1` and `1.0` are different numbers with the same double
(`Number.toBinary64`), and the two notions of equality differ: `eqv` keeps them apart, `numericEq`
does not.
-/

namespace TypedJson

/-- A number as it is spelled: an integer, or a finite double. -/
inductive Number where
  | int (value : Int)
  | float (value : Binary64)
deriving DecidableEq

namespace Number

/-- The least integer of a token, that of a signed 64-bit word. -/
def minInt : Int := -9223372036854775808

/-- The greatest integer of a token, that of an unsigned 64-bit word. -/
def maxInt : Int := 18446744073709551615

/-- The greatest integer of a signed 64-bit word. -/
def maxSigned : Int := 9223372036854775807

/-- The number of the decimal token `± coefficient * 10 ^ exponent`, where a token that has neither
fraction nor exponent comes without `exponent`.  A float beyond the largest double is no number. -/
def ofDecimal? (negative : Bool) (coefficient : Nat) (exponent : Option Int) : Option Number :=
  let value : Int := if negative then -(coefficient : Int) else coefficient
  if exponent = none ∧ minInt ≤ value ∧ value ≤ maxInt ∧ ¬(negative = true ∧ coefficient = 0) then
    some (int value)
  else
    (Binary64.ofDecimal? negative coefficient (exponent.getD 0)).map float

/-- The nearest double. -/
def toBinary64 : Number → Binary64
  | int n => Binary64.ofInt n
  | float x => x

/-- Equality of numbers of one spelling; an integer never equals a float. -/
def eqv : Number → Number → Bool
  | int m, int n => decide (m = n)
  | float x, float y => x.eqv y
  | _, _ => false

/-- Equality of the nearest doubles, whatever the spelling. -/
def numericEq (a b : Number) : Bool := a.toBinary64.eqv b.toBinary64

/-- The JSON text of a number. -/
def text : Number → String
  | int n => toString n
  | float x => x.shortest.text .json x.negative

end Number

end TypedJson
