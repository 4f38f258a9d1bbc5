/-!
# Decimals

A decimal is a coefficient times a power of ten, without sign.  It is written positionally or with an
exponent, and a number without fractional digits may carry a fixed tail.  A `Decimal.Layout` makes
these decisions; there are two of them: that of JSON numbers and the plain one, which never uses an
exponent.
-/

namespace TypedJson

/-- A decimal number without sign, `coefficient * 10 ^ exponent`. -/
structure Decimal where
  coefficient : Nat
  exponent : Int
deriving DecidableEq

namespace Decimal

/-- How decimals are laid out. -/
structure Layout where
  /-- Which exponents of the leading digit are written positionally. -/
  positional : Int → Bool
  /-- What follows a positional number without fractional digits. -/
  wholeTail : String

/-- Floats of JSON text are positional from `0.00001` to below `10^16` and always have a fractional
digit there. -/
def Layout.json : Layout := ⟨fun e => decide (-5 ≤ e) && decide (e < 16), ".0"⟩

/-- The plain layout writes all digits and no exponent. -/
def Layout.plain : Layout := ⟨fun _ => true, ""⟩

/-- So many zeros. -/
def zeros (count : Nat) : String := String.ofList (List.replicate count '0')

/-- The digits `digits` with the last one at `10 ^ exponent`, written positionally. -/
def positionalText (wholeTail : String) (digits : List Char) (exponent : Int) : String :=
  if 0 ≤ exponent then
    String.ofList digits ++ zeros exponent.toNat ++ wholeTail
  else
    let places := (-exponent).toNat
    if places < digits.length then
      String.ofList (digits.take (digits.length - places)) ++ "." ++
        String.ofList (digits.drop (digits.length - places))
    else
      "0." ++ zeros (places - digits.length) ++ String.ofList digits

/-- The digits `digits` with the first one at `10 ^ exponent`, written with a signed exponent. -/
def scientificText (digits : List Char) (exponent : Int) : String :=
  let fraction := digits.drop 1
  String.ofList (digits.take 1) ++
    (if fraction.isEmpty then "" else "." ++ String.ofList fraction) ++
    "e" ++ (if exponent < 0 then "-" else "+") ++ toString exponent.natAbs

/-- The text of a decimal of the given sign. -/
def text (layout : Layout) (negative : Bool) (d : Decimal) : String :=
  let digits := Nat.toDigits 10 d.coefficient
  let leading := d.exponent + (digits.length : Int) - 1
  (if negative then "-" else "") ++
    (if layout.positional leading then positionalText layout.wholeTail digits d.exponent
     else scientificText digits leading)

end Decimal

end TypedJson
