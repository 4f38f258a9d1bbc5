/-!
# Finite binary64 numbers

A finite double is a sign, a coefficient below `2^53` and a power of two.  Its value is a whole
number of *units*, a unit being `2^-1074`, the least positive double:

    `x.units = ± x.mantissa * 2 ^ x.exponent`.

Every question the library asks of a double (equality, order, truncation, evenness) is a question
about this integer, so no rounding is hidden anywhere.  The two zeros have equal units and differ
only in sign.  A coefficient below `2^52` has exponent `0`, so that no other value has two
representations, and then the 64 bits of the interchange format are one sum (`Binary64.bits`).
-/

namespace TypedJson

/-- A finite double, `± mantissa * 2 ^ exponent` units of `2^-1074`. -/
structure Binary64 where
  /-- The sign; a zero has one too. -/
  negative : Bool
  /-- The coefficient, with its leading bit. -/
  mantissa : Nat
  /-- The power of two, counted from that of the least positive double. -/
  exponent : Nat
  mantissa_lt : mantissa < Nat.pow 2 53
  exponent_le : exponent ≤ 2045
  normalized : exponent = 0 ∨ Nat.pow 2 52 ≤ mantissa
deriving DecidableEq

namespace Binary64

/-- The double with the given parts, if they are those of a double. -/
def ofParts? (negative : Bool) (mantissa exponent : Nat) : Option Binary64 :=
  if h : mantissa < Nat.pow 2 53 ∧ exponent ≤ 2045 ∧ (exponent = 0 ∨ Nat.pow 2 52 ≤ mantissa) then
    some ⟨negative, mantissa, exponent, h.1, h.2.1, h.2.2⟩
  else
    none

/-- The zero of the given sign. -/
def zero (negative : Bool) : Binary64 :=
  ⟨negative, 0, 0, by decide, by decide, Or.inl rfl⟩

/-- The largest finite double of the given sign. -/
def largest (negative : Bool) : Binary64 :=
  ⟨negative, Nat.pow 2 53 - 1, 2045, by decide, by decide, Or.inr (by decide)⟩

/-- How many units make one. -/
def unitsPerOne : Nat := Nat.pow 2 1074

/-- The absolute value in units. -/
def magnitude (x : Binary64) : Nat := x.mantissa * Nat.pow 2 x.exponent

/-- The exact value in units. -/
def units (x : Binary64) : Int :=
  if x.negative then -(x.magnitude : Int) else x.magnitude

/-- The 64 bits of the interchange format, as a number. -/
def bits (x : Binary64) : Nat :=
  (if x.negative then Nat.pow 2 63 else 0) + x.exponent * Nat.pow 2 52 + x.mantissa

/-- Numeric equality: the two zeros are equal. -/
def eqv (x y : Binary64) : Bool := decide (x.units = y.units)

/-- Numeric order: the two zeros are equal. -/
def order (x y : Binary64) : Ordering :=
  if x.units < y.units then .lt else if y.units < x.units then .gt else .eq

/-- The whole number next to `x` on the side of zero. -/
def truncate (x : Binary64) : Int := Int.tdiv x.units unitsPerOne

/-- Whether `x` is an even whole number. -/
def isEven (x : Binary64) : Bool := decide (2 * unitsPerOne ∣ x.magnitude)

/-- The whole number in `[low, high]` next to the truncated value. -/
def saturate (low high : Int) (x : Binary64) : Int :=
  if x.truncate < low then low else if high < x.truncate then high else x.truncate

theorem eqv_iff {x y : Binary64} : x.eqv y = true ↔ x.units = y.units := by
  simp [eqv]

theorem eqv_refl (x : Binary64) : x.eqv x = true := eqv_iff.mpr rfl

end Binary64

end TypedJson
