import TypedJson.Proofs.Binary64.Rounding
import Mathlib.Data.Rat.Floor
import Mathlib.Algebra.Order.Field.Rat
import Mathlib.Tactic.NormNum

/-!
# The exact value of a double

A double denotes the rational number `x.value`.  What the library reads off the units of a double is said
here of this number: its size (`abs_value_le_iff`) and the whole number next to it on the side of zero
(`truncate_eq`).  The double of a whole number has its value up to `2^53` (`value_ofInt`), and beyond
that at least `2^53` (`le_abs_value_ofInt`).
-/

namespace TypedJson

/-- A rational number without its fraction. -/
def towardZero (x : ℚ) : ℤ := if x < 0 then ⌈x⌉ else ⌊x⌋

theorem towardZero_intCast (n : ℤ) : towardZero n = n := by
  unfold towardZero
  split
  · exact Int.ceil_intCast n
  · exact Int.floor_intCast n

/-- Without its fraction a number is no greater, sign aside. -/
theorem abs_towardZero_le (x : ℚ) : |(towardZero x : ℚ)| ≤ |x| := by
  unfold towardZero
  split
  · next h =>
    have hceil : ((⌈x⌉ : ℤ) : ℚ) ≤ 0 := by exact_mod_cast Int.ceil_le.mpr (by simpa using h.le)
    rw [abs_of_nonpos hceil, abs_of_neg h]
    exact neg_le_neg (Int.le_ceil x)
  · next h =>
    have hfloor : (0 : ℚ) ≤ (⌊x⌋ : ℤ) := by exact_mod_cast Int.floor_nonneg.mpr (not_lt.mp h)
    rw [abs_of_nonneg hfloor, abs_of_nonneg (not_lt.mp h)]
    exact Int.floor_le x

namespace Binary64

variable {x : Binary64}

/-- **The exact value.** -/
def value (x : Binary64) : ℚ := x.units / unitsPerOne

theorem unitsPerOne_cast_pos : (0 : ℚ) < unitsPerOne := by exact_mod_cast unitsPerOne_pos

theorem abs_value (x : Binary64) : |x.value| = x.magnitude / unitsPerOne := by
  rw [value, abs_div, abs_of_pos unitsPerOne_cast_pos, ← natAbs_units, Nat.cast_natAbs, Int.cast_abs]

theorem abs_value_le_iff {bound : ℕ} : |x.value| ≤ bound ↔ x.magnitude ≤ bound * unitsPerOne := by
  rw [abs_value, div_le_iff₀ unitsPerOne_cast_pos]
  exact_mod_cast Iff.rfl

theorem le_abs_value_iff {bound : ℕ} : (bound : ℚ) ≤ |x.value| ↔ bound * unitsPerOne ≤ x.magnitude := by
  rw [abs_value, le_div_iff₀ unitsPerOne_cast_pos]
  exact_mod_cast Iff.rfl

/-- **Truncation drops the fraction of the value.** -/
theorem truncate_eq (x : Binary64) : x.truncate = towardZero x.value := by
  have hpos : (0 : ℤ) ≤ unitsPerOne := Int.natCast_nonneg _
  have hsign : x.value < 0 ↔ x.units < 0 := by
    rw [value, div_lt_iff₀ unitsPerOne_cast_pos, zero_mul]
    exact_mod_cast Iff.rfl
  unfold truncate towardZero
  split
  · next h =>
    have hneg : 0 ≤ -x.units := by
      have := hsign.mp h
      omega
    rw [value, Rat.ceil_intCast_div_natCast, ← Int.tdiv_eq_ediv_of_nonneg hneg, Int.neg_tdiv, neg_neg]
  · next h =>
    rw [value, Rat.floor_intCast_div_natCast, Int.tdiv_eq_ediv_of_nonneg (not_lt.mp (h ∘ hsign.mpr))]

/-- A whole number of at most `2^53` is the value of its double. -/
theorem value_ofInt {n : ℤ} (h : n.natAbs ≤ 2 ^ 53) : (ofInt n).value = n := by
  rw [value, units_ofInt_of_natAbs_le h, Int.cast_mul, Int.cast_natCast]
  exact mul_div_cancel_right₀ _ unitsPerOne_cast_pos.ne'

theorem le_abs_value_ofInt {n : ℤ} (h : 2 ^ 53 ≤ n.natAbs) : ((2 ^ 53 : ℕ) : ℚ) ≤ |(ofInt n).value| :=
  le_abs_value_iff.mpr (le_magnitude_ofInt h)

end Binary64

end TypedJson
