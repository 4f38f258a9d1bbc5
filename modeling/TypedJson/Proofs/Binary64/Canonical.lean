import TypedJson.Timestamp

/-!
# The canonical form of a double

A finite double is determined by its value in units, but for the sign of zero (`eq_of_units_eq`): the
coefficient fills its 53 bits unless the exponent is the least one, so that no two exponents give one
magnitude.  Hence two doubles are numerically equal exactly if their canonical forms, with the positive
zero, are one double (`eqv_iff_canonical`), and whatever reads only the value of a double reads
only its canonical form.
-/

namespace TypedJson

namespace Binary64

/-- The same number, of the two zeros the positive one. -/
def canonical (x : Binary64) : Binary64 := if x.mantissa = 0 then zero false else x

variable {x y : Binary64}

theorem canonical_of_zero (h : x.mantissa = 0) : x.canonical = zero false := by
  rw [canonical, if_pos h]

theorem canonical_of_ne_zero (h : x.mantissa ≠ 0) : x.canonical = x := by
  rw [canonical, if_neg h]

/-! ### One value, one double -/

theorem magnitude_eq_zero_iff : x.magnitude = 0 ↔ x.mantissa = 0 := by
  have hpow : 0 < Nat.pow 2 x.exponent := Nat.two_pow_pos x.exponent
  unfold magnitude
  constructor
  · intro h
    rcases Nat.mul_eq_zero.mp h with h | h <;> omega
  · intro h
    rw [h, Nat.zero_mul]

theorem natAbs_units : x.units.natAbs = x.magnitude := by
  unfold units
  split <;> omega

/-- A greater exponent makes a greater magnitude. -/
theorem magnitude_lt_of_exponent_lt (h : y.exponent < x.exponent) : y.magnitude < x.magnitude := by
  have hpow : 0 < Nat.pow 2 y.exponent := Nat.two_pow_pos y.exponent
  have hdouble : Nat.pow 2 (y.exponent + 1) = 2 * Nat.pow 2 y.exponent := Nat.pow_succ'
  have hle : Nat.pow 2 (y.exponent + 1) ≤ Nat.pow 2 x.exponent :=
    Nat.pow_le_pow_right (by decide) h
  have hfull : Nat.pow 2 52 ≤ x.mantissa := x.normalized.resolve_left (by omega)
  have hhalf : Nat.pow 2 53 = Nat.pow 2 52 * 2 := by decide
  calc y.mantissa * Nat.pow 2 y.exponent < Nat.pow 2 53 * Nat.pow 2 y.exponent :=
        Nat.mul_lt_mul_of_pos_right y.mantissa_lt hpow
    _ = Nat.pow 2 52 * Nat.pow 2 (y.exponent + 1) := by rw [hhalf, hdouble, Nat.mul_assoc]
    _ ≤ x.mantissa * Nat.pow 2 x.exponent := Nat.mul_le_mul hfull hle

theorem parts_eq_of_magnitude_eq (h : x.magnitude = y.magnitude) :
    x.mantissa = y.mantissa ∧ x.exponent = y.exponent := by
  have hexponent : x.exponent = y.exponent := by
    rcases Nat.lt_trichotomy x.exponent y.exponent with hlt | heq | hlt
    · exact absurd h (Nat.ne_of_lt (magnitude_lt_of_exponent_lt hlt))
    · exact heq
    · exact absurd h.symm (Nat.ne_of_lt (magnitude_lt_of_exponent_lt hlt))
  have hpow : 0 < Nat.pow 2 y.exponent := Nat.two_pow_pos y.exponent
  unfold magnitude at h
  rw [hexponent] at h
  exact ⟨Nat.eq_of_mul_eq_mul_right hpow h, hexponent⟩

/-- **The value determines a double that is not zero.** -/
theorem eq_of_units_eq (h : x.units = y.units) (hx : x.mantissa ≠ 0) : x = y := by
  have hmagnitude : x.magnitude = y.magnitude := by
    rw [← natAbs_units, ← natAbs_units, h]
  have hpos : x.magnitude ≠ 0 := fun h0 => hx (magnitude_eq_zero_iff.mp h0)
  have hsign : x.negative = y.negative := by
    unfold units at h
    cases hnx : x.negative <;> cases hny : y.negative <;> simp only [hnx, hny] at h ⊢ <;>
      simp at h <;> omega
  obtain ⟨hmantissa, hexponent⟩ := parts_eq_of_magnitude_eq hmagnitude
  obtain ⟨_, _, _, _, _, _⟩ := x
  obtain ⟨_, _, _, _, _, _⟩ := y
  simp only at hsign hmantissa hexponent
  subst hsign hmantissa hexponent
  rfl

/-! ### What reads the value only -/

@[simp] theorem units_canonical (x : Binary64) : x.canonical.units = x.units := by
  by_cases h : x.mantissa = 0
  · have hzero : x.units = 0 := by
      rw [← Int.natAbs_eq_zero, natAbs_units, magnitude_eq_zero_iff.mpr h]
    rw [canonical_of_zero h, hzero]
    rfl
  · rw [canonical_of_ne_zero h]

/-- **Doubles are numerically equal exactly if they have one canonical form.** -/
theorem eqv_iff_canonical : x.eqv y = true ↔ x.canonical = y.canonical := by
  rw [eqv_iff]
  constructor
  · intro h
    by_cases hx : x.mantissa = 0
    · have hy : y.mantissa = 0 := by
        rw [← magnitude_eq_zero_iff, ← natAbs_units, ← h, natAbs_units, magnitude_eq_zero_iff]
        exact hx
      rw [canonical_of_zero hx, canonical_of_zero hy]
    · rw [eq_of_units_eq h hx]
  · intro h
    rw [← units_canonical x, h, units_canonical]

theorem eqv_canonical (x y : Binary64) : x.canonical.eqv y.canonical = x.eqv y := by
  simp only [eqv, units_canonical]

end Binary64

namespace Timestamp

theorem ofMillis_of_instant {millis : Binary64} {instant : Instant}
    (h : Instant.ofBinary64? millis = some instant) : ofMillis millis = .ok instant := by
  unfold ofMillis
  rw [h]

end Timestamp

end TypedJson
