import TypedJson.Proofs.Binary64.Value
import Mathlib.Data.Nat.Dist

/-!
# Whole numbers are rounded to the nearest double

A double is nearest to a number (`IsNearest`) if no double is nearer and, should another one be as near, its
coefficient is even.  The double of an integer of a 64-bit word is nearest to it (`isNearest_ofInt`), and no two
doubles of different values are nearest to one number (`IsNearest.value_eq`), since between two doubles with
even coefficients lies a third one (`exists_units_between`).  So two integers have doubles of one value exactly
if one double is nearest to both (`value_ofInt_eq_iff`), which does not happen to different integers one of which
is less than `2^53` in absolute value (`not_collide_of_natAbs_lt`).

Distances are compared in units.  All doubles of at least the exponent of the result lie on the grid of its power
of two (`magnitude_grid`), where rounding finds the nearest multiple (`roundDiv_nearest`), and those of a
smaller exponent lie below the grid points in question.
-/

namespace TypedJson

/-! ### The nearest multiple -/

/-- Half way between two multiples the result is even. -/
theorem roundDiv_even_of_tie {num den : ℕ} (h : 2 * (num % den) = den) : roundDiv num den % 2 = 0 := by
  unfold roundDiv
  dsimp only
  rw [if_neg (by omega), if_neg (by omega)]
  omega

/-- A multiple is at most one of two neighbours, or at least the other one. -/
theorem mul_le_or_le_mul (k quotient den : ℕ) :
    k * den ≤ quotient * den ∨ quotient * den + den ≤ k * den := by
  rcases Nat.lt_or_ge quotient k with h | h
  · right
    have hle := Nat.mul_le_mul_right den h
    rwa [Nat.succ_mul] at hle
  · exact Or.inl (Nat.mul_le_mul_right den h)

/-- **Rounding a quotient finds the nearest multiple**, and if another one is as near, an even one. -/
theorem roundDiv_nearest {den : ℕ} (num : ℕ) (hden : 0 < den) (k : ℕ) :
    Nat.dist (roundDiv num den * den) num ≤ Nat.dist (k * den) num ∧
      (Nat.dist (k * den) num = Nat.dist (roundDiv num den * den) num →
        k * den = roundDiv num den * den ∨ roundDiv num den % 2 = 0) := by
  have hnum : num / den * den + num % den = num := by
    rw [Nat.mul_comm]
    exact Nat.div_add_mod num den
  have hrest : num % den < den := Nat.mod_lt num hden
  have htie : 2 * (num % den) = den → roundDiv num den % 2 = 0 := roundDiv_even_of_tie
  have hbelow := mul_le_or_le_mul k (num / den) den
  have habove := mul_le_or_le_mul k (num / den + 1) den
  have hsucc : (num / den + 1) * den = num / den * den + den := Nat.succ_mul _ _
  unfold Nat.dist
  rcases roundDiv_cases num den with ⟨hround, hhalf⟩ | ⟨hround, hhalf⟩
  · rw [hround] at htie ⊢
    constructor <;> omega
  · rw [hround] at htie ⊢
    rw [hsucc] at habove ⊢
    constructor <;> omega

/-! ### Distances on both sides of zero -/

/-- Absolute values are not farther apart than the integers. -/
theorem dist_natAbs_le (a b : ℤ) : Nat.dist a.natAbs b.natAbs ≤ (a - b).natAbs := by
  unfold Nat.dist
  omega

/-- They are as far apart if both integers lie on one side of zero. -/
theorem natAbs_sub_of_side {a b : ℤ} (h : a ≤ 0 ∧ b ≤ 0 ∨ 0 ≤ a ∧ 0 ≤ b) :
    (a - b).natAbs = Nat.dist a.natAbs b.natAbs := by
  unfold Nat.dist
  omega

namespace Binary64

variable {x y : Binary64}

/-! ### Magnitudes -/

/-- A magnitude lies on the grid of a power of two, or below the points with 53 bits. -/
theorem magnitude_grid (y : Binary64) (exponent : ℕ) :
    (∃ k, y.magnitude = k * 2 ^ exponent) ∨ (0 < exponent ∧ y.magnitude < 2 ^ 52 * 2 ^ exponent) := by
  rcases Nat.lt_or_ge y.exponent exponent with hlt | hge
  · right
    have hmantissa : y.magnitude < 2 ^ 53 * 2 ^ y.exponent :=
      Nat.mul_lt_mul_of_pos_right y.mantissa_lt (Nat.two_pow_pos _)
    have hpow : 2 ^ 53 * 2 ^ y.exponent ≤ 2 ^ 52 * 2 ^ exponent := by
      rw [← Nat.pow_add, ← Nat.pow_add]
      exact Nat.pow_le_pow_right (by decide) (by omega)
    omega
  · left
    refine ⟨y.mantissa * 2 ^ (y.exponent - exponent), ?_⟩
    rw [Nat.mul_assoc, ← Nat.pow_add, Nat.sub_add_cancel hge]
    rfl

/-- **No double is nearer than the rounded one**, signs aside, and if another one is as near, the coefficient of the
rounded one is even. -/
theorem dist_magnitude_le {negative : Bool} {num : ℕ} (h : ofRatio? negative num 1 = some x) (y : Binary64) :
    Nat.dist x.magnitude num ≤ Nat.dist y.magnitude num ∧
      (Nat.dist y.magnitude num = Nat.dist x.magnitude num →
        y.magnitude = x.magnitude ∨ x.mantissa % 2 = 0) := by
  obtain ⟨-, hmagnitude, heven⟩ := magnitude_of_ofRatio? h
  have hnearest := roundDiv_nearest num (Nat.two_pow_pos (Nat.log2 num - 52))
  rw [hmagnitude]
  rcases magnitude_grid y (Nat.log2 num - 52) with ⟨k, hk⟩ | ⟨hpos, hbelow⟩
  · rw [hk]
    obtain ⟨hle, htie⟩ := hnearest k
    exact ⟨hle, fun h => (htie h).imp_right heven⟩
  · -- the grid point of the leading bit lies between, so it is nearer than `y`
    have hleading : 2 ^ 52 * 2 ^ (Nat.log2 num - 52) ≤ num := by
      rw [← Nat.le_div_iff_mul_le (Nat.two_pow_pos _)]
      exact (kept_bits num).2.resolve_left hpos.ne'
    have hle := (hnearest (2 ^ 52)).1
    unfold Nat.dist at hle ⊢
    constructor <;> omega

/-! ### The nearest double -/

/-- **The double is nearest to the number**: no double is nearer, and if one of another value is as near, the
coefficient is even. -/
structure IsNearest (x : Binary64) (q : ℚ) : Prop where
  abs_sub_le : ∀ y : Binary64, |x.value - q| ≤ |y.value - q|
  even_of_tie : ∀ y : Binary64, |y.value - q| = |x.value - q| → y.value = x.value ∨ x.mantissa % 2 = 0

theorem value_eq_iff : x.value = y.value ↔ x.units = y.units := by
  rw [value, value, div_left_inj' unitsPerOne_cast_pos.ne', Int.cast_inj]

theorem value_lt_iff : x.value < y.value ↔ x.units < y.units := by
  rw [value, value, div_lt_div_iff_of_pos_right unitsPerOne_cast_pos, Int.cast_lt]

/-- The distance to a whole number in units. -/
theorem abs_value_sub (x : Binary64) (n : ℤ) :
    |x.value - n| = ((x.units - n * unitsPerOne).natAbs : ℚ) / unitsPerOne := by
  have hsub : x.value - n = ((x.units - n * unitsPerOne : ℤ) : ℚ) / unitsPerOne := by
    rw [value, eq_div_iff unitsPerOne_cast_pos.ne', sub_mul, div_mul_cancel₀ _ unitsPerOne_cast_pos.ne']
    push_cast
    rfl
  rw [hsub, abs_div, abs_of_pos unitsPerOne_cast_pos, Nat.cast_natAbs, Int.cast_abs]

theorem isNearest_intCast_iff {n : ℤ} :
    x.IsNearest n ↔ ∀ y : Binary64,
      (x.units - n * unitsPerOne).natAbs ≤ (y.units - n * unitsPerOne).natAbs ∧
      ((y.units - n * unitsPerOne).natAbs = (x.units - n * unitsPerOne).natAbs →
        y.units = x.units ∨ x.mantissa % 2 = 0) := by
  have hle : ∀ y : Binary64, |x.value - n| ≤ |y.value - n| ↔
      (x.units - n * unitsPerOne).natAbs ≤ (y.units - n * unitsPerOne).natAbs := by
    intro y
    rw [abs_value_sub, abs_value_sub, div_le_div_iff_of_pos_right unitsPerOne_cast_pos, Nat.cast_le]
  have htie : ∀ y : Binary64, |y.value - n| = |x.value - n| ↔
      (y.units - n * unitsPerOne).natAbs = (x.units - n * unitsPerOne).natAbs := by
    intro y
    rw [abs_value_sub, abs_value_sub, div_left_inj' unitsPerOne_cast_pos.ne', Nat.cast_inj]
  constructor
  · rintro ⟨hnearest, heven⟩ y
    exact ⟨(hle y).mp (hnearest y), fun h => (heven y ((htie y).mpr h)).imp_left value_eq_iff.mp⟩
  · intro h
    exact ⟨fun y => (hle y).mpr (h y).1, fun y hy => ((h y).2 ((htie y).mp hy)).imp_left value_eq_iff.mpr⟩

/-! ### Whole numbers -/

theorem log2_mul_unitsPerOne_le {a : ℕ} (h : a ≤ 2 ^ 64) : Nat.log2 (a * unitsPerOne) ≤ 1138 := by
  obtain ⟨k, hunits, hk⟩ := unitsPerOne_eq_pow
  by_cases hzero : a * unitsPerOne = 0
  · rw [hzero, Nat.log2_zero]
    exact Nat.zero_le _
  · have hpow : unitsPerOne = 2 ^ k := hunits
    have hlt : a * unitsPerOne < 2 ^ 65 * 2 ^ k := by
      rw [hpow]
      exact Nat.mul_lt_mul_of_pos_right (by omega) (Nat.two_pow_pos k)
    rw [← Nat.pow_add, ← Nat.log2_lt hzero] at hlt
    omega

/-- An integer is rounded by its absolute value, on its side of zero. -/
theorem exists_ofInt_eq {n : ℤ} (h : n.natAbs ≤ 2 ^ 64) :
    ∃ negative x, ofInt n = x ∧ ofRatio? negative (n * unitsPerOne).natAbs 1 = some x ∧
      (x.units ≤ 0 ∧ n * unitsPerOne ≤ 0 ∨ 0 ≤ x.units ∧ 0 ≤ n * unitsPerOne) := by
  have hscale : Nat.log2 (n.natAbs * unitsPerOne) - 52 ≤ 2044 := by
    have hlog := log2_mul_unitsPerOne_le h
    omega
  obtain ⟨x, hx⟩ := exists_ofRatio? (decide (n < 0)) (n.natAbs * unitsPerOne) (Nat.le_succ_of_le hscale)
    fun _ => hscale
  obtain ⟨hnegative, -, -⟩ := magnitude_of_ofRatio? hx
  have hmagnitude : (0 : ℤ) ≤ x.magnitude := Int.natCast_nonneg _
  have hpos : (0 : ℤ) ≤ unitsPerOne := Int.natCast_nonneg _
  refine ⟨_, x, ofInt_eq_of_magnitude hx, by rwa [Int.natAbs_mul, Int.natAbs_natCast], ?_⟩
  unfold units
  rw [hnegative]
  by_cases hn : n < 0
  · rw [if_pos (decide_eq_true hn)]
    exact Or.inl ⟨neg_nonpos.mpr hmagnitude, mul_nonpos_of_nonpos_of_nonneg hn.le hpos⟩
  · rw [if_neg (by simp [hn])]
    exact Or.inr ⟨hmagnitude, mul_nonneg (not_lt.mp hn) hpos⟩

/-- **The double of an integer is nearest to it.** -/
theorem isNearest_ofInt {n : ℤ} (h : n.natAbs ≤ 2 ^ 64) : (ofInt n).IsNearest n := by
  obtain ⟨negative, x, hx, hround, hside⟩ := exists_ofInt_eq h
  rw [hx, isNearest_intCast_iff]
  intro y
  obtain ⟨hle, htie⟩ := dist_magnitude_le hround y
  obtain ⟨hzero, -⟩ := dist_magnitude_le hround (zero false)
  have hzeroMagnitude : (zero false).magnitude = 0 := rfl
  rw [← natAbs_units, ← natAbs_units] at hle htie
  rw [← natAbs_units, hzeroMagnitude, Nat.dist_eq_sub_of_le (Nat.zero_le _)] at hzero
  have hdist := natAbs_sub_of_side hside
  have hother := dist_natAbs_le y.units (n * unitsPerOne)
  rw [hdist]
  refine ⟨hle.trans hother, fun hequal => ?_⟩
  rcases htie (le_antisymm (hequal ▸ hother) hle) with hmagnitude | heven
  · left
    rw [← hdist] at hequal hzero
    generalize n * unitsPerOne = target at *
    clear hle htie hother hdist
    omega
  · exact Or.inr heven

/-! ### Only one value is nearest -/

/-- The double of the opposite sign. -/
def neg (x : Binary64) : Binary64 := { x with negative := !x.negative }

@[simp] theorem units_neg (x : Binary64) : x.neg.units = -x.units := by
  have hmagnitude : x.neg.magnitude = x.magnitude := rfl
  have hsign : x.neg.negative = !x.negative := rfl
  unfold units
  rw [hmagnitude, hsign]
  cases x.negative <;> simp

theorem units_of_nonneg (h : 0 ≤ x.units) : x.units = x.magnitude := by
  have hunits := natAbs_units (x := x)
  omega

/-- **Above a double with an even coefficient** there is one with an odd coefficient before the next one with an
even one. -/
theorem exists_units_between_of_nonneg (hx : x.mantissa % 2 = 0) (hy : y.mantissa % 2 = 0)
    (hzero : 0 ≤ x.units) (h : x.units < y.units) :
    ∃ z : Binary64, x.units < z.units ∧ z.units < y.units := by
  have hmantissa : x.mantissa < Nat.pow 2 53 := x.mantissa_lt
  have heven : Nat.pow 2 53 % 2 = 0 := by decide
  have hpow : 0 < 2 ^ x.exponent := Nat.two_pow_pos x.exponent
  let z : Binary64 := ⟨false, x.mantissa + 1, x.exponent, by omega, x.exponent_le,
    x.normalized.imp_right fun hfull => Nat.le_succ_of_le hfull⟩
  have hz : z.units = (x.magnitude + 2 ^ x.exponent : ℕ) := by
    have hmagnitude : z.magnitude = (x.mantissa + 1) * 2 ^ x.exponent := rfl
    have hunits : z.units = z.magnitude := rfl
    rw [hunits, hmagnitude, Nat.succ_mul]
    rfl
  have hxu := units_of_nonneg hzero
  have hyu : y.units = y.magnitude := units_of_nonneg (by omega)
  refine ⟨z, by omega, ?_⟩
  by_contra hge
  -- then `y` has at least the exponent of `x`, so it is an even multiple of the last place of `x`
  have hexponent : x.exponent ≤ y.exponent := by
    by_contra hlt
    have := magnitude_lt_of_exponent_lt (x := x) (y := y) (by omega)
    omega
  have hmultiple : y.magnitude = y.mantissa * 2 ^ (y.exponent - x.exponent) * 2 ^ x.exponent := by
    rw [Nat.mul_assoc, ← Nat.pow_add, Nat.sub_add_cancel hexponent]
    rfl
  have hlower : x.mantissa * 2 ^ x.exponent < y.mantissa * 2 ^ (y.exponent - x.exponent) * 2 ^ x.exponent := by
    have hmagnitude : x.magnitude = x.mantissa * 2 ^ x.exponent := rfl
    omega
  have hupper : y.mantissa * 2 ^ (y.exponent - x.exponent) * 2 ^ x.exponent ≤
      (x.mantissa + 1) * 2 ^ x.exponent := by
    have hmagnitude : x.magnitude = x.mantissa * 2 ^ x.exponent := rfl
    rw [Nat.succ_mul]
    omega
  have hlt := Nat.lt_of_mul_lt_mul_right hlower
  have hle := Nat.le_of_mul_le_mul_right hupper hpow
  have hproduct : y.mantissa * 2 ^ (y.exponent - x.exponent) % 2 = 0 := by
    rw [Nat.mul_mod, hy, Nat.zero_mul, Nat.zero_mod]
  omega

/-- **Between two doubles with even coefficients lies a third one.** -/
theorem exists_units_between (hx : x.mantissa % 2 = 0) (hy : y.mantissa % 2 = 0) (h : x.units < y.units) :
    ∃ z : Binary64, x.units < z.units ∧ z.units < y.units := by
  by_cases hpos : 0 ≤ x.units
  · exact exists_units_between_of_nonneg hx hy hpos h
  · by_cases hneg : y.units ≤ 0
    · obtain ⟨z, hlow, hhigh⟩ := exists_units_between_of_nonneg (x := y.neg) (y := x.neg) hy hx
        (by rw [units_neg]; omega) (by rw [units_neg, units_neg]; omega)
      rw [units_neg] at hlow hhigh
      exact ⟨z.neg, by rw [units_neg]; omega, by rw [units_neg]; omega⟩
    · have hzero : (zero false).units = 0 := rfl
      exact ⟨zero false, by omega, by omega⟩

/-- A double between two others that are equally near is nearer. -/
theorem IsNearest.not_lt {q : ℚ} (hx : x.IsNearest q) (hdist : |x.value - q| = |y.value - q|)
    (hxe : x.mantissa % 2 = 0) (hye : y.mantissa % 2 = 0) : ¬ x.value < y.value := by
  intro hlt
  obtain ⟨z, hlow, hhigh⟩ := exists_units_between hxe hye (value_lt_iff.mp hlt)
  have hxz := value_lt_iff.mpr hlow
  have hzy := value_lt_iff.mpr hhigh
  have hmiddle : x.value - q = -(y.value - q) := by
    rcases abs_eq_abs.mp hdist with h | h
    · linarith
    · exact h
  have hnearer : |z.value - q| < |y.value - q| := by
    rw [abs_of_pos (by linarith : 0 < y.value - q), abs_lt]
    exact ⟨by linarith, by linarith⟩
  have hle := hx.abs_sub_le z
  linarith

/-- **The nearest doubles of a number have one value.** -/
theorem IsNearest.value_eq {q : ℚ} (hx : x.IsNearest q) (hy : y.IsNearest q) : x.value = y.value := by
  have hdist : |x.value - q| = |y.value - q| := le_antisymm (hx.abs_sub_le y) (hy.abs_sub_le x)
  by_contra hne
  have hxe : x.mantissa % 2 = 0 := (hx.even_of_tie y hdist.symm).resolve_left (Ne.symm hne)
  have hye : y.mantissa % 2 = 0 := (hy.even_of_tie x hdist).resolve_left hne
  rcases lt_or_gt_of_ne hne with hlt | hgt
  · exact hx.not_lt hdist hxe hye hlt
  · exact hy.not_lt hdist.symm hye hxe hgt

/-- Doubles of one value, the two zeros, are nearest to the same numbers. -/
theorem IsNearest.of_value_eq {q : ℚ} (hx : x.IsNearest q) (h : x.value = y.value) : y.IsNearest q := by
  have hmagnitude : x.magnitude = y.magnitude := by
    rw [← natAbs_units, ← natAbs_units, value_eq_iff.mp h]
  have hmantissa : x.mantissa = y.mantissa := (parts_eq_of_magnitude_eq hmagnitude).1
  refine ⟨fun z => ?_, fun z hz => ?_⟩
  · rw [← h]
    exact hx.abs_sub_le z
  · rw [← h, ← hmantissa]
    exact hx.even_of_tie z (by rw [hz, h])

/-! ### Integers with one double -/

/-- **One double is nearest to both integers.** -/
def Collide (m n : ℤ) : Prop := ∃ x : Binary64, x.IsNearest m ∧ x.IsNearest n

section Integers
variable {m n : ℤ}

/-- **Integers have doubles of one value exactly if they collide.** -/
theorem value_ofInt_eq_iff (hm : m.natAbs ≤ 2 ^ 64) (hn : n.natAbs ≤ 2 ^ 64) :
    (ofInt m).value = (ofInt n).value ↔ Collide m n := by
  constructor
  · intro h
    exact ⟨ofInt n, (isNearest_ofInt hm).of_value_eq h, isNearest_ofInt hn⟩
  · rintro ⟨x, hxm, hxn⟩
    exact ((isNearest_ofInt hm).value_eq hxm).trans (hxn.value_eq (isNearest_ofInt hn))

/-- An integer of less than `2^53` keeps its distance to all others. -/
theorem not_collide_of_natAbs_lt (hn : n.natAbs ≤ 2 ^ 64) (hne : m ≠ n) (hlt : m.natAbs < 2 ^ 53) :
    ¬ Collide m n := by
  rw [← value_ofInt_eq_iff (by omega) hn]
  intro h
  rw [value_ofInt (n := m) (by omega)] at h
  by_cases hle : n.natAbs ≤ 2 ^ 53
  · rw [value_ofInt hle, Int.cast_inj] at h
    exact hne h
  · have habs := le_abs_value_ofInt (n := n) (by omega)
    rw [← h, ← Int.cast_abs, Int.abs_eq_natAbs] at habs
    have hge : 2 ^ 53 ≤ m.natAbs := by exact_mod_cast habs
    omega

end Integers

end Binary64

end TypedJson
