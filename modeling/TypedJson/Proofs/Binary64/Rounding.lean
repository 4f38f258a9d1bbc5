import TypedJson.Binary64.Rounding
import TypedJson.Proofs.Binary64.Canonical
import Mathlib.Algebra.Group.Nat.Defs

/-!
# Rounding keeps doubles

A whole number of units is rounded to a multiple of the power of two whose bits it drops
(`magnitude_of_ofRatio?`), so nothing changes if these bits are zero (`ofRatio?_of_dvd`).  They are for
the value of a double, so a whole number that is a double is rounded to itself (`units_ofInt`), and they
are for every whole number of at most `2^53` in absolute value (`units_ofInt_of_natAbs_le`).  A greater one
may be rounded, but not to less than `2^53`, since its leading bit stays (`le_magnitude_ofInt`).
-/

namespace TypedJson

theorem roundDiv_mul (quotient : Nat) {den : Nat} (h : 0 < den) :
    roundDiv (quotient * den) den = quotient := by
  simp [roundDiv, Nat.mul_div_cancel quotient h, h]

/-- A quotient is rounded down if the rest is at most half of the divisor, and up if it is at least half. -/
theorem roundDiv_cases (num den : Nat) :
    (roundDiv num den = num / den ∧ 2 * (num % den) ≤ den) ∨
      (roundDiv num den = num / den + 1 ∧ den ≤ 2 * (num % den)) := by
  unfold roundDiv
  dsimp only
  split
  · exact Or.inl ⟨rfl, by omega⟩
  · split
    · exact Or.inr ⟨rfl, by omega⟩
    · rcases Nat.mod_two_eq_zero_or_one (num / den) with h | h
      · exact Or.inl ⟨by omega, by omega⟩
      · exact Or.inr ⟨by omega, by omega⟩

theorem div_le_roundDiv (num den : Nat) : num / den ≤ roundDiv num den := by
  rcases roundDiv_cases num den with ⟨h, -⟩ | ⟨h, -⟩ <;> omega

namespace Binary64

/-! ### The bits that are kept -/

/-- At most 53 bits are kept, and no fewer if others are dropped. -/
theorem kept_bits (num : Nat) :
    num / 2 ^ (Nat.log2 num - 52) < 2 ^ 53 ∧
      (Nat.log2 num - 52 = 0 ∨ 2 ^ 52 ≤ num / 2 ^ (Nat.log2 num - 52)) := by
  constructor
  · rw [Nat.div_lt_iff_lt_mul (Nat.two_pow_pos _), ← Nat.pow_add]
    exact Nat.lt_of_lt_of_le Nat.lt_log2_self (Nat.pow_le_pow_right (by decide) (by omega))
  · by_cases hzero : Nat.log2 num - 52 = 0
    · exact Or.inl hzero
    · right
      have hne : num ≠ 0 := by
        rintro rfl
        rw [Nat.log2_zero] at hzero
        omega
      rw [Nat.le_div_iff_mul_le (Nat.two_pow_pos _), ← Nat.pow_add, ← Nat.le_log2 hne]
      omega

theorem parts_of_ofParts? {negative : Bool} {mantissa exponent : Nat} {x : Binary64}
    (h : ofParts? negative mantissa exponent = some x) :
    x.negative = negative ∧ x.mantissa = mantissa ∧ x.exponent = exponent := by
  unfold ofParts? at h
  split at h
  · cases h
    exact ⟨rfl, rfl, rfl⟩
  · cases h

/-- A whole number of units is rounded at the scale of the bits that it drops. -/
theorem ofRatio?_one (negative : Bool) (num : Nat) :
    ofRatio? negative num 1 =
      if roundDiv num (2 ^ (Nat.log2 num - 52)) = Nat.pow 2 53 then
        ofParts? negative (Nat.pow 2 52) (Nat.log2 num - 52 + 1)
      else ofParts? negative (roundDiv num (2 ^ (Nat.log2 num - 52))) (Nat.log2 num - 52) := by
  rw [ofRatio?, Nat.div_one, Nat.one_mul]
  rfl

/-- **The magnitude of the result is the rounded quotient at its scale**, also if it has a bit more and the scale
changes.  Its coefficient is even if the quotient is. -/
theorem magnitude_of_ofRatio? {negative : Bool} {num : Nat} {x : Binary64}
    (h : ofRatio? negative num 1 = some x) :
    x.negative = negative ∧
      x.magnitude = roundDiv num (2 ^ (Nat.log2 num - 52)) * 2 ^ (Nat.log2 num - 52) ∧
      (roundDiv num (2 ^ (Nat.log2 num - 52)) % 2 = 0 → x.mantissa % 2 = 0) := by
  rw [ofRatio?_one] at h
  split at h
  · next hcarry =>
    obtain ⟨hnegative, hmantissa, hexponent⟩ := parts_of_ofParts? h
    have hhalf : Nat.pow 2 53 = Nat.pow 2 52 * 2 := by decide
    have hpow : 2 ^ (Nat.log2 num - 52 + 1) = 2 * 2 ^ (Nat.log2 num - 52) := Nat.pow_succ'
    have heven : Nat.pow 2 52 % 2 = 0 := by decide
    refine ⟨hnegative, ?_, fun _ => by rw [hmantissa, heven]⟩
    rw [magnitude, hmantissa, hexponent, hcarry, hhalf, Nat.mul_assoc, ← hpow]
    rfl
  · obtain ⟨hnegative, hmantissa, hexponent⟩ := parts_of_ofParts? h
    refine ⟨hnegative, ?_, fun heven => by rw [hmantissa, heven]⟩
    rw [magnitude, hmantissa, hexponent]
    rfl

/-- There is a result if its scale is that of a double, after the change as well. -/
theorem exists_ofRatio? (negative : Bool) (num : Nat) (hscale : Nat.log2 num - 52 ≤ 2045)
    (hcarry : roundDiv num (2 ^ (Nat.log2 num - 52)) = Nat.pow 2 53 → Nat.log2 num - 52 ≤ 2044) :
    ∃ x, ofRatio? negative num 1 = some x := by
  obtain ⟨hlt, hfull⟩ := kept_bits num
  have hdiv := div_le_roundDiv num (2 ^ (Nat.log2 num - 52))
  rw [ofRatio?_one]
  split
  · next hround =>
    have hparts : Nat.pow 2 52 < Nat.pow 2 53 ∧ Nat.log2 num - 52 + 1 ≤ 2045 ∧
        (Nat.log2 num - 52 + 1 = 0 ∨ Nat.pow 2 52 ≤ Nat.pow 2 52) :=
      ⟨by decide, Nat.succ_le_succ (hcarry hround), Or.inr (Nat.le_refl _)⟩
    rw [ofParts?, dif_pos hparts]
    exact ⟨_, rfl⟩
  · next hround =>
    have hle : roundDiv num (2 ^ (Nat.log2 num - 52)) ≤ 2 ^ 53 := by
      rcases roundDiv_cases num (2 ^ (Nat.log2 num - 52)) with ⟨h, -⟩ | ⟨h, -⟩ <;> omega
    have hparts : roundDiv num (2 ^ (Nat.log2 num - 52)) < Nat.pow 2 53 ∧ Nat.log2 num - 52 ≤ 2045 ∧
        (Nat.log2 num - 52 = 0 ∨ Nat.pow 2 52 ≤ roundDiv num (2 ^ (Nat.log2 num - 52))) :=
      ⟨Nat.lt_of_le_of_ne hle hround, hscale, hfull.imp_right fun h => Nat.le_trans h hdiv⟩
    rw [ofParts?, dif_pos hparts]
    exact ⟨_, rfl⟩

/-- **A whole number of units whose dropped bits are zero is a double.** -/
theorem ofRatio?_of_dvd (negative : Bool) {num : Nat} (hdvd : 2 ^ (Nat.log2 num - 52) ∣ num)
    (hle : Nat.log2 num - 52 ≤ 2045) :
    ∃ x, ofRatio? negative num 1 = some x ∧ x.negative = negative ∧ x.magnitude = num := by
  have hnum : num / 2 ^ (Nat.log2 num - 52) * 2 ^ (Nat.log2 num - 52) = num := Nat.div_mul_cancel hdvd
  have hround : roundDiv num (2 ^ (Nat.log2 num - 52)) = num / 2 ^ (Nat.log2 num - 52) := by
    have hquotient := roundDiv_mul (num / 2 ^ (Nat.log2 num - 52)) (Nat.two_pow_pos (Nat.log2 num - 52))
    rwa [hnum] at hquotient
  obtain ⟨x, hx⟩ := exists_ofRatio? negative num hle fun hcarry =>
    absurd (hround.symm.trans hcarry) (Nat.ne_of_lt (kept_bits num).1)
  obtain ⟨hnegative, hmagnitude, -⟩ := magnitude_of_ofRatio? hx
  exact ⟨x, hx, hnegative, by rw [hmagnitude, hround, hnum]⟩

/-! ### Doubles -/

/-- The value of a double drops as many bits as its exponent says. -/
theorem log2_magnitude (x : Binary64) : Nat.log2 x.magnitude - 52 = x.exponent := by
  have hpow : 0 < 2 ^ x.exponent := Nat.two_pow_pos x.exponent
  have hmantissa : x.mantissa < 2 ^ 53 := x.mantissa_lt
  have hmagnitude : x.magnitude = x.mantissa * 2 ^ x.exponent := rfl
  by_cases hzero : x.mantissa = 0
  · have hexponent : x.exponent = 0 :=
      x.normalized.resolve_right fun hle => absurd hle (by rw [hzero]; decide)
    rw [magnitude_eq_zero_iff.mpr hzero, hexponent, Nat.log2_zero]
  · have hne : x.magnitude ≠ 0 := fun h => hzero (magnitude_eq_zero_iff.mp h)
    have hlt : Nat.log2 x.magnitude < 53 + x.exponent := by
      rw [Nat.log2_lt hne, hmagnitude, Nat.pow_add]
      exact Nat.mul_lt_mul_of_pos_right hmantissa hpow
    rcases x.normalized with hexponent | hfull
    · omega
    · have hle : 52 + x.exponent ≤ Nat.log2 x.magnitude := by
        rw [Nat.le_log2 hne, hmagnitude, Nat.pow_add]
        exact Nat.mul_le_mul_right _ hfull
      omega

/-! ### Whole numbers -/

theorem ofInt_eq_of_magnitude {n : Int} {x : Binary64}
    (h : ofRatio? (decide (n < 0)) (n.natAbs * unitsPerOne) 1 = some x) : ofInt n = x := by
  rw [ofInt, h, Option.getD_some]

/-- A whole number that drops no bits is rounded to itself. -/
theorem units_ofInt_of_dvd {n : Int}
    (hdvd : 2 ^ (Nat.log2 (n.natAbs * unitsPerOne) - 52) ∣ n.natAbs * unitsPerOne)
    (hle : Nat.log2 (n.natAbs * unitsPerOne) - 52 ≤ 2045) :
    (ofInt n).units = n * unitsPerOne := by
  obtain ⟨x, hx, hnegative, hmagnitude⟩ := ofRatio?_of_dvd (decide (n < 0)) hdvd hle
  rw [ofInt_eq_of_magnitude hx, units, hnegative, hmagnitude]
  rw [Int.natCast_mul]
  by_cases hn : n < 0
  · rw [if_pos (decide_eq_true hn), Int.ofNat_natAbs_of_nonpos (by omega), Int.neg_mul, Int.neg_neg]
  · rw [if_neg (by simp [hn]), Int.natAbs_of_nonneg (by omega)]

/-- **A whole number that is a double is rounded to itself.** -/
theorem units_ofInt {n : Int} {x : Binary64} (h : x.units = n * unitsPerOne) :
    (ofInt n).units = n * unitsPerOne := by
  have hmagnitude : n.natAbs * unitsPerOne = x.magnitude := by
    rw [← natAbs_units, h, Int.natAbs_mul, Int.natAbs_natCast]
  refine units_ofInt_of_dvd ?_ ?_
  · rw [hmagnitude, log2_magnitude]
    exact Nat.dvd_mul_left _ _
  · rw [hmagnitude, log2_magnitude]
    exact x.exponent_le

/-- With at most 53 bits before them, all bits to be dropped are zeros. -/
theorem log2_shift_le {n k : Nat} (h : n ≤ 2 ^ 53) :
    2 ^ (Nat.log2 (n * 2 ^ k) - 52) ∣ n * 2 ^ k ∧ Nat.log2 (n * 2 ^ k) - 52 ≤ k + 1 := by
  rcases Nat.lt_or_eq_of_le h with hlt | rfl
  · have hle : Nat.log2 (n * 2 ^ k) - 52 ≤ k := by
      by_cases hzero : n * 2 ^ k = 0
      · rw [hzero, Nat.log2_zero]
        omega
      · have hlog : Nat.log2 (n * 2 ^ k) < 53 + k := by
          rw [Nat.log2_lt hzero, Nat.pow_add]
          exact Nat.mul_lt_mul_of_pos_right hlt (Nat.two_pow_pos k)
        omega
    exact ⟨Nat.dvd_trans (Nat.pow_dvd_pow 2 hle) (Nat.dvd_mul_left _ _), by omega⟩
  · rw [← Nat.pow_add, Nat.log2_two_pow]
    exact ⟨Nat.pow_dvd_pow 2 (by omega), by omega⟩

theorem unitsPerOne_eq_pow : ∃ k, unitsPerOne = Nat.pow 2 k ∧ k ≤ 1074 := by
  unfold unitsPerOne
  exact ⟨_, rfl, by decide⟩

theorem unitsPerOne_pos : 0 < unitsPerOne := by
  obtain ⟨k, hunits, -⟩ := unitsPerOne_eq_pow
  rw [hunits]
  exact Nat.two_pow_pos k

/-- **Every whole number of at most `2^53` in absolute value is a double.** -/
theorem units_ofInt_of_natAbs_le {n : Int} (h : n.natAbs ≤ 2 ^ 53) :
    (ofInt n).units = n * unitsPerOne := by
  obtain ⟨k, hunits, hk⟩ := unitsPerOne_eq_pow
  obtain ⟨hdvd, hle⟩ := log2_shift_le (k := k) h
  refine units_ofInt_of_dvd ?_ ?_
  · rw [hunits]
    exact hdvd
  · rw [hunits]
    exact Nat.le_trans hle (Nat.le_trans (Nat.succ_le_succ hk) (by decide))

/-! ### The leading bit -/

/-- **Rounding does not lose the leading bit**, though it may carry into a higher one. -/
theorem two_pow_log2_le_magnitude {negative : Bool} {num : Nat} {x : Binary64}
    (hlog : 52 ≤ Nat.log2 num) (h : ofRatio? negative num 1 = some x) :
    2 ^ Nat.log2 num ≤ x.magnitude := by
  obtain ⟨exponent, hexponent⟩ := Nat.exists_eq_add_of_le hlog
  have hne : num ≠ 0 := by
    rintro rfl
    rw [Nat.log2_zero] at hlog
    omega
  have hpow : 2 ^ Nat.log2 num = 2 ^ 52 * 2 ^ exponent := by rw [hexponent, Nat.pow_add]
  have hquotient : 2 ^ 52 ≤ num / 2 ^ exponent := by
    rw [Nat.le_div_iff_mul_le (Nat.two_pow_pos exponent), ← hpow]
    exact Nat.log2_self_le hne
  obtain ⟨-, hmagnitude, -⟩ := magnitude_of_ofRatio? h
  rw [hmagnitude, hpow, hexponent, Nat.add_sub_cancel_left]
  exact Nat.mul_le_mul_right _ (Nat.le_trans hquotient (div_le_roundDiv num (2 ^ exponent)))

theorem le_magnitude_largest (negative : Bool) :
    2 ^ 53 * unitsPerOne ≤ (largest negative).magnitude := by
  obtain ⟨k, hunits, hk⟩ := unitsPerOne_eq_pow
  have hdouble : 2 ^ (k + 1) = 2 * 2 ^ k := Nat.pow_succ'
  have hcarry : 2 ^ 53 * 2 ^ k = 2 ^ 52 * 2 ^ (k + 1) := by omega
  have hmantissa : 2 ^ 52 ≤ Nat.pow 2 53 - 1 := by decide
  have hexponent : Nat.pow 2 (k + 1) ≤ Nat.pow 2 (largest negative).exponent :=
    Nat.pow_le_pow_right (by decide) (Nat.le_trans (Nat.succ_le_succ hk) (by decide : 1075 ≤ 2045))
  calc 2 ^ 53 * unitsPerOne = 2 ^ 52 * Nat.pow 2 (k + 1) := hunits ▸ hcarry
    _ ≤ (largest negative).magnitude := Nat.mul_le_mul hmantissa hexponent

/-- **A whole number of `2^53` or more is not rounded to less**, sign aside. -/
theorem le_magnitude_ofInt {n : Int} (h : 2 ^ 53 ≤ n.natAbs) :
    2 ^ 53 * unitsPerOne ≤ (ofInt n).magnitude := by
  cases hround : ofRatio? (decide (n < 0)) (n.natAbs * unitsPerOne) 1 with
  | none =>
    rw [ofInt, hround, Option.getD_none]
    exact le_magnitude_largest _
  | some x =>
    obtain ⟨k, hunits, -⟩ := unitsPerOne_eq_pow
    have hle : 2 ^ (53 + k) ≤ n.natAbs * unitsPerOne := by
      rw [hunits, Nat.pow_add]
      exact Nat.mul_le_mul_right _ h
    have hne : n.natAbs * unitsPerOne ≠ 0 := Nat.ne_of_gt (Nat.lt_of_lt_of_le (Nat.two_pow_pos _) hle)
    have hlog : 53 + k ≤ Nat.log2 (n.natAbs * unitsPerOne) := (Nat.le_log2 hne).mpr hle
    rw [ofInt_eq_of_magnitude hround]
    calc 2 ^ 53 * unitsPerOne = 2 ^ (53 + k) := by rw [hunits, Nat.pow_add]; rfl
      _ ≤ 2 ^ Nat.log2 (n.natAbs * unitsPerOne) := Nat.pow_le_pow_right (by decide) hlog
      _ ≤ x.magnitude := two_pow_log2_le_magnitude (by omega) hround

end Binary64

end TypedJson
