import TypedJson.Timestamp
import Mathlib.Algebra.Group.Nat.Defs
import Mathlib.Data.List.TakeWhile
import Mathlib.Data.List.Induction

/-!
# Reading digits

A list of digits writes a number (`DayText.numberOf`), and the number has these digits (`digits_numberOf`), so
with a fixed count of decimal digits (`Timestamp.digits`) each number is written in one way.  The reader of RFC 3339
reads it back (`takeNumber_digits`) and takes no more digits than it has been told to.
-/

namespace TypedJson

/-! ### Digits -/

theorem DayText.numberOf_concat (cs : List Char) (c : Char) :
    numberOf (cs ++ [c]) = 10 * numberOf cs + (c.toNat - '0'.toNat) := by
  rw [numberOf, List.foldl_append]
  rfl

/-- The last `width` decimal digits of a number. -/
def Timestamp.digits : (width : Nat) → Nat → List Char
  | 0, _ => []
  | width + 1, n => digits width (n / 10) ++ [Nat.digitChar (n % 10)]

namespace Timestamp

theorem length_digits (width n : Nat) : (digits width n).length = width := by
  induction width generalizing n with
  | zero => rfl
  | succ width ih => rw [digits, List.length_append, ih, List.length_singleton]

theorem isDigit_of_mem_digits {width n : Nat} {c : Char} (h : c ∈ digits width n) :
    c.isDigit = true := by
  induction width generalizing n with
  | zero => cases h
  | succ width ih =>
    rcases List.mem_append.mp h with h | h
    · exact ih h
    · rw [List.mem_singleton.mp h, Nat.isDigit_digitChar]
      exact decide_eq_true (Nat.mod_lt n (by decide))

/-- **The digits write the number.** -/
theorem numberOf_digits {width n : Nat} (h : n < 10 ^ width) :
    DayText.numberOf (digits width n) = n := by
  induction width generalizing n with
  | zero =>
    obtain rfl : n = 0 := by omega
    rfl
  | succ width ih =>
    have hleading : DayText.numberOf (digits width (n / 10)) = n / 10 := by
      refine ih ?_
      rw [Nat.pow_succ] at h
      omega
    have hlast : (Nat.digitChar (n % 10)).toNat - '0'.toNat = n % 10 := by
      have hzero : '0'.toNat = 48 := rfl
      rw [Nat.toNat_digitChar_of_lt_ten (Nat.mod_lt n (by decide)), hzero]
      omega
    rw [digits, DayText.numberOf_concat, hleading, hlast]
    omega

/-- **Digits are those of the number that they write.** -/
theorem digits_numberOf {cs : List Char} (h : ∀ c ∈ cs, c.isDigit = true) :
    digits cs.length (DayText.numberOf cs) = cs := by
  induction cs using List.reverseRecOn with
  | nil => rfl
  | append_singleton cs c ih =>
    have hleading := ih fun d hd => h d (List.mem_append_left _ hd)
    have hcode := Char.isDigit_iff_toNat.mp (h c (by simp))
    have hzero : '0'.toNat = 48 := rfl
    have hnine : '9'.toNat = 57 := rfl
    have hlast : Nat.digitChar (c.toNat - 48) = c := by
      rw [← Char.toNat_inj, Nat.toNat_digitChar_of_lt_ten (by omega)]
      omega
    have hdiv : DayText.numberOf (cs ++ [c]) / 10 = DayText.numberOf cs := by
      rw [DayText.numberOf_concat]
      omega
    have hmod : DayText.numberOf (cs ++ [c]) % 10 = c.toNat - 48 := by
      rw [DayText.numberOf_concat]
      omega
    rw [List.length_append, List.length_singleton, digits, hdiv, hmod, hleading, hlast]

theorem numberOf_lt {cs : List Char} (h : ∀ c ∈ cs, c.isDigit = true) :
    DayText.numberOf cs < 10 ^ cs.length := by
  induction cs using List.reverseRecOn with
  | nil => decide
  | append_singleton cs c ih =>
    have hleading := ih fun d hd => h d (List.mem_append_left _ hd)
    have hcode := (Char.isDigit_iff_toNat.mp (h c (by simp))).2
    have hzero : '0'.toNat = 48 := rfl
    have hnine : '9'.toNat = 57 := rfl
    rw [DayText.numberOf_concat, List.length_append, List.length_singleton, Nat.pow_succ]
    omega

end Timestamp

section Readers
variable {c : Char} {cs rest : List Char}

/-- A digit is one byte. -/
theorem utf8Size_of_isDigit (h : c.isDigit = true) : c.utf8Size = 1 := by
  have hcode := (Char.isDigit_iff_toNat.mp h).2
  refine Char.utf8Size_eq_one_iff.mpr ?_
  exact Nat.le_trans hcode (by decide)

/-- A digit is no blank. -/
theorem Text.isBlank_of_isDigit (h : c.isDigit = true) : isBlank c = false := by
  have hcode := Char.isDigit_iff_toNat.mp h
  rw [← Bool.not_eq_true]
  simp only [isBlank, blankTable, inRanges_iff, List.mem_cons, List.not_mem_nil, or_false,
    not_exists, not_and]
  have hzero : '0'.toNat = 48 := rfl
  have hnine : '9'.toNat = 57 := rfl
  rintro _ (rfl | rfl | rfl | rfl | rfl | rfl | rfl | rfl | rfl | rfl) <;> dsimp only <;> omega

/-! ### RFC 3339 -/

namespace Rfc3339

theorem byteLength_append (cs rest : List Char) :
    byteLength (cs ++ rest) = byteLength cs + byteLength rest := by
  induction cs with
  | nil => simp [byteLength]
  | cons c cs ih => rw [List.cons_append, byteLength, byteLength, ih, Nat.add_assoc]

theorem byteLength_of_isDigit (h : ∀ c ∈ cs, c.isDigit = true) : byteLength cs = cs.length := by
  induction cs with
  | nil => rfl
  | cons c cs ih =>
    obtain ⟨hc, hcs⟩ := List.forall_mem_cons.mp h
    rw [byteLength, utf8Size_of_isDigit hc, ih hcs, List.length_cons, Nat.add_comm]

theorem byteLength_digits (width n : Nat) : byteLength (Timestamp.digits width n) = width := by
  rw [byteLength_of_isDigit fun _ => Timestamp.isDigit_of_mem_digits, Timestamp.length_digits]

theorem takeDigit_of_isDigit (h : c.isDigit = true) :
    takeDigit (c :: rest) = .ok (c.toNat - '0'.toNat, rest) := by
  rw [takeDigit, digit?, if_pos h]

/-- Digits are read one after the other. -/
theorem takeNumber_append (value : Nat) (h : ∀ c ∈ cs, c.isDigit = true) :
    takeNumber cs.length value (cs ++ rest) =
      .ok (cs.foldl (fun value c => 10 * value + (c.toNat - '0'.toNat)) value, rest) := by
  induction cs generalizing value with
  | nil => rfl
  | cons c cs ih =>
    obtain ⟨hc, hcs⟩ := List.forall_mem_cons.mp h
    rw [List.length_cons, takeNumber, List.cons_append, takeDigit_of_isDigit hc, List.foldl_cons]
    exact ih _ hcs

/-- **The digits of a number are read as the number.** -/
theorem takeNumber_digits {width n : Nat} (h : n < 10 ^ width) :
    takeNumber width 0 (Timestamp.digits width n ++ rest) = .ok (n, rest) := by
  have hread : takeNumber (Timestamp.digits width n).length 0 (Timestamp.digits width n ++ rest) =
      .ok (DayText.numberOf (Timestamp.digits width n), rest) :=
    takeNumber_append 0 fun _ => Timestamp.isDigit_of_mem_digits
  rwa [Timestamp.length_digits, Timestamp.numberOf_digits h] at hread

end Rfc3339

end Readers

end TypedJson
