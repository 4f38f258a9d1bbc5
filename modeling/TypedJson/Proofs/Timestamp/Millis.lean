import TypedJson.Proofs.Binary64.Value
import TypedJson.Schema.Decoding

/-!
# Milliseconds since the epoch

A number is read as the instant that many milliseconds from the epoch, a fraction being dropped
(`ofBinary64?_eq_some_iff`).  Numbers are doubles here, but every whole number with an instant is less than
`2^53`, and no other one is rounded to such a number, so whole numbers are read as if nothing were rounded
(`millisInRange_ofInt_iff`) and in their order (`order_eq`).
-/

namespace TypedJson

namespace Instant

variable {a b : Instant} {m n t : ℤ}

/-- **The number of milliseconds has an instant**: it is within a hundred million days of the epoch, and
without its fraction within the years of instants. -/
structure MillisInRange (x : ℚ) : Prop where
  abs_le : |x| ≤ 8640000000000000
  first_le : -8334601228800000 ≤ towardZero x
  le_last : towardZero x ≤ 8210266876799999

/-- **The instant so many milliseconds from the epoch**, with the seconds rounded down also before the
epoch, and the rest of less than a second in nanoseconds. -/
structure AtMillis (a : Instant) (t : ℤ) : Prop where
  seconds_eq : a.seconds = t.fdiv 1000
  nanos_eq : (a.nanos : ℤ) = (t - 1000 * a.seconds) * 1000000
  nanos_lt : a.nanos < 1000000000

theorem atMillis_iff : a.AtMillis t ↔ a = ⟨t / 1000, (t % 1000).toNat * 1000000⟩ := by
  have hfloor : t.fdiv 1000 = t / 1000 := Int.fdiv_eq_ediv_of_nonneg t (by decide)
  constructor
  · rintro ⟨hseconds, hnanos, -⟩
    obtain ⟨seconds, nanos⟩ := a
    simp only [mk.injEq] at hseconds hnanos ⊢
    omega
  · rintro rfl
    refine ⟨hfloor.symm, ?_, ?_⟩ <;> dsimp only <;> omega

/-- **Instants stand in the order of their milliseconds.** -/
theorem AtMillis.order_eq (ha : a.AtMillis m) (hb : b.AtMillis n) : a.order b = compare m n := by
  rw [atMillis_iff.mp ha, atMillis_iff.mp hb, order]
  dsimp only
  rcases lt_trichotomy m n with h | rfl | h
  · rw [compare_lt_iff_lt.mpr h]
    split
    · rfl
    · rw [if_neg (by omega), if_pos (by omega)]
  · simp
  · rw [compare_gt_iff_gt.mpr h, if_neg (by omega)]
    split
    · rfl
    · rw [if_neg (by omega), if_pos (by omega)]

theorem ofMillis?_eq_some_iff :
    ofMillis? t = some a ↔ (firstMillis ≤ t ∧ t ≤ lastMillis) ∧ a.AtMillis t := by
  rw [ofMillis?, atMillis_iff]
  split
  · next h => rw [Option.some.injEq, eq_comm, and_iff_right h]
  · next h => simp [h]

/-! ### Doubles -/

section Doubles
variable {x : Binary64}

theorem abs_value_le_maxMillis_iff :
    |x.value| ≤ 8640000000000000 ↔ ¬ maxMillis * Binary64.unitsPerOne < x.magnitude := by
  have hmax : (maxMillis : ℚ) = 8640000000000000 := by norm_num [maxMillis]
  rw [← hmax, Binary64.abs_value_le_iff, not_lt]

/-- **A double is read by its exact value**, without the fraction. -/
theorem ofBinary64?_eq_some_iff :
    ofBinary64? x = some a ↔ MillisInRange x.value ∧ a.AtMillis (towardZero x.value) := by
  rw [ofBinary64?]
  split
  · next h =>
    refine iff_of_false (by simp) ?_
    rintro ⟨hrange, -⟩
    exact abs_value_le_maxMillis_iff.mp hrange.abs_le h
  · next h =>
    rw [ofMillis?_eq_some_iff, x.truncate_eq]
    refine and_congr_left fun _ => ⟨fun hmillis => ⟨?_, hmillis.1, hmillis.2⟩, fun hrange => ?_⟩
    · exact abs_value_le_maxMillis_iff.mpr h
    · exact ⟨hrange.first_le, hrange.le_last⟩

theorem exists_ofBinary64?_iff : (∃ a, ofBinary64? x = some a) ↔ MillisInRange x.value := by
  simp only [ofBinary64?_eq_some_iff, exists_and_left]
  exact and_iff_left ⟨_, atMillis_iff.mpr rfl⟩

/-- Within range the conversion to a signed 64-bit word does not saturate. -/
theorem saturate_eq_towardZero (h : |x.value| ≤ 8640000000000000) :
    x.saturate Number.minInt Number.maxSigned = towardZero x.value := by
  have habs : |towardZero x.value| ≤ 8640000000000000 := by
    have hle := (abs_towardZero_le x.value).trans h
    exact_mod_cast hle
  rw [abs_le] at habs
  rw [Binary64.saturate, x.truncate_eq, Number.minInt, Number.maxSigned, if_neg (by omega),
    if_neg (by omega)]

end Doubles

/-! ### Whole numbers -/

/-- Of whole numbers only the years are limited. -/
theorem millisInRange_intCast_iff :
    MillisInRange n ↔ -8334601228800000 ≤ n ∧ n ≤ 8210266876799999 := by
  constructor
  · rintro ⟨-, hfirst, hlast⟩
    rw [towardZero_intCast] at hfirst hlast
    exact ⟨hfirst, hlast⟩
  · rintro ⟨hfirst, hlast⟩
    have habs : |n| ≤ 8640000000000000 := by
      rw [abs_le]
      omega
    refine ⟨by exact_mod_cast habs, ?_, ?_⟩ <;> rwa [towardZero_intCast]

/-- A whole number whose double has an instant is that double. -/
theorem value_ofInt_of_abs_le (h : |(Binary64.ofInt n).value| ≤ 8640000000000000) :
    (Binary64.ofInt n).value = n := by
  refine Binary64.value_ofInt (le_of_not_gt fun hgt => ?_)
  have hle := (Binary64.le_abs_value_ofInt hgt.le).trans h
  norm_num at hle

/-- **The rounding to a double does not matter.** -/
theorem millisInRange_ofInt_iff : MillisInRange (Binary64.ofInt n).value ↔ MillisInRange n := by
  constructor
  · intro h
    rwa [← value_ofInt_of_abs_le h.abs_le]
  · intro h
    have hle : |n| ≤ 8640000000000000 := by
      have hle := h.abs_le
      exact_mod_cast hle
    rw [Int.abs_eq_natAbs] at hle
    rwa [Binary64.value_ofInt (by omega)]

end Instant

theorem Timestamp.ofMillis_of_no_instant {millis : Binary64} (h : Instant.ofBinary64? millis = none) :
    ofMillis millis = .error (.ofCause
      (.invalidTimestamp (millis.shortest.text .plain millis.negative) "out of range")) := by
  unfold ofMillis
  rw [h]

theorem Decoder.date_number (n : Number) :
    date (some (.number n)) = Timestamp.ofMillis n.toBinary64 := by
  rw [date]

namespace Schema

open Instant

section Numbers
variable {n : Number} {a : Instant}

/-- A number is decoded to the instant of its double. -/
theorem decode_date_of_instant (h : ofBinary64? n.toBinary64 = some a) :
    date.decode (.number n) = .ok (.date a) := by
  rw [decode, Schema.decoder, Decoder.map_eq_ok_iff]
  exact ⟨a, (Decoder.date_number n).trans (Timestamp.ofMillis_of_instant h), rfl⟩

/-- A number without instant is reported as it stands for a double. -/
theorem decode_date_of_no_instant (h : ofBinary64? n.toBinary64 = none) :
    date.decode (.number n) = .error (.ofCause
      (.invalidTimestamp (n.toBinary64.shortest.text .plain n.toBinary64.negative) "out of range")) := by
  rw [decode, Schema.decoder, Decoder.map_eq_error_iff]
  exact (Decoder.date_number n).trans (Timestamp.ofMillis_of_no_instant h)

theorem decode_date_number_eq_ok_iff :
    date.decode (.number n) = .ok (.date a) ↔ ofBinary64? n.toBinary64 = some a := by
  cases h : ofBinary64? n.toBinary64 with
  | some b => rw [decode_date_of_instant h, Except.ok.injEq, Output.date.injEq, Option.some.injEq]
  | none => simp [decode_date_of_no_instant h]

end Numbers

theorem decode_date_int_eq_ok_iff {n : ℤ} {a : Instant} :
    date.decode (.int n) = .ok (.date a) ↔ MillisInRange n ∧ a.AtMillis n := by
  rw [Value.int, decode_date_number_eq_ok_iff, ofBinary64?_eq_some_iff, Number.toBinary64,
    millisInRange_ofInt_iff]
  refine and_congr_right fun h => ?_
  rw [value_ofInt_of_abs_le (millisInRange_ofInt_iff.mpr h).abs_le, towardZero_intCast]

/-- **Numbers are read as milliseconds exactly.**  A number is decoded if the exact value of its double is
in range, to the instant that many milliseconds from the epoch without the fraction, and else reported as
out of range.  A whole number that is decoded gives exactly its own milliseconds, and the instants stand in
the order of the numbers.  No double that passes the first bound exceeds a signed 64-bit word. -/
theorem decode_date_exact :
    (∀ n : Number,
      let x := n.toBinary64.value
      (MillisInRange x ∧ ∃ a, date.decode (.number n) = .ok (.date a) ∧ a.AtMillis (towardZero x)) ∨
      (¬ MillisInRange x ∧ date.decode (.number n) = .error (.ofCause (.invalidTimestamp
        (n.toBinary64.shortest.text .plain n.toBinary64.negative) "out of range")))) ∧
    (∀ (n : ℤ) (a : Instant), date.decode (.int n) = .ok (.date a) ↔ MillisInRange n ∧ a.AtMillis n) ∧
    (∀ (m n : ℤ) (a b : Instant), date.decode (.int m) = .ok (.date a) →
      date.decode (.int n) = .ok (.date b) → a.order b = compare m n) ∧
    ∀ x : Binary64, |x.value| ≤ 8640000000000000 →
      x.saturate Number.minInt Number.maxSigned = towardZero x.value := by
  refine ⟨fun n => ?_, fun n a => decode_date_int_eq_ok_iff, fun m n a b ha hb => ?_,
    fun x => saturate_eq_towardZero⟩
  · cases h : ofBinary64? n.toBinary64 with
    | some a =>
      obtain ⟨hrange, ha⟩ := ofBinary64?_eq_some_iff.mp h
      exact Or.inl ⟨hrange, a, decode_date_of_instant h, ha⟩
    | none =>
      refine Or.inr ⟨fun hrange => ?_, decode_date_of_no_instant h⟩
      obtain ⟨a, ha⟩ := exists_ofBinary64?_iff.mpr hrange
      cases h.symm.trans ha
  · exact (decode_date_int_eq_ok_iff.mp ha).2.order_eq (decode_date_int_eq_ok_iff.mp hb).2

/-- The millisecond before the epoch and the last one with an instant, and the two after them. -/
theorem decode_date_exact_last :
    date.decode (.int (-1)) = .ok (.date ⟨-1, 999000000⟩) ∧
      date.decode (.int 8210266876799999) = .ok (.date ⟨8210266876799, 999000000⟩) ∧
      order ⟨-1, 999000000⟩ ⟨8210266876799, 999000000⟩ = .lt ∧
      date.decode (.int 8210266876800000) =
        .error (.ofCause (.invalidTimestamp "8210266876800000" "out of range")) ∧
      (Binary64.ofInt (-1)).saturate Number.minInt Number.maxSigned = towardZero (-1 : ℤ) := by
  obtain ⟨hdouble, hwhole, horder, hword⟩ := decode_date_exact
  have hfirst : date.decode (.int (-1)) = .ok (.date ⟨-1, 999000000⟩) :=
    (hwhole _ _).mpr ⟨millisInRange_intCast_iff.mpr (by decide), atMillis_iff.mpr rfl⟩
  have hlast : date.decode (.int 8210266876799999) = .ok (.date ⟨8210266876799, 999000000⟩) :=
    (hwhole _ _).mpr ⟨millisInRange_intCast_iff.mpr (by decide), atMillis_iff.mpr rfl⟩
  refine ⟨hfirst, hlast, horder _ _ _ _ hfirst hlast, ?_, ?_⟩
  · have hint : (Number.int 8210266876800000).toBinary64 = Binary64.ofInt 8210266876800000 := rfl
    have htext : (Binary64.ofInt 8210266876800000).shortest.text .plain
        (Binary64.ofInt 8210266876800000).negative = "8210266876800000" := by decide +kernel
    rcases hdouble (.int 8210266876800000) with ⟨hrange, -⟩ | ⟨-, h⟩
    · rw [hint] at hrange
      exact absurd (millisInRange_intCast_iff.mp (millisInRange_ofInt_iff.mp hrange)) (by decide)
    · rw [hint, htext] at h
      exact h
  · have hvalue : (Binary64.ofInt (-1)).value = (-1 : ℤ) := Binary64.value_ofInt (by decide)
    rw [hword _ (by rw [hvalue]; norm_num), hvalue]

end Schema

end TypedJson
