import TypedJson.Proofs.Calendar
import TypedJson.Proofs.Timestamp.Millis

/-!
# The years of instants in milliseconds

An integer is read as a timestamp exactly if its millisecond is one of a day of the years of instants
(`decode_date_iff_inYears`).  These years begin after and end before the hundred million days either side of the
epoch that numbers are limited to first, so the limit refuses no integer that has an instant, and some integers
that it lets through are refused all the same (`decode_date_refuses_documented`).
-/

namespace TypedJson

namespace Instant

variable {n : ℤ}

/-- **The millisecond is one of a day of the years of instants.** -/
def InYears (n : ℤ) : Prop :=
  ∃ d : Calendar.Day, (firstYear ≤ d.year ∧ d.year ≤ lastYear) ∧
    86400000 * d.number ≤ n ∧ n < 86400000 * (d.number + 1)

/-- The first and the last millisecond are those of the first and the last year. -/
theorem inYears_iff : InYears n ↔ -8334601228800000 ≤ n ∧ n ≤ 8210266876799999 := by
  have hfirst : Calendar.dayNumber firstYear 1 1 = -96465292 := by decide
  have hlast : Calendar.dayNumber (lastYear + 1) 1 1 = 95026237 := by decide
  have hyears : ∀ d : Calendar.Day,
      firstYear ≤ d.year ∧ d.year ≤ lastYear ↔ -96465292 ≤ d.number ∧ d.number < 95026237 := by
    intro d
    rw [d.mem_years_iff, hfirst, hlast]
  constructor
  · rintro ⟨d, hd, hstart, hend⟩
    have hnumber := (hyears d).mp hd
    omega
  · intro h
    obtain ⟨d, hd⟩ := Calendar.Day.number_surjective (n / 86400000)
    refine ⟨d, (hyears d).mpr ?_, ?_⟩ <;> rw [hd] <;> omega

theorem millisInRange_iff_inYears : MillisInRange n ↔ InYears n := by
  rw [millisInRange_intCast_iff, inYears_iff]

theorem InYears.natAbs_le (h : InYears n) : n.natAbs ≤ maxMillis := by
  rw [inYears_iff] at h
  unfold maxMillis
  omega

end Instant

namespace Schema

open Instant

/-- **The failure of an integer without an instant.** -/
def outOfRange (n : ℤ) : Failure :=
  .ofCause (.invalidTimestamp ((Binary64.ofInt n).shortest.text .plain (Binary64.ofInt n).negative)
    "out of range")

/-- An integer outside the years of instants is reported as out of range. -/
theorem decode_date_of_not_inYears {n : ℤ} (h : ¬ InYears n) : date.decode (.int n) = .error (outOfRange n) := by
  have hnone : ofBinary64? (Binary64.ofInt n) = none := by
    by_contra hsome
    have hrange := exists_ofBinary64?_iff.mp (Option.ne_none_iff_exists'.mp hsome)
    exact h (millisInRange_iff_inYears.mp (millisInRange_ofInt_iff.mp hrange))
  exact decode_date_of_no_instant hnone

/-- **The integers with an instant are the milliseconds of the years of instants.**  An integer is decoded to the
instant that many milliseconds from the epoch if the millisecond is in these years, and else reported as out of
range.  This is so for every integer beyond a hundred million days either side of the epoch, but also for those
up to it that come before the first or after the last millisecond of the years. -/
theorem decode_date_iff_inYears (n : ℤ) :
    (∀ a, date.decode (.int n) = .ok (.date a) ↔ InYears n ∧ a.AtMillis n) ∧
      (date.decode (.int n) = .error (outOfRange n) ↔ ¬ InYears n) ∧
      (InYears n ↔ -8334601228800000 ≤ n ∧ n ≤ 8210266876799999) ∧
      (maxMillis < n.natAbs → date.decode (.int n) = .error (outOfRange n)) := by
  have hok : ∀ a, date.decode (.int n) = .ok (.date a) ↔ InYears n ∧ a.AtMillis n := by
    intro a
    rw [decode_date_int_eq_ok_iff, millisInRange_iff_inYears]
  refine ⟨hok, ⟨fun herror hyears => ?_, decode_date_of_not_inYears⟩, inYears_iff, fun hbeyond => ?_⟩
  · have hdecode := (hok _).mpr ⟨hyears, atMillis_iff.mpr rfl⟩
    cases hdecode.symm.trans herror
  · refine decode_date_of_not_inYears fun hyears => ?_
    have hle := hyears.natAbs_le
    omega

/-- The last millisecond, the next one, and the first one beyond a hundred million days. -/
theorem decode_date_iff_inYears_last :
    date.decode (.int 8210266876799999) = .ok (.date ⟨8210266876799, 999000000⟩) ∧
      date.decode (.int 8210266876800000) = .error (outOfRange 8210266876800000) ∧
      maxMillis < Int.natAbs 8640000000000001 ∧
      date.decode (.int 8640000000000001) = .error (outOfRange 8640000000000001) := by
  obtain ⟨hok, -, hyears, -⟩ := decode_date_iff_inYears 8210266876799999
  obtain ⟨-, herror, hyearsNext, -⟩ := decode_date_iff_inYears 8210266876800000
  obtain ⟨-, -, -, hbeyond⟩ := decode_date_iff_inYears 8640000000000001
  have hlimit : maxMillis < Int.natAbs 8640000000000001 := by decide
  refine ⟨(hok _).mpr ⟨hyears.mpr (by decide), atMillis_iff.mpr rfl⟩, herror.mpr ?_, hlimit, hbeyond hlimit⟩
  rw [hyearsNext]
  decide

/-- **A hundred million days after and before the epoch are refused**, though they are not beyond the limit. -/
theorem decode_date_refuses_documented :
    Int.natAbs 8640000000000000 ≤ maxMillis ∧ Int.natAbs (-8640000000000000) ≤ maxMillis ∧
      date.decode (.int 8640000000000000) =
        .error (.ofCause (.invalidTimestamp "8640000000000000" "out of range")) ∧
      date.decode (.int (-8640000000000000)) =
        .error (.ofCause (.invalidTimestamp "-8640000000000000" "out of range")) := by
  have hafter : (Binary64.ofInt 8640000000000000).shortest.text .plain
      (Binary64.ofInt 8640000000000000).negative = "8640000000000000" := by decide +kernel
  have hbefore : (Binary64.ofInt (-8640000000000000)).shortest.text .plain
      (Binary64.ofInt (-8640000000000000)).negative = "-8640000000000000" := by decide +kernel
  refine ⟨by decide, by decide, ?_, ?_⟩
  · rw [← hafter]
    exact decode_date_of_not_inYears (by rw [inYears_iff]; decide)
  · rw [← hbefore]
    exact decode_date_of_not_inYears (by rw [inYears_iff]; decide)

end Schema

end TypedJson
