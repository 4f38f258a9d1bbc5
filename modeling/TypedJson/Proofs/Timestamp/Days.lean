import TypedJson.Proofs.Timestamp.DayText
import TypedJson.Proofs.Timestamp.Millis
import TypedJson.Proofs.Value.Structure

/-!
# Three notations of a day

A day of a year of four digits can be written as the bare day `YYYY-MM-DD`, as the timestamp of its start in
UTC, and as the number of milliseconds from the epoch to its start.  All three denote the same instant, the
seconds being counted by days (`notations_of_a_day_agree`).  A bare day is too short for a timestamp
(`parse_dayText`), so it is always left to the reader of bare days, which takes exactly the days that exist
(`parse?_dayText`).
-/

namespace TypedJson

/-! ### The text of a day -/

/-- **The text `YYYY-MM-DD`.** -/
def Timestamp.dayText (year month day : Nat) : String :=
  String.ofList (digits 4 year ++ '-' :: (digits 2 month ++ '-' :: digits 2 day))

section Texts
variable {year month day : Nat}

theorem Timestamp.toList_dayText :
    (dayText year month day).toList = digits 4 year ++ '-' :: (digits 2 month ++ '-' :: digits 2 day) :=
  String.toList_ofList

namespace Rfc3339

open Timestamp

/-- A text that begins with a day. -/
theorem takeDay_digits (hyear : year < 10 ^ 4) (hmonth : month < 10 ^ 2) (hday : day < 10 ^ 2)
    (rest : List Char) :
    takeDay (digits 4 year ++ '-' :: (digits 2 month ++ '-' :: (digits 2 day ++ rest))) =
      if Calendar.isDay year month day then .ok (Calendar.dayNumber year month day, rest)
      else .error .outOfRange := by
  have hmark : ∀ cs, takeMark (· == '-') ('-' :: cs) = .ok cs := fun _ => rfl
  simp only [takeDay, takeNumber_digits hyear, takeNumber_digits hmonth, takeNumber_digits hday, hmark,
    bind, Except.bind]

theorem byteLength_dayText : byteLength (dayText year month day).toList = 10 := by
  have hmark : ∀ cs, byteLength ('-' :: cs) = 1 + byteLength cs := fun _ => rfl
  rw [toList_dayText]
  simp only [byteLength_append, byteLength_digits, hmark]

/-- **A bare day is too short for a timestamp.** -/
theorem parse_dayText : parse (dayText year month day) = .error .tooShort := by
  rw [parse]
  dsimp only
  rw [byteLength_dayText]
  rfl

/-- **The start of a day in UTC.** -/
theorem parse_dayText_midnight (hyear : year < 10 ^ 4) (hmonth : month < 10 ^ 2) (hday : day < 10 ^ 2)
    (h : Calendar.isDay year month day = true) :
    parse (dayText year month day ++ "T00:00:00Z") =
      .ok (Instant.ofDay (Calendar.dayNumber year month day)) := by
  have hlist : (dayText year month day ++ "T00:00:00Z").toList =
      digits 4 year ++ '-' :: (digits 2 month ++ '-' :: (digits 2 day ++ "T00:00:00Z".toList)) := by
    rw [String.toList_append, toList_dayText]
    simp only [List.append_assoc, List.cons_append]
  have hlength : ¬ byteLength (dayText year month day ++ "T00:00:00Z").toList < 19 := by
    rw [String.toList_append, byteLength_append, byteLength_dayText]
    decide
  have hclock : takeClock "T00:00:00Z".toList = .ok (⟨0, 0, 0⟩, ['Z']) := rfl
  have hfraction : takeFraction ['Z'] = .ok (0, ['Z']) := rfl
  have hresolve : Clock.resolve ⟨0, 0, 0⟩ 0 = .ok (0, 0) := rfl
  have hoffset : takeOffset ['Z'] = .ok (0, []) := rfl
  have hday := takeDay_digits hyear hmonth hday "T00:00:00Z".toList
  rw [if_pos h] at hday
  rw [parse]
  dsimp only
  rw [if_neg hlength, hlist, hday]
  simp only [bind, Except.bind, hclock, hfraction, hresolve, hoffset]
  simp [Instant.ofDay]

end Rfc3339

namespace DayText

theorem Spelling.text_plain : (plain year month day).text = Timestamp.dayText year month day := rfl

/-- **The reader of bare days takes exactly the days that exist.** -/
theorem parse?_dayText (hyear : year < 10 ^ 4) (hmonth : month < 10 ^ 2) (hday : day < 10 ^ 2) :
    parse? (Timestamp.dayText year month day) =
      if Calendar.isDay year month day then some (Instant.ofDay (Calendar.dayNumber year month day))
      else none := by
  have hyearValue : (Spelling.plain year month day).yearValue = year :=
    congrArg Int.ofNat (Numeral.value_ofDigits hyear)
  have hmonthValue : (Spelling.plain year month day).month.value = month := Numeral.value_ofDigits hmonth
  have hdayValue : (Spelling.plain year month day).day.value = day := Numeral.value_ofDigits hday
  have hfirst : Instant.firstYear ≤ year := by unfold Instant.firstYear; omega
  have hlast : (year : Int) ≤ Instant.lastYear := by unfold Instant.lastYear; omega
  rw [← Spelling.text_plain, parse?_text, hyearValue, hmonthValue, hdayValue]
  simp only [hfirst, hlast, true_and]

end DayText

/-- **A day as text, with or without the time of its start.** -/
theorem Schema.decode_dayText (hyear : year < 10 ^ 4) (hmonth : month < 10 ^ 2) (hday : day < 10 ^ 2) :
    if Calendar.isDay year month day then
      let start := Output.date (Instant.ofDay (Calendar.dayNumber year month day))
      date.decode (.string (Timestamp.dayText year month day)) = .ok start ∧
        date.decode (.string (Timestamp.dayText year month day ++ "T00:00:00Z")) = .ok start
    else
      date.decode (.string (Timestamp.dayText year month day)) = .error (.ofCause
        (.invalidTimestamp (Text.quoted (Timestamp.dayText year month day)) "premature end of input")) := by
  have hbare := DayText.parse?_dayText hyear hmonth hday
  split
  · next h =>
    rw [if_pos h] at hbare
    have hmidnight := Rfc3339.parse_dayText_midnight hyear hmonth hday h
    simp only [decode, Schema.decoder, Decoder.map, Decoder.date, Timestamp.ofText,
      Rfc3339.parse_dayText, hbare, hmidnight, and_self]
  · next h =>
    rw [if_neg h] at hbare
    simp only [decode, Schema.decoder, Decoder.map, Decoder.date, Timestamp.ofText,
      Rfc3339.parse_dayText, hbare, Rfc3339.Fault.text]

end Texts

/-! ### The three notations -/

/-- The days of years of four digits lie within three million days of the epoch. -/
theorem Calendar.Day.number_bounds {d : Day} (hfirst : 0 ≤ d.year) (hlast : d.year ≤ 9999) :
    -3000000 ≤ d.number ∧ d.number ≤ 3000000 := by
  have hfirstDay : dayNumber 0 1 1 = -719528 := by decide
  have hlastDay : dayNumber (9999 + 1) 1 1 = 2932897 := by decide
  have hnumber := (d.mem_years_iff 0 9999).mp ⟨hfirst, hlast⟩
  omega

namespace Schema

open Instant Timestamp

/-- A number of the value of a whole number is decoded like it. -/
theorem decode_date_of_sameValue {m : Number} {n : ℤ} {a : Instant} (hm : m.SameValue (.int n))
    (hrange : MillisInRange n) (ha : a.AtMillis n) : date.decode (.number m) = .ok (.date a) := by
  have hvalue : m.toBinary64.value = (Binary64.ofInt n).value := by
    have hunits : m.toBinary64.units = (Binary64.ofInt n).units := hm.sameDouble
    rw [Binary64.value, Binary64.value, hunits]
  have hint : date.decode (.int n) = .ok (.date a) := decode_date_int_eq_ok_iff.mpr ⟨hrange, ha⟩
  rw [Value.int, decode_date_number_eq_ok_iff, ofBinary64?_eq_some_iff] at hint
  rw [decode_date_number_eq_ok_iff, ofBinary64?_eq_some_iff, hvalue]
  exact hint

/-- The start of a day in milliseconds. -/
theorem decode_date_of_days {m : Number} {n : ℤ} (hm : m.SameValue (.int (86400000 * n)))
    (hfirst : -3000000 ≤ n) (hlast : n ≤ 3000000) :
    date.decode (.number m) = .ok (.date (ofDay n)) := by
  refine decode_date_of_sameValue hm (millisInRange_intCast_iff.mpr ?_) (atMillis_iff.mpr ?_)
  · omega
  · rw [ofDay, Instant.mk.injEq]
    omega

/-- **The three notations of a day agree.**  For an existing day of a year of four digits there is one
number `n` of days from 1970-01-01 to it, and the text of the day, the timestamp of its start in UTC and
every number of the value `86400000 * n` are all decoded to the instant `86400 * n` seconds from the epoch.
The text of a day that does not exist is no timestamp. -/
theorem notations_of_a_day_agree :
    (∀ d : Calendar.Day, 0 ≤ d.year → d.year ≤ 9999 →
      ∃ n, (∀ k, d.DaysFromEpoch k ↔ k = n) ∧
        date.decode (.string (dayText d.year.toNat d.month d.day)) = .ok (.date ⟨86400 * n, 0⟩) ∧
        date.decode (.string (dayText d.year.toNat d.month d.day ++ "T00:00:00Z")) =
          .ok (.date ⟨86400 * n, 0⟩) ∧
        ∀ m : Number, m.SameValue (.int (86400000 * n)) →
          date.decode (.number m) = .ok (.date ⟨86400 * n, 0⟩)) ∧
    ∀ year month day : ℕ, year ≤ 9999 → month ≤ 99 → day ≤ 99 → Calendar.isDay year month day = false →
      date.decode (.string (dayText year month day)) = .error (.ofCause
        (.invalidTimestamp (Text.quoted (dayText year month day)) "premature end of input")) := by
  refine ⟨fun d hfirst hlast => ?_, fun year month day hyear hmonth hday h => ?_⟩
  · obtain ⟨hlow, hhigh⟩ := Calendar.Day.number_bounds hfirst hlast
    refine ⟨d.number, fun k => Calendar.Day.daysFromEpoch_iff, ?_⟩
    have hyear : ((d.year.toNat : ℕ) : ℤ) = d.year := Int.toNat_of_nonneg hfirst
    have hmonth := (Calendar.month_of_isDay d.isDay).2
    have hday := (Calendar.isDay_iff.mp d.isDay).2.trans (Calendar.daysInMonth_le d.year d.month)
    have htext := decode_dayText (by omega : d.year.toNat < 10 ^ 4) (by omega : d.month < 10 ^ 2)
      (by omega : d.day < 10 ^ 2)
    rw [hyear, if_pos d.isDay] at htext
    exact ⟨htext.1, htext.2, fun m hm => decode_date_of_days hm hlow hhigh⟩
  · have htext := decode_dayText (by omega : year < 10 ^ 4) (by omega : month < 10 ^ 2)
      (by omega : day < 10 ^ 2)
    rwa [if_neg (by simp [h])] at htext

/-- A leap day before the epoch, and the one that the year 1900 does not have. -/
theorem notations_of_a_day_agree_leap_day :
    let d : Calendar.Day := ⟨1600, 2, 29, rfl⟩
    let start := Instant.mk (86400 * -135081) 0
    d.DaysFromEpoch (-135081) ∧
      date.decode (.string "1600-02-29") = .ok (.date start) ∧
      date.decode (.string "1600-02-29T00:00:00Z") = .ok (.date start) ∧
      date.decode (.int (86400000 * -135081)) = .ok (.date start) ∧
      date.decode (.string "1900-02-29") = .error (.ofCause
        (.invalidTimestamp (Text.quoted "1900-02-29") "premature end of input")) := by
  intro d start
  have htext : dayText 1600 2 29 = "1600-02-29" := by decide
  have htime : dayText 1600 2 29 ++ "T00:00:00Z" = "1600-02-29T00:00:00Z" := by decide
  have hmissing : dayText 1900 2 29 = "1900-02-29" := by decide
  obtain ⟨n, hn, hbare, hmidnight, hmillis⟩ :=
    notations_of_a_day_agree.1 d (by decide) (by decide)
  obtain rfl : -135081 = n := (hn _).mp (Calendar.Day.daysFromEpoch_iff.mpr (by decide))
  refine ⟨(hn _).mpr rfl, ?_, ?_, hmillis _ rfl, ?_⟩
  · exact htext ▸ hbare
  · exact htime ▸ hmidnight
  · exact hmissing ▸ notations_of_a_day_agree.2 1900 2 29 (by decide) (by decide) (by decide) (by decide)

end Schema

end TypedJson
