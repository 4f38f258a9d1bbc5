import TypedJson.Proofs.Decoder.Runs
import TypedJson.Proofs.Timestamp.Days

/-!
# The two readers of texts

A text is read as a timestamp of RFC 3339 or else as a bare day.  A timestamp begins with the text of a day, which
is followed by a mark (`exists_day_of_parse`), where the reader of bare days wants the end.  So no text is read by
both, and their order does not matter (`texts_read_in_either_order`).

What is no timestamp is accepted exactly if it spells a day of the years of instants (`bare_days_accepted`), which
need not be by a text `YYYY-MM-DD` (`bare_day_accepted_after_blank`).
-/

namespace TypedJson

open Decoder (bind_eq_ok_iff)

/-! ### What timestamps begin with -/

namespace Rfc3339

open DayText (Numeral)

variable {cs rest : List Char} {n : ℕ}

theorem exists_digit_of_takeDigit (h : takeDigit cs = .ok (n, rest)) :
    ∃ c, c.isDigit = true ∧ cs = c :: rest := by
  cases cs with
  | nil => cases h
  | cons c cs =>
    by_cases hc : c.isDigit = true
    · rw [takeDigit_of_isDigit hc, Except.ok.injEq, Prod.mk.injEq] at h
      exact ⟨c, hc, by rw [h.2]⟩
    · rw [takeDigit, digit?, if_neg hc] at h
      cases h

theorem exists_digits_of_takeNumber {width value : ℕ} (h : takeNumber width value cs = .ok (n, rest)) :
    ∃ ds, cs = ds ++ rest ∧ (∀ c ∈ ds, c.isDigit = true) ∧ ds.length = width := by
  induction width generalizing value cs with
  | zero =>
    obtain rfl := (Prod.mk.inj (Except.ok.inj h)).2
    exact ⟨[], rfl, List.forall_mem_nil _, rfl⟩
  | succ width ih =>
    obtain ⟨⟨digit, cs'⟩, hdigit, htail⟩ := bind_eq_ok_iff.mp h
    obtain ⟨c, hc, rfl⟩ := exists_digit_of_takeDigit hdigit
    obtain ⟨ds, rfl, hds, hlength⟩ := ih htail
    refine ⟨c :: ds, rfl, List.forall_mem_cons.mpr ⟨hc, hds⟩, ?_⟩
    rw [List.length_cons, hlength]

/-- What is read as a number of some digits is a number as it is written. -/
theorem exists_numeral_of_takeNumber {width value : ℕ} (h : takeNumber (width + 1) value cs = .ok (n, rest)) :
    ∃ m : Numeral, cs = m.chars ++ rest ∧ m.chars.length = width + 1 := by
  obtain ⟨ds, hcs, hdigits, hlength⟩ := exists_digits_of_takeNumber h
  exact ⟨⟨ds, hdigits, List.ne_nil_of_length_eq_add_one hlength⟩, hcs, hlength⟩

theorem exists_mark_of_takeMark {accepts : Char → Bool} (h : takeMark accepts cs = .ok rest) :
    ∃ c, accepts c = true ∧ cs = c :: rest := by
  cases cs with
  | nil => cases h
  | cons c cs =>
    by_cases hc : accepts c = true
    · rw [takeMark, if_pos hc, Except.ok.injEq] at h
      exact ⟨c, hc, by rw [h]⟩
    · rw [takeMark, if_neg hc] at h
      cases h

theorem eq_hyphen_of_takeMark (h : takeMark (· == '-') cs = .ok rest) : cs = '-' :: rest := by
  obtain ⟨c, hc, rfl⟩ := exists_mark_of_takeMark h
  rw [beq_iff_eq.mp hc]

theorem exists_numerals_of_takeDay {number : ℤ} (h : takeDay cs = .ok (number, rest)) :
    ∃ year month day : Numeral,
      cs = year.chars ++ '-' :: (month.chars ++ '-' :: (day.chars ++ rest)) ∧
      year.chars.length = 4 ∧ month.chars.length = 2 ∧ day.chars.length = 2 := by
  obtain ⟨⟨_, afterYear⟩, hyear, h⟩ := bind_eq_ok_iff.mp h
  obtain ⟨beforeMonth, hfirst, h⟩ := bind_eq_ok_iff.mp h
  obtain ⟨⟨_, afterMonth⟩, hmonth, h⟩ := bind_eq_ok_iff.mp h
  obtain ⟨beforeDay, hsecond, h⟩ := bind_eq_ok_iff.mp h
  obtain ⟨⟨_, afterDay⟩, hday, h⟩ := bind_eq_ok_iff.mp h
  have hrest : afterDay = rest := by
    dsimp only at h
    split at h
    · exact (Prod.mk.inj (Except.ok.inj h)).2
    · cases h
  subst hrest
  obtain ⟨year, rfl, hyearLength⟩ := exists_numeral_of_takeNumber hyear
  obtain ⟨month, rfl, hmonthLength⟩ := exists_numeral_of_takeNumber hmonth
  obtain ⟨day, rfl, hdayLength⟩ := exists_numeral_of_takeNumber hday
  obtain rfl := eq_hyphen_of_takeMark hfirst
  obtain rfl := eq_hyphen_of_takeMark hsecond
  exact ⟨year, month, day, rfl, hyearLength, hmonthLength, hdayLength⟩

theorem exists_mark_of_takeClock {clock : Clock} (h : takeClock cs = .ok (clock, rest)) :
    ∃ mark tail, cs = mark :: tail ∧ (mark = 'T' ∨ mark = 't' ∨ mark = ' ') := by
  obtain ⟨tail, hmark, -⟩ := bind_eq_ok_iff.mp h
  obtain ⟨mark, haccepts, rfl⟩ := exists_mark_of_takeMark hmark
  simp only [Bool.or_eq_true, beq_iff_eq, or_assoc] at haccepts
  exact ⟨mark, tail, rfl, haccepts⟩

/-- **A timestamp begins with the text of a day**, which a mark follows. -/
theorem exists_day_of_parse {text : String} {a : Instant} (h : parse text = .ok a) :
    ∃ (year month day : Numeral) (mark : Char) (tail : List Char),
      text.toList = year.chars ++ '-' :: (month.chars ++ '-' :: (day.chars ++ mark :: tail)) ∧
      (year.chars.length = 4 ∧ month.chars.length = 2 ∧ day.chars.length = 2) ∧
      (mark = 'T' ∨ mark = 't' ∨ mark = ' ') := by
  unfold parse at h
  dsimp only at h
  split at h
  · cases h
  · obtain ⟨⟨number, afterDay⟩, hday, h⟩ := bind_eq_ok_iff.mp h
    obtain ⟨⟨clock, afterClock⟩, hclock, -⟩ := bind_eq_ok_iff.mp h
    obtain ⟨year, month, day, hlist, hlengths⟩ := exists_numerals_of_takeDay hday
    obtain ⟨mark, tail, rfl, hmark⟩ := exists_mark_of_takeClock hclock
    exact ⟨year, month, day, mark, tail, hlist, hlengths, hmark⟩

end Rfc3339

/-- **A timestamp is no bare day.** -/
theorem DayText.parse?_eq_none_of_parse {text : String} {a : Instant} (h : Rfc3339.parse text = .ok a) :
    parse? text = none := by
  obtain ⟨year, month, day, mark, tail, hlist, ⟨hyear, hmonth, hday⟩, hmark⟩ := Rfc3339.exists_day_of_parse h
  have hstop : (mark :: tail).takeWhile Char.isDigit = [] := by
    rcases hmark with rfl | rfl | rfl <;> rfl
  have hreadYear := takeYear?_append .none .unsigned year
    ('-' :: (month.chars ++ '-' :: (day.chars ++ mark :: tail))) (fun _ => hyear.le) rfl
  have hreadMonth := takePart?_append .none month ('-' :: (day.chars ++ mark :: tail)) hmonth.le rfl
  have hreadDay := takePart?_append .none day (mark :: tail) hday.le hstop
  simp only [Blanks.none, Sign.chars, List.nil_append] at hreadYear hreadMonth hreadDay
  rw [parse?, hlist, hreadYear]
  simp [hreadMonth, hreadDay]

/-! ### Texts of the form `YYYY-MM-DD` -/

/-- **The text has the form `YYYY-MM-DD`.** -/
def Timestamp.IsDayText (text : String) : Prop :=
  ∃ year month day, (year < 10 ^ 4 ∧ month < 10 ^ 2 ∧ day < 10 ^ 2) ∧ text = dayText year month day

/-- **A spelled text has the form exactly if the spelling is plain.** -/
theorem DayText.Spelling.isDayText_text_iff (s : Spelling) : Timestamp.IsDayText s.text ↔ s.Plain := by
  constructor
  · rintro ⟨year, month, day, -, h⟩
    rw [← text_plain, text, text, String.ofList_inj] at h
    rw [chars_injective h]
    exact plain_plain year month day
  · intro h
    refine ⟨s.year.value, s.month.value, s.day.value, ⟨Numeral.value_lt h.year, Numeral.value_lt h.month,
      Numeral.value_lt h.day⟩, ?_⟩
    rw [← text_plain, ← h.eq_plain]

/-! ### The readers together -/

namespace Timestamp

variable {text : String} {a : Instant}

/-- The instant of a text for which the reader of bare days comes first. -/
def ofTextDayFirst (text : String) : Except Failure Instant :=
  match DayText.parse? text with
  | some instant => .ok instant
  | none =>
    match Rfc3339.parse text with
    | .ok instant => .ok instant
    | .error fault => .error (.ofCause (.invalidTimestamp (Text.quoted text) fault.text))

theorem ofTextDayFirst_eq (text : String) : ofTextDayFirst text = ofText text := by
  unfold ofTextDayFirst ofText
  cases h : Rfc3339.parse text with
  | ok a => rw [DayText.parse?_eq_none_of_parse h]
  | error fault => cases DayText.parse? text <;> rfl

theorem ofText_eq_ok_iff : ofText text = .ok a ↔ Rfc3339.parse text = .ok a ∨ DayText.parse? text = some a := by
  cases h : Rfc3339.parse text with
  | ok b => simp [ofText, h, DayText.parse?_eq_none_of_parse h]
  | error fault => cases hday : DayText.parse? text <;> simp [ofText, h, hday]

theorem ofText_eq_error_iff {e : Failure} :
    ofText text = .error e ↔ ∃ fault, Rfc3339.parse text = .error fault ∧ DayText.parse? text = none ∧
      e = .ofCause (.invalidTimestamp (Text.quoted text) fault.text) := by
  cases h : Rfc3339.parse text with
  | ok b => simp [ofText, h]
  | error fault => cases hday : DayText.parse? text <;> simp [ofText, h, hday, eq_comm]

end Timestamp

namespace Schema

open Timestamp

section Texts
variable {text : String}

theorem decode_date_string_eq_ok_iff {a : Instant} :
    date.decode (.string text) = .ok (.date a) ↔ ofText text = .ok a := by
  rw [decode, Schema.decoder, Decoder.map_eq_ok_iff]
  simp [Decoder.date]

theorem decode_date_string_eq_error_iff {e : Failure} :
    date.decode (.string text) = .error e ↔ ofText text = .error e := by
  rw [decode, Schema.decoder, Decoder.map_eq_error_iff]
  rfl

/-- **No text is read by both readers**, so it does not matter which one comes first.  A text is decoded to the
instant that one of them reads, and refused if neither reads it, in quotes and with the fault of the timestamp. -/
theorem texts_read_in_either_order :
    (∀ (text : String) (a b : Instant), ¬ (Rfc3339.parse text = .ok a ∧ DayText.parse? text = some b)) ∧
    (∀ text : String, ofTextDayFirst text = ofText text) ∧
    (∀ (text : String) (a : Instant), date.decode (.string text) = .ok (.date a) ↔
      Rfc3339.parse text = .ok a ∨ DayText.parse? text = some a) ∧
    ∀ (text : String) (e : Failure), date.decode (.string text) = .error e ↔
      ∃ fault, Rfc3339.parse text = .error fault ∧ DayText.parse? text = none ∧
        e = .ofCause (.invalidTimestamp (Text.quoted text) fault.text) := by
  refine ⟨fun text a b ⟨ha, hb⟩ => ?_, ofTextDayFirst_eq, fun text a => ?_, fun text e => ?_⟩
  · rw [DayText.parse?_eq_none_of_parse ha] at hb
    cases hb
  · rw [decode_date_string_eq_ok_iff, ofText_eq_ok_iff]
  · rw [decode_date_string_eq_error_iff, ofText_eq_error_iff]

/-- **What is no timestamp is accepted if it spells a day** of the years of instants, and decoded to its start, and
else refused with the fault of the timestamp.  Of the texts `YYYY-MM-DD` these are the existing days, and a
spelled text has this form exactly if the spelling is plain. -/
theorem bare_days_accepted {fault : Rfc3339.Fault} (h : Rfc3339.parse text = .error fault) :
    (∀ a, date.decode (.string text) = .ok (.date a) ↔
      ∃ s : DayText.Spelling, s.text = text ∧ ∃ d : Calendar.Day, s.Names d ∧
        (Instant.firstYear ≤ d.year ∧ d.year ≤ Instant.lastYear) ∧ a = Instant.ofDay d.number) ∧
    ((∃ a, date.decode (.string text) = .ok (.date a)) ∨
      date.decode (.string text) = .error (.ofCause (.invalidTimestamp (Text.quoted text) fault.text))) ∧
    (∀ year month day, year < 10 ^ 4 → month < 10 ^ 2 → day < 10 ^ 2 → text = dayText year month day →
      ∀ a, date.decode (.string text) = .ok (.date a) ↔
        Calendar.isDay year month day = true ∧ a = Instant.ofDay (Calendar.dayNumber year month day)) ∧
    ∀ s : DayText.Spelling, s.text = text → (IsDayText text ↔ s.Plain) := by
  have hdecode : ∀ a, date.decode (.string text) = .ok (.date a) ↔ DayText.parse? text = some a := by
    intro a
    rw [decode_date_string_eq_ok_iff, ofText_eq_ok_iff, h]
    simp
  refine ⟨fun a => ?_, ?_, fun year month day hyear hmonth hday htext a => ?_, ?_⟩
  · rw [hdecode, DayText.parse?_eq_some_iff]
  · cases hread : DayText.parse? text with
    | some a => exact Or.inl ⟨a, (hdecode a).mpr hread⟩
    | none => exact Or.inr (decode_date_string_eq_error_iff.mpr (ofText_eq_error_iff.mpr ⟨fault, h, hread, rfl⟩))
  · rw [hdecode, htext, DayText.parse?_dayText hyear hmonth hday, Option.ite_none_right_eq_some,
      Option.some.injEq, eq_comm (a := a)]
  · rintro s rfl
    exact s.isDayText_text_iff

end Texts

/-- A leap day with a sign and a month of one digit, and the leap day that the year 1900 does not have. -/
theorem bare_days_accepted_leap_day :
    Rfc3339.parse "+2024-2-29" = .error .tooShort ∧
      date.decode (.string "+2024-2-29") = .ok (.date (Instant.ofDay 19782)) ∧
      ¬ IsDayText "+2024-2-29" ∧
      Rfc3339.parse "1900-02-29" = .error .tooShort ∧
      date.decode (.string "1900-02-29") =
        .error (.ofCause (.invalidTimestamp (Text.quoted "1900-02-29") "premature end of input")) := by
  let s : DayText.Spelling :=
    { yearBlanks := .none, sign := .plus, year := .ofDigits 3 2024, monthBlanks := .none,
      month := .ofDigits 0 2, dayBlanks := .none, day := .ofDigits 1 29,
      year_length := nofun, month_length := by decide, day_length := by decide }
  have htext : s.text = "+2024-2-29" := by decide
  have hsigned : Rfc3339.parse "+2024-2-29" = .error .tooShort := rfl
  have hmissing : Rfc3339.parse "1900-02-29" = .error .tooShort := rfl
  obtain ⟨haccepted, -, -, hplain⟩ := bare_days_accepted hsigned
  obtain ⟨-, hrefused, hdays, -⟩ := bare_days_accepted hmissing
  refine ⟨hsigned, (haccepted _).mpr ⟨s, htext, ⟨2024, 2, 29, rfl⟩, ⟨rfl, rfl, rfl⟩, by decide, by decide⟩, ?_,
    hmissing, hrefused.resolve_left ?_⟩
  · intro hform
    cases ((hplain s htext).mp hform).sign
  · rintro ⟨a, ha⟩
    have hday := (hdays 1900 2 29 (by decide) (by decide) (by decide) (by decide) a).mp ha
    exact absurd hday.1 (by decide)

/-- **A day is accepted after a blank**, though the text has eleven bytes. -/
theorem bare_day_accepted_after_blank :
    Rfc3339.parse " 2020-01-02" = .error .tooShort ∧ ¬ IsDayText " 2020-01-02" ∧
      date.decode (.string " 2020-01-02") = .ok (.date (Instant.ofDay 18263)) := by
  refine ⟨rfl, ?_, ?_⟩
  · rintro ⟨year, month, day, -, h⟩
    have hlength : Rfc3339.byteLength " 2020-01-02".toList = 10 := by
      rw [h]
      exact Rfc3339.byteLength_dayText
    exact absurd hlength (by decide)
  · rw [decode_date_string_eq_ok_iff, ofText_eq_ok_iff]
    right
    decide

end Schema

end TypedJson
