import TypedJson.Proofs.Calendar
import TypedJson.Proofs.Timestamp.Digits

/-!
# The texts of bare days

The reader of bare days takes more than the text `YYYY-MM-DD`: blanks may stand before each of the three numbers,
a year may have a sign, and numbers may be shorter, or longer for a year with a sign.  A `Spelling` is such a way to
write a day.  Its text is read as the day that it names (`parse?_text`), no other texts are read
(`exists_text_of_parse?`), and no two spellings have one text (`chars_injective`).  The plain spellings are those of
the texts `YYYY-MM-DD` (`plain_iff`).

Each number is a run of characters of one kind in front of a character of another kind, so it is known where it ends:
a run ends where `takeWhile` stops (`takeWhile_run`).
-/

namespace TypedJson

/-! ### Runs of characters -/

section Runs
variable {p : Char → Bool} {run run' rest rest' : List Char}

theorem takeWhile_run (hrun : ∀ c ∈ run, p c = true) (hrest : rest.takeWhile p = []) :
    (run ++ rest).takeWhile p = run := by
  rw [List.takeWhile_append_of_pos hrun, hrest, List.append_nil]

theorem dropWhile_run (hrun : ∀ c ∈ run, p c = true) (hrest : rest.takeWhile p = []) :
    (run ++ rest).dropWhile p = rest := by
  have hsplit := List.takeWhile_append_dropWhile (p := p) (l := run ++ rest)
  rw [takeWhile_run hrun hrest] at hsplit
  exact List.append_cancel_left hsplit

/-- **A text begins with one run only.** -/
theorem append_inj_of_run (hrun : ∀ c ∈ run, p c = true) (hrest : rest.takeWhile p = [])
    (hrun' : ∀ c ∈ run', p c = true) (hrest' : rest'.takeWhile p = []) (h : run ++ rest = run' ++ rest') :
    run = run' ∧ rest = rest' := by
  constructor
  · rw [← takeWhile_run hrun hrest, h, takeWhile_run hrun' hrest']
  · rw [← dropWhile_run hrun hrest, h, dropWhile_run hrun' hrest']

theorem takeWhile_take_eq_nil (hrest : rest.takeWhile p = []) (limit : ℕ) : (rest.take limit).takeWhile p = [] := by
  cases limit with
  | zero => rfl
  | succ limit =>
    cases rest with
    | nil => rfl
    | cons c rest =>
      have hc : ¬ p c = true := List.takeWhile_eq_nil_iff.mp hrest (Nat.succ_pos _)
      rw [List.take_succ_cons, List.takeWhile_cons_of_neg hc]

end Runs

namespace DayText

/-! ### Spellings -/

/-- **A number as it is written**, with at least one digit. -/
@[ext]
structure Numeral where
  chars : List Char
  isDigit : ∀ c ∈ chars, c.isDigit = true
  ne_nil : chars ≠ []

def Numeral.value (n : Numeral) : ℕ := numberOf n.chars

/-- The blanks in front of a number. -/
@[ext]
structure Blanks where
  chars : List Char
  isBlank : ∀ c ∈ chars, Text.isBlank c = true

def Blanks.none : Blanks := ⟨[], fun _ hc => nomatch hc⟩

/-- The sign of a year. -/
inductive Sign where
  | unsigned
  | plus
  | minus
deriving DecidableEq

def Sign.chars : Sign → List Char
  | unsigned => []
  | plus => ['+']
  | minus => ['-']

def Sign.apply : Sign → ℕ → ℤ
  | unsigned, n | plus, n => n
  | minus, n => -n

/-- **A way to write a day** as year, month and day. -/
@[ext]
structure Spelling where
  yearBlanks : Blanks
  sign : Sign
  year : Numeral
  monthBlanks : Blanks
  month : Numeral
  dayBlanks : Blanks
  day : Numeral
  year_length : sign = .unsigned → year.chars.length ≤ 4
  month_length : month.chars.length ≤ 2
  day_length : day.chars.length ≤ 2

namespace Spelling

def yearValue (s : Spelling) : ℤ := s.sign.apply s.year.value

def chars (s : Spelling) : List Char :=
  s.yearBlanks.chars ++ (s.sign.chars ++ (s.year.chars ++
    '-' :: (s.monthBlanks.chars ++ (s.month.chars ++
      '-' :: (s.dayBlanks.chars ++ s.day.chars)))))

def text (s : Spelling) : String := String.ofList s.chars

/-- **The spelling is one of the day.** -/
structure Names (s : Spelling) (d : Calendar.Day) : Prop where
  year_eq : s.yearValue = d.year
  month_eq : s.month.value = d.month
  day_eq : s.day.value = d.day

/-- **The spelling is that of a text `YYYY-MM-DD`.** -/
structure Plain (s : Spelling) : Prop where
  yearBlanks : s.yearBlanks.chars = []
  sign : s.sign = .unsigned
  year : s.year.chars.length = 4
  monthBlanks : s.monthBlanks.chars = []
  month : s.month.chars.length = 2
  dayBlanks : s.dayBlanks.chars = []
  day : s.day.chars.length = 2

end Spelling

/-! ### Where numbers and blanks end -/

section Ends
variable {n m : Numeral} {rest rest' : List Char}

/-- A number begins with a digit. -/
theorem Numeral.exists_cons (n : Numeral) : ∃ c cs, n.chars = c :: cs ∧ c.isDigit = true := by
  obtain ⟨c, cs, hcons⟩ := List.exists_cons_of_ne_nil n.ne_nil
  exact ⟨c, cs, hcons, n.isDigit c (hcons ▸ List.mem_cons_self)⟩

theorem Numeral.takeWhile_isBlank (n : Numeral) (rest : List Char) :
    (n.chars ++ rest).takeWhile Text.isBlank = [] := by
  obtain ⟨c, cs, hcons, hc⟩ := n.exists_cons
  rw [hcons, List.cons_append, List.takeWhile_cons_of_neg]
  rw [Text.isBlank_of_isDigit hc]
  exact Bool.false_ne_true

/-- Blanks end before a sign or a digit. -/
theorem takeWhile_isBlank_sign (sign : Sign) (n : Numeral) (rest : List Char) :
    (sign.chars ++ (n.chars ++ rest)).takeWhile Text.isBlank = [] := by
  cases sign with
  | unsigned => exact n.takeWhile_isBlank rest
  | plus => rfl
  | minus => rfl

theorem ne_sign_of_isDigit {c : Char} (h : c.isDigit = true) : c ≠ '+' ∧ c ≠ '-' := by
  constructor <;> rintro rfl <;> exact absurd h (by decide)

/-- A sign is told from a digit. -/
theorem sign_inj {sign sign' : Sign} (h : sign.chars ++ (n.chars ++ rest) = sign'.chars ++ (m.chars ++ rest')) :
    sign = sign' ∧ n.chars ++ rest = m.chars ++ rest' := by
  obtain ⟨c, cs, hn, hc⟩ := n.exists_cons
  obtain ⟨c', cs', hm, hc'⟩ := m.exists_cons
  obtain ⟨hplus, hminus⟩ := ne_sign_of_isDigit hc
  obtain ⟨hplus', hminus'⟩ := ne_sign_of_isDigit hc'
  rw [hn, hm] at h ⊢
  cases sign <;> cases sign' <;> simp [Sign.chars, hplus, hminus, hplus'.symm, hminus'.symm] at h ⊢ <;> exact h

end Ends

/-- **No two spellings have one text.** -/
theorem Spelling.chars_injective : Function.Injective chars := by
  intro s t h
  unfold chars at h
  obtain ⟨hyearBlanks, h⟩ := append_inj_of_run s.yearBlanks.isBlank (takeWhile_isBlank_sign ..)
    t.yearBlanks.isBlank (takeWhile_isBlank_sign ..) h
  obtain ⟨hsign, h⟩ := sign_inj h
  obtain ⟨hyear, h⟩ := append_inj_of_run s.year.isDigit rfl t.year.isDigit rfl h
  obtain ⟨hmonthBlanks, h⟩ := append_inj_of_run s.monthBlanks.isBlank (s.month.takeWhile_isBlank _)
    t.monthBlanks.isBlank (t.month.takeWhile_isBlank _) (List.cons.inj h).2
  obtain ⟨hmonth, h⟩ := append_inj_of_run s.month.isDigit rfl t.month.isDigit rfl h
  have hday : s.day.chars.takeWhile Text.isBlank = [] := by
    simpa using s.day.takeWhile_isBlank []
  have hday' : t.day.chars.takeWhile Text.isBlank = [] := by
    simpa using t.day.takeWhile_isBlank []
  obtain ⟨hdayBlanks, hday⟩ := append_inj_of_run s.dayBlanks.isBlank hday t.dayBlanks.isBlank hday'
    (List.cons.inj h).2
  exact Spelling.ext (Blanks.ext hyearBlanks) hsign (Numeral.ext hyear) (Blanks.ext hmonthBlanks)
    (Numeral.ext hmonth) (Blanks.ext hdayBlanks) (Numeral.ext hday)

/-! ### Plain spellings -/

/-- A number of so many digits, and one more. -/
def Numeral.ofDigits (width n : ℕ) : Numeral where
  chars := Timestamp.digits (width + 1) n
  isDigit _ := Timestamp.isDigit_of_mem_digits
  ne_nil := List.ne_nil_of_length_eq_add_one (Timestamp.length_digits (width + 1) n)

/-- **The spelling `YYYY-MM-DD`.** -/
def Spelling.plain (year month day : ℕ) : Spelling where
  yearBlanks := .none
  sign := .unsigned
  year := .ofDigits 3 year
  monthBlanks := .none
  month := .ofDigits 1 month
  dayBlanks := .none
  day := .ofDigits 1 day
  year_length _ := (Timestamp.length_digits 4 year).le
  month_length := (Timestamp.length_digits 2 month).le
  day_length := (Timestamp.length_digits 2 day).le

theorem Numeral.value_ofDigits {width n : ℕ} (h : n < 10 ^ (width + 1)) : (ofDigits width n).value = n :=
  Timestamp.numberOf_digits h

theorem Numeral.eq_ofDigits {n : Numeral} {width : ℕ} (h : n.chars.length = width + 1) :
    n = ofDigits width n.value := by
  have hdigits := Timestamp.digits_numberOf n.isDigit
  rw [h] at hdigits
  exact Numeral.ext hdigits.symm

theorem Numeral.value_lt {n : Numeral} {width : ℕ} (h : n.chars.length = width) : n.value < 10 ^ width := by
  rw [← h]
  exact Timestamp.numberOf_lt n.isDigit

theorem Spelling.plain_plain (year month day : ℕ) : (plain year month day).Plain where
  yearBlanks := rfl
  sign := rfl
  year := Timestamp.length_digits 4 year
  monthBlanks := rfl
  month := Timestamp.length_digits 2 month
  dayBlanks := rfl
  day := Timestamp.length_digits 2 day

/-- **A spelling without blanks or a sign, of the widths 4, 2 and 2**, is that of its numbers. -/
theorem Spelling.Plain.eq_plain {s : Spelling} (h : s.Plain) :
    s = plain s.year.value s.month.value s.day.value :=
  Spelling.ext (Blanks.ext h.yearBlanks) h.sign (Numeral.eq_ofDigits h.year) (Blanks.ext h.monthBlanks)
    (Numeral.eq_ofDigits h.month) (Blanks.ext h.dayBlanks) (Numeral.eq_ofDigits h.day)

/-! ### The readers read what is written -/

section Readers
variable {rest : List Char}

theorem takeNumber?_append (n : Numeral) {limit : ℕ} (hlimit : n.chars.length ≤ limit)
    (hrest : rest.takeWhile Char.isDigit = []) :
    takeNumber? limit (n.chars ++ rest) = some (n.value, rest) := by
  have hdigits : ((n.chars ++ rest).take limit).takeWhile Char.isDigit = n.chars := by
    rw [List.take_append, List.take_of_length_le hlimit]
    exact takeWhile_run n.isDigit (takeWhile_take_eq_nil hrest _)
  have hsome : n.chars.isEmpty = false := List.isEmpty_eq_false_iff.mpr n.ne_nil
  rw [takeNumber?, hdigits, hsome, List.drop_left]
  rfl

theorem takeYear?_append (blanks : Blanks) (sign : Sign) (n : Numeral) (rest : List Char)
    (hlimit : sign = .unsigned → n.chars.length ≤ 4) (hrest : rest.takeWhile Char.isDigit = []) :
    takeYear? (blanks.chars ++ (sign.chars ++ (n.chars ++ rest))) = some (sign.apply n.value, rest) := by
  have hskip : Text.skipBlanks (blanks.chars ++ (sign.chars ++ (n.chars ++ rest))) =
      sign.chars ++ (n.chars ++ rest) :=
    dropWhile_run blanks.isBlank (takeWhile_isBlank_sign sign n rest)
  have hlength : n.chars.length ≤ (n.chars ++ rest).length := by
    rw [List.length_append]
    omega
  unfold takeYear?
  rw [hskip]
  cases sign with
  | unsigned =>
    obtain ⟨c, cs, hcons, hc⟩ := n.exists_cons
    have hread := takeNumber?_append n (hlimit rfl) hrest
    rw [hcons, List.cons_append] at hread
    rw [hcons, Sign.chars, List.nil_append, List.cons_append]
    split
    · next heq => exact absurd (List.cons.inj heq).1 (ne_sign_of_isDigit hc).1
    · next heq => exact absurd (List.cons.inj heq).1 (ne_sign_of_isDigit hc).2
    · rw [hread]
      rfl
  | plus =>
    have hread := takeNumber?_append n hlength hrest
    simp only [Sign.chars, List.singleton_append, hread]
    rfl
  | minus =>
    have hread := takeNumber?_append n hlength hrest
    simp only [Sign.chars, List.singleton_append, hread]
    rfl

theorem takePart?_append (blanks : Blanks) (n : Numeral) (rest : List Char) (hlimit : n.chars.length ≤ 2)
    (hrest : rest.takeWhile Char.isDigit = []) :
    takePart? ('-' :: (blanks.chars ++ (n.chars ++ rest))) = some (n.value, rest) := by
  have hskip : Text.skipBlanks (blanks.chars ++ (n.chars ++ rest)) = n.chars ++ rest :=
    dropWhile_run blanks.isBlank (n.takeWhile_isBlank rest)
  rw [takePart?, hskip]
  exact takeNumber?_append n hlimit hrest

/-- **A spelled text is read as the day that it names**, if there is one in the years of instants. -/
theorem parse?_text (s : Spelling) :
    parse? s.text =
      if Instant.firstYear ≤ s.yearValue ∧ s.yearValue ≤ Instant.lastYear ∧
          Calendar.isDay s.yearValue s.month.value s.day.value = true then
        some (Instant.ofDay (Calendar.dayNumber s.yearValue s.month.value s.day.value))
      else none := by
  have hyear := takeYear?_append s.yearBlanks s.sign s.year
    ('-' :: (s.monthBlanks.chars ++ (s.month.chars ++ '-' :: (s.dayBlanks.chars ++ s.day.chars))))
    s.year_length rfl
  have hmonth := takePart?_append s.monthBlanks s.month ('-' :: (s.dayBlanks.chars ++ s.day.chars))
    s.month_length rfl
  have hday := takePart?_append s.dayBlanks s.day [] s.day_length rfl
  rw [List.append_nil] at hday
  rw [parse?, Spelling.text, String.toList_ofList, Spelling.chars, hyear]
  simp only [bind, Option.bind, hmonth, hday, List.isEmpty_nil, Bool.and_eq_true,
    decide_eq_true_eq, and_assoc, true_and]
  rfl

/-! ### Nothing else is read -/

theorem exists_numeral_of_takeNumber? {limit n : ℕ} {cs : List Char} (h : takeNumber? limit cs = some (n, rest)) :
    ∃ m : Numeral, cs = m.chars ++ rest ∧ m.chars.length ≤ limit := by
  unfold takeNumber? at h
  dsimp only at h
  split at h
  · cases h
  · next hsome =>
    have hrest := (Prod.mk.inj (Option.some.inj h)).2
    rw [List.isEmpty_iff] at hsome
    refine ⟨⟨(cs.take limit).takeWhile Char.isDigit, fun c => List.mem_takeWhile_imp, hsome⟩, ?_, ?_⟩
    · have hprefix := (List.takeWhile_prefix Char.isDigit).trans (List.take_prefix limit cs)
      rw [← hrest]
      exact (List.prefix_iff_eq_append.mp hprefix).symm
    · have hle := (List.takeWhile_prefix (l := cs.take limit) Char.isDigit).length_le
      rw [List.length_take] at hle
      dsimp only
      omega

/-- What is made of the number does not matter for the text. -/
theorem exists_numeral_of_map {limit : ℕ} {cs : List Char} {year : ℤ} {f : ℕ × List Char → ℤ × List Char}
    (hf : ∀ p, (f p).2 = p.2) (h : (takeNumber? limit cs).map f = some (year, rest)) :
    ∃ m : Numeral, cs = m.chars ++ rest ∧ m.chars.length ≤ limit := by
  obtain ⟨p, hp, hpair⟩ := Option.map_eq_some_iff.mp h
  have hrest : p.2 = rest := by rw [← hf, hpair]
  subst hrest
  exact exists_numeral_of_takeNumber? hp

theorem exists_blanks (cs : List Char) : ∃ blanks : Blanks, cs = blanks.chars ++ Text.skipBlanks cs :=
  ⟨⟨cs.takeWhile Text.isBlank, fun _ => List.mem_takeWhile_imp⟩, List.takeWhile_append_dropWhile.symm⟩

theorem exists_year_of_takeYear? {year : ℤ} {cs : List Char} (h : takeYear? cs = some (year, rest)) :
    ∃ (blanks : Blanks) (sign : Sign) (n : Numeral), cs = blanks.chars ++ (sign.chars ++ (n.chars ++ rest)) ∧
      (sign = .unsigned → n.chars.length ≤ 4) := by
  obtain ⟨blanks, hblanks⟩ := exists_blanks cs
  unfold takeYear? at h
  split at h
  · next signed hskip =>
    obtain ⟨m, rfl, -⟩ := exists_numeral_of_map (fun _ => rfl) h
    exact ⟨blanks, .plus, m, by rw [hblanks, hskip]; rfl, by simp⟩
  · next signed hskip =>
    obtain ⟨m, rfl, -⟩ := exists_numeral_of_map (fun _ => rfl) h
    exact ⟨blanks, .minus, m, by rw [hblanks, hskip]; rfl, by simp⟩
  · obtain ⟨m, hskip, hlength⟩ := exists_numeral_of_map (fun _ => rfl) h
    exact ⟨blanks, .unsigned, m, by rw [hblanks, hskip]; rfl, fun _ => hlength⟩

theorem exists_part_of_takePart? {n : ℕ} {cs : List Char} (h : takePart? cs = some (n, rest)) :
    ∃ (blanks : Blanks) (m : Numeral), cs = '-' :: (blanks.chars ++ (m.chars ++ rest)) ∧ m.chars.length ≤ 2 := by
  unfold takePart? at h
  split at h
  · next cs =>
    obtain ⟨blanks, hblanks⟩ := exists_blanks cs
    obtain ⟨m, hskip, hlength⟩ := exists_numeral_of_takeNumber? h
    exact ⟨blanks, m, by rw [← hskip, ← hblanks], hlength⟩
  · cases h

/-- **Only spelled texts are read.** -/
theorem exists_text_of_parse? {text : String} {a : Instant} (h : parse? text = some a) :
    ∃ s : Spelling, s.text = text := by
  unfold parse? at h
  obtain ⟨⟨year, rest⟩, hyear, h⟩ := Option.bind_eq_some_iff.mp h
  obtain ⟨⟨month, rest'⟩, hmonth, h⟩ := Option.bind_eq_some_iff.mp h
  obtain ⟨⟨day, rest''⟩, hday, h⟩ := Option.bind_eq_some_iff.mp h
  have hend : rest'' = [] := by
    by_contra hne
    simp [hne] at h
  subst hend
  obtain ⟨yearBlanks, sign, y, hcs, hyearLength⟩ := exists_year_of_takeYear? hyear
  obtain ⟨monthBlanks, m, rfl, hmonthLength⟩ := exists_part_of_takePart? hmonth
  obtain ⟨dayBlanks, d, rfl, hdayLength⟩ := exists_part_of_takePart? hday
  refine ⟨⟨yearBlanks, sign, y, monthBlanks, m, dayBlanks, d, hyearLength, hmonthLength, hdayLength⟩, ?_⟩
  rw [List.append_nil] at hcs
  rw [Spelling.text, Spelling.chars, ← hcs, String.ofList_toList]

/-- **The texts of bare days are those of the spellings** that name a day of the years of instants. -/
theorem parse?_eq_some_iff {text : String} {a : Instant} :
    parse? text = some a ↔ ∃ s : Spelling, s.text = text ∧ ∃ d : Calendar.Day, s.Names d ∧
      (Instant.firstYear ≤ d.year ∧ d.year ≤ Instant.lastYear) ∧ a = Instant.ofDay d.number := by
  constructor
  · intro h
    obtain ⟨s, rfl⟩ := exists_text_of_parse? h
    rw [parse?_text, Option.ite_none_right_eq_some, Option.some.injEq] at h
    obtain ⟨⟨hfirst, hlast, hday⟩, rfl⟩ := h
    exact ⟨s, rfl, ⟨_, _, _, hday⟩, ⟨rfl, rfl, rfl⟩, ⟨hfirst, hlast⟩, rfl⟩
  · rintro ⟨s, rfl, d, ⟨hyear, hmonth, hday⟩, hyears, rfl⟩
    rw [parse?_text, hyear, hmonth, hday, if_pos ⟨hyears.1, hyears.2, d.isDay⟩]
    rfl

end Readers

end DayText

end TypedJson
