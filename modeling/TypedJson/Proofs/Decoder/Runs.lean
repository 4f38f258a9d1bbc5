import TypedJson.Decoder.Choice
import TypedJson.Decoder.Sequence
import TypedJson.Decoder.Object
import TypedJson.Proofs.Entries

/-!
# Runs over the parts of a container

The decoders of arrays and objects run over the parts of their input from left to right, and the
first fault ends the run.  For each run this module says exactly when it fails: there is a first part
at fault, the run over the parts before it succeeds, and the failure is that of the part.

* `arrayFrom_eq_error_iff`, `dictFrom_eq_error_iff`: the part's own failure under its step;
* `recordFrom_eq_error_iff`, `structFrom_eq_error_iff`: the failure of `Decoder.field`;
* `setFrom_eq_error_iff`, `mapFrom_eq_error_iff`: the part's own failure, or its being a duplicate of
  an earlier part (`length_setFrom`, `mapFrom_position_lt` say that it is earlier).

The run over alternatives goes the other way, the first success ends it (`firstSuccess_eq_ok_iff`,
`firstSuccess_append`).
-/

namespace TypedJson.Decoder

variable {α β κ : Type}

theorem bind_eq_ok_iff {ε : Type} {r : Except ε α} {k : α → Except ε β} {y : β} :
    (r >>= k) = .ok y ↔ ∃ x, r = .ok x ∧ k x = .ok y := by
  cases r <;> simp [bind, Except.bind]

theorem bind_eq_error_iff {r : Except Failure α} {k : α → Except Failure β} {e : Failure} :
    (r >>= k) = .error e ↔ r = .error e ∨ ∃ x, r = .ok x ∧ k x = .error e := by
  cases r <;> simp [bind, Except.bind]

theorem except_map_eq_ok_iff {f : α → β} {r : Except Failure α} {y : β} :
    r.map f = .ok y ↔ ∃ x, r = .ok x ∧ f x = y := by
  cases r <;> simp [Except.map]

theorem except_map_eq_error_iff {f : α → β} {r : Except Failure α} {e : Failure} :
    r.map f = .error e ↔ r = .error e := by
  cases r <;> simp [Except.map]

/-- A list that is not empty has its first fault at its head or behind it. -/
theorem exists_split_cons {γ : Type} {P : List γ → γ → Prop} {c : γ} {rest : List γ} :
    (∃ before v after, c :: rest = before ++ v :: after ∧ P before v) ↔
      P [] c ∨ ∃ before v after, rest = before ++ v :: after ∧ P (c :: before) v := by
  constructor
  · rintro ⟨before, v, after, h, hp⟩
    cases before with
    | nil =>
      obtain ⟨rfl, rfl⟩ := List.cons.inj h
      exact Or.inl hp
    | cons b before =>
      obtain ⟨rfl, rfl⟩ := List.cons.inj h
      exact Or.inr ⟨before, v, after, rfl, hp⟩
  · rintro (hp | ⟨before, v, after, rfl, hp⟩)
    · exact ⟨[], c, rest, rfl, hp⟩
    · exact ⟨c :: before, v, after, rfl, hp⟩

theorem exists_split_map {γ δ : Type} {P : List δ → δ → Prop} {g : γ → δ} {xs : List γ} :
    (∃ before v after, xs.map g = before ++ v :: after ∧ P before v) ↔
      ∃ before c after, xs = before ++ c :: after ∧ P (before.map g) (g c) := by
  constructor
  · rintro ⟨_, _, _, h, hp⟩
    obtain ⟨before, rest, rfl, rfl, hrest⟩ := List.map_eq_append_iff.mp h
    obtain ⟨c, after, rfl, rfl, -⟩ := List.map_eq_cons_iff.mp hrest
    exact ⟨before, c, after, rfl, hp⟩
  · rintro ⟨before, c, after, rfl, hp⟩
    exact ⟨_, _, _, by rw [List.map_append, List.map_cons], hp⟩

/-! ### Arrays -/

theorem arrayFrom_cons {d : Decoder α} {v : Value} {x : α} (hv : d (some v) = .ok x)
    (position : Nat) (rest : List Value) :
    arrayFrom d position (v :: rest) = (arrayFrom d (position + 1) rest).map (x :: ·) := by
  simp only [arrayFrom, hv, under_ok, bind, Except.bind]
  cases arrayFrom d (position + 1) rest <;> rfl

theorem arrayFrom_eq_error_iff {d : Decoder α} {position : Nat} {items : List Value}
    {e : Failure} :
    arrayFrom d position items = .error e ↔
      ∃ before v after, items = before ++ v :: after ∧
        (∃ outputs, arrayFrom d position before = .ok outputs) ∧
        ∃ inner, d (some v) = .error inner ∧
          inner.under (.index (position + before.length)) = e := by
  induction items generalizing position with
  | nil => simp [arrayFrom]
  | cons v rest ih =>
    rw [exists_split_cons]
    cases hv : d (some v) with
    | error inner => simp [arrayFrom, hv, bind, Except.bind]
    | ok x =>
      rw [or_iff_right (by simp), arrayFrom_cons hv, except_map_eq_error_iff, ih]
      simp only [arrayFrom_cons hv, except_map_eq_ok_iff, List.length_cons, Nat.add_assoc,
        Nat.add_comm 1, exists_comm (α := List α), exists_and_left, exists_eq', and_true]

/-- An element without fault that is no duplicate joins those seen. -/
theorem setFrom_cons {same : α → α → Bool} {d : Decoder α} {v : Value} {x : α} {seen : List α}
    (hv : d (some v) = .ok x) (hf : seen.findIdx? (same · x) = none) (position : Nat)
    (rest : List Value) :
    setFrom same d seen position (v :: rest) =
      setFrom same d (seen ++ [x]) (position + 1) rest := by
  simp [setFrom, hv, hf, bind, Except.bind]

theorem setFrom_eq_error_iff {same : α → α → Bool} {d : Decoder α} {seen : List α}
    {position : Nat} {items : List Value} {e : Failure} :
    setFrom same d seen position items = .error e ↔
      ∃ before v after, items = before ++ v :: after ∧
        ∃ outputs, setFrom same d seen position before = .ok outputs ∧
          ((∃ inner, d (some v) = .error inner ∧
              inner.under (.index (position + before.length)) = e) ∨
            ∃ x first, d (some v) = .ok x ∧ outputs.findIdx? (same · x) = some first ∧
              ⟨[.index (position + before.length)], .duplicateValue first⟩ = e) := by
  induction items generalizing seen position with
  | nil => simp [setFrom]
  | cons v rest ih =>
    rw [exists_split_cons]
    cases hv : d (some v) with
    | error inner => simp [setFrom, hv, bind, Except.bind]
    | ok x =>
      cases hf : seen.findIdx? (same · x) with
      | some first =>
        simp [setFrom, hv, hf, bind, Except.bind, Failure.under, Failure.ofCause]
      | none =>
        rw [or_iff_right (by simp [setFrom, hf]), setFrom_cons hv hf, ih]
        simp only [setFrom_cons hv hf, List.length_cons, Nat.add_assoc, Nat.add_comm 1]

/-- A run of a set has an output for each element so far. -/
theorem length_setFrom {same : α → α → Bool} {d : Decoder α} {seen outputs : List α}
    {position : Nat} {items : List Value} (h : setFrom same d seen position items = .ok outputs) :
    outputs.length = seen.length + items.length := by
  induction items generalizing seen position with
  | nil =>
    cases h
    rfl
  | cons v rest ih =>
    obtain ⟨x, -, h⟩ := bind_eq_ok_iff.mp h
    cases hf : seen.findIdx? (same · x) with
    | some first => simp [hf] at h
    | none =>
      rw [hf] at h
      rw [ih h]
      simp only [List.length_append, List.length_cons, List.length_nil]
      omega

/-- An entry without fault and with a new key joins those seen. -/
theorem mapFrom_cons {order : κ → κ → Ordering} {entry : Decoder (κ × α)} {v : Value}
    {key : κ} {x : α} {seen : List (κ × Nat × α)} (hv : entry (some v) = .ok (key, x))
    (hf : Entries.find? order key seen = none) (position : Nat) (rest : List Value) :
    mapFrom order entry seen position (v :: rest) =
      mapFrom order entry (Entries.insert order key (position, x) seen) (position + 1) rest := by
  simp [mapFrom, hv, hf, bind, Except.bind]

theorem mapFrom_eq_error_iff {order : κ → κ → Ordering} {entry : Decoder (κ × α)}
    {seen : List (κ × Nat × α)} {position : Nat} {items : List Value} {e : Failure} :
    mapFrom order entry seen position items = .error e ↔
      ∃ before v after, items = before ++ v :: after ∧
        ∃ entries, mapFrom order entry seen position before = .ok entries ∧
          ((∃ inner, entry (some v) = .error inner ∧
              inner.under (.index (position + before.length)) = e) ∨
            ∃ key x first y, entry (some v) = .ok (key, x) ∧
              Entries.find? order key entries = some (first, y) ∧
              ⟨[.index (position + before.length)], .duplicateKey first⟩ = e) := by
  induction items generalizing seen position with
  | nil => simp [mapFrom]
  | cons v rest ih =>
    rw [exists_split_cons]
    cases hv : entry (some v) with
    | error inner => simp [mapFrom, hv, bind, Except.bind]
    | ok pair =>
      obtain ⟨key, x⟩ := pair
      cases hf : Entries.find? order key seen with
      | some earlier =>
        obtain ⟨first, y⟩ := earlier
        simp [mapFrom, hv, hf, bind, Except.bind, Failure.under, Failure.ofCause]
      | none =>
        rw [or_iff_right (by simp [mapFrom, hf]), mapFrom_cons hv hf, ih]
        simp only [mapFrom_cons hv hf, List.length_cons, Nat.add_assoc, Nat.add_comm 1]

/-- The entries seen so far stand before the position of the run. -/
theorem mapFrom_position_lt {order : κ → κ → Ordering} {entry : Decoder (κ × α)}
    {items : List Value} {seen entries : List (κ × Nat × α)} {position : Nat}
    (h : mapFrom order entry seen position items = .ok entries)
    (hs : ∀ earlier ∈ seen, earlier.2.1 < position) :
    ∀ earlier ∈ entries, earlier.2.1 < position + items.length := by
  induction items generalizing seen position with
  | nil =>
    cases h
    exact hs
  | cons v rest ih =>
    obtain ⟨⟨key, x⟩, hv, h⟩ := bind_eq_ok_iff.mp h
    cases hf : Entries.find? order key seen with
    | some earlier => simp [hf] at h
    | none =>
      simp only [hf] at h
      rw [List.length_cons, Nat.add_comm rest.length, ← Nat.add_assoc]
      refine ih h fun earlier he => ?_
      rcases Entries.value_mem_insert he with he | he
      · rw [he]
        exact Nat.lt_succ_self position
      · exact Nat.lt_succ_of_lt (hs earlier he)

/-! ### Objects -/

theorem dictFrom_cons {d : Decoder α} {name : String} {v : Value} {x : α}
    (hv : d (some v) = .ok x) (rest : List (String × Value)) :
    dictFrom d ((name, v) :: rest) = (dictFrom d rest).map ((name, x) :: ·) := by
  simp only [dictFrom, hv, under_ok, bind, Except.bind]
  cases dictFrom d rest <;> rfl

theorem dictFrom_eq_error_iff {d : Decoder α} {entries : List (String × Value)} {e : Failure} :
    dictFrom d entries = .error e ↔
      ∃ before entry after, entries = before ++ entry :: after ∧
        (∃ outputs, dictFrom d before = .ok outputs) ∧
        ∃ inner, d (some entry.2) = .error inner ∧ inner.under (.field entry.1) = e := by
  induction entries with
  | nil => simp [dictFrom]
  | cons entry rest ih =>
    obtain ⟨name, v⟩ := entry
    rw [exists_split_cons]
    cases hv : d (some v) with
    | error inner => simp [dictFrom, hv, bind, Except.bind]
    | ok x =>
      rw [or_iff_right (by simp), dictFrom_cons hv, except_map_eq_error_iff, ih]
      simp only [dictFrom_cons hv, except_map_eq_ok_iff, exists_comm (α := List (String × α)),
        exists_and_left, exists_eq', and_true]

/-- A field without fault joins those decoded. -/
theorem recordFrom_cons {entries : List (String × Value)} {f : String × Decoder α} {x : α}
    (hf : field entries f.1 f.2 = .ok x) (decoded : List (String × α))
    (rest : List (String × Decoder α)) :
    recordFrom entries decoded (f :: rest) =
      recordFrom entries (Entries.insert Text.order f.1 x decoded) rest := by
  simp [recordFrom, hf, bind, Except.bind]

theorem recordFrom_eq_error_iff {entries : List (String × Value)} {decoded : List (String × α)}
    {fields : List (String × Decoder α)} {e : Failure} :
    recordFrom entries decoded fields = .error e ↔
      ∃ before f after, fields = before ++ f :: after ∧
        (∃ outputs, recordFrom entries decoded before = .ok outputs) ∧
        field entries f.1 f.2 = .error e := by
  induction fields generalizing decoded with
  | nil => simp [recordFrom]
  | cons f rest ih =>
    rw [exists_split_cons]
    cases hf : field entries f.1 f.2 with
    | error inner => simp [recordFrom, hf, bind, Except.bind]
    | ok x =>
      rw [or_iff_right (by simp), recordFrom_cons hf, ih]
      simp only [recordFrom_cons hf]

theorem structFrom_cons {entries : List (String × Value)} {f : FieldName × Decoder α} {x : α}
    (hf : field entries f.1.key f.2 = .ok x) (rest : List (FieldName × Decoder α)) :
    structFrom entries (f :: rest) = (structFrom entries rest).map ((f.1.ident, x) :: ·) := by
  simp only [structFrom, hf, bind, Except.bind]
  cases structFrom entries rest <;> rfl

theorem structFrom_eq_error_iff {entries : List (String × Value)}
    {fields : List (FieldName × Decoder α)} {e : Failure} :
    structFrom entries fields = .error e ↔
      ∃ before f after, fields = before ++ f :: after ∧
        (∃ outputs, structFrom entries before = .ok outputs) ∧
        field entries f.1.key f.2 = .error e := by
  induction fields with
  | nil => simp [structFrom]
  | cons f rest ih =>
    rw [exists_split_cons]
    cases hf : field entries f.1.key f.2 with
    | error inner => simp [structFrom, hf, bind, Except.bind]
    | ok x =>
      rw [or_iff_right (by simp), structFrom_cons hf, except_map_eq_error_iff, ih]
      simp only [structFrom_cons hf, except_map_eq_ok_iff, exists_comm (α := List (String × α)),
        exists_and_left, exists_eq', and_true]

/-! ### Choices -/

section Choices
variable {input : Option Value} {d : Decoder α} {ds es rest : List (Decoder α)} {x : α}

theorem firstSuccess_cons :
    firstSuccess input (d :: rest) =
      match d input with
      | .ok x => .ok x
      | .error e => (firstSuccess input rest).mapError (e :: ·) := by
  rw [firstSuccess]
  cases d input with
  | ok x => rfl
  | error e => cases firstSuccess input rest <;> rfl

theorem firstSuccess_cons_eq_ok_iff :
    firstSuccess input (d :: rest) = .ok x ↔
      d input = .ok x ∨ (∃ e, d input = .error e) ∧ firstSuccess input rest = .ok x := by
  rw [firstSuccess]
  cases d input with
  | ok y => simp
  | error e => cases firstSuccess input rest <;> simp

/-- The first success: the alternatives before it fail. -/
theorem firstSuccess_eq_ok_iff :
    firstSuccess input ds = .ok x ↔
      ∃ before d after, ds = before ++ d :: after ∧ (∀ b ∈ before, ∃ e, b input = .error e) ∧
        d input = .ok x := by
  induction ds with
  | nil => simp [firstSuccess]
  | cons d rest ih =>
    rw [firstSuccess_cons_eq_ok_iff, exists_split_cons, ih]
    simp only [List.forall_mem_cons, List.not_mem_nil, false_implies, implies_true, true_and,
      and_assoc, and_left_comm, exists_and_left]

/-- Later alternatives are tried if all before fail, and their failures join those before. -/
theorem firstSuccess_append :
    firstSuccess input (ds ++ es) =
      match firstSuccess input ds with
      | .ok x => .ok x
      | .error failures => (firstSuccess input es).mapError (failures ++ ·) := by
  induction ds with
  | nil => cases h : firstSuccess input es <;> simp [firstSuccess, h, Except.mapError]
  | cons d rest ih =>
    rw [List.cons_append, firstSuccess_cons, firstSuccess_cons]
    cases d input with
    | ok x => rfl
    | error e =>
      rw [ih]
      cases firstSuccess input rest with
      | ok x => rfl
      | error failures => cases firstSuccess input es <;> rfl

/-- Later alternatives count only if all before have failed. -/
theorem firstSuccess_append_eq_ok_iff :
    firstSuccess input (ds ++ es) = .ok x ↔ firstSuccess input ds = .ok x ∨
      (∃ failures, firstSuccess input ds = .error failures) ∧ firstSuccess input es = .ok x := by
  rw [firstSuccess_append]
  cases firstSuccess input ds with
  | ok y => simp
  | error failures => cases firstSuccess input es <;> simp [Except.mapError]

theorem union_eq_mapError :
    union ds input =
      (firstSuccess input ds).mapError fun failures => .ofCause (.unionExhausted failures) := by
  unfold union
  cases firstSuccess input ds <;> rfl

theorem union_eq_ok_iff : union ds input = .ok x ↔ firstSuccess input ds = .ok x := by
  unfold union
  cases firstSuccess input ds <;> simp

end Choices

end TypedJson.Decoder
