import TypedJson.Proofs.Decoder.Runs
import TypedJson.Decoder.Primitive
import TypedJson.Decoder.Choice

/-!
# When decoders fail

For each decoder, exactly when it fails and with which failure: a primitive by the kind of the input, a
container by its shape or else by its run over the parts (`Decoder.Runs`), a field by what stands
under its name, a choice by all its alternatives.
-/

namespace TypedJson.Decoder

variable {α β κ : Type} {input : Option Value} {e : Failure}

/-! ### Single values -/

theorem string_eq_error (h : string input = .error e) : e = .typeMismatch "string" input := by
  unfold string at h
  split at h <;> cases h
  rfl

theorem number_eq_error (h : number input = .error e) : e = .typeMismatch "number" input := by
  unfold number at h
  split at h <;> cases h
  rfl

theorem boolean_eq_error (h : boolean input = .error e) : e = .typeMismatch "boolean" input := by
  unfold boolean at h
  split at h <;> cases h
  rfl

theorem absent_eq_error (h : absent input = .error e) : e = .typeMismatch "absent" input := by
  unfold absent at h
  split at h <;> cases h
  rfl

theorem null_eq_error (h : null input = .error e) : e = .typeMismatch "null" input := by
  unfold null at h
  split at h <;> cases h
  rfl

theorem literal_eq_error {output : α} {expected : Value}
    (h : literal output expected input = .error e) :
    e = .valueMismatch expected input := by
  unfold literal at h
  split at h
  · split at h <;> cases h
    rfl
  · cases h
    rfl

/-- A text that is no timestamp is reported as such, and so is a number. -/
theorem date_eq_error (h : date input = .error e) :
    ((∃ s, input = some (.string s)) ∨ ∃ n, input = some (.number n)) ∧
        (∃ found reason, e = .ofCause (.invalidTimestamp found reason)) ∨
      e = .typeMismatch "string or number" input := by
  unfold date at h
  split at h
  · next s =>
    unfold Timestamp.ofText at h
    split at h
    · cases h
    · split at h <;> cases h
      exact Or.inl ⟨Or.inl ⟨s, rfl⟩, _, _, rfl⟩
  · next n =>
    unfold Timestamp.ofMillis at h
    split at h <;> cases h
    exact Or.inl ⟨Or.inr ⟨n, rfl⟩, _, _, rfl⟩
  · cases h
    exact Or.inr rfl

/-! ### Containers -/

theorem expectArray_eq_ok_iff {items : List Value} :
    expectArray input = .ok items ↔ input = some (.array items) := by
  unfold expectArray
  split <;> simp_all

theorem expectArray_eq_error (h : expectArray input = .error e) :
    e = .shapeMismatch .array input := by
  unfold expectArray at h
  split at h <;> cases h
  rfl

theorem expectArray_of_not_array (h : ∀ items, input ≠ some (.array items)) :
    expectArray input = .error (.shapeMismatch .array input) := by
  unfold expectArray
  split
  · next items => exact absurd rfl (h items)
  · rfl

theorem expectObject_eq_ok_iff {entries : List (String × Value)} :
    expectObject input = .ok entries ↔ input = some (.object entries) := by
  unfold expectObject
  split <;> simp_all

theorem expectObject_eq_error (h : expectObject input = .error e) :
    e = .shapeMismatch .object input := by
  unfold expectObject at h
  split at h <;> cases h
  rfl

theorem expectObject_of_not_object (h : ∀ entries, input ≠ some (.object entries)) :
    expectObject input = .error (.shapeMismatch .object input) := by
  unfold expectObject
  split
  · next entries => exact absurd rfl (h entries)
  · rfl

theorem array_eq_error_iff {d : Decoder α} :
    array d input = .error e ↔ expectArray input = .error e ∨
      ∃ items, input = some (.array items) ∧ arrayFrom d 0 items = .error e := by
  simp only [array, bind_eq_error_iff, expectArray_eq_ok_iff]

theorem set_eq_error_iff {same : α → α → Bool} {d : Decoder α} :
    set same d input = .error e ↔ expectArray input = .error e ∨
      ∃ items, input = some (.array items) ∧ setFrom same d [] 0 items = .error e := by
  simp only [set, bind_eq_error_iff, expectArray_eq_ok_iff]

theorem mapping_eq_error_iff {order : κ → κ → Ordering} {key : Decoder κ} {value : Decoder α} :
    mapping order key value input = .error e ↔ expectArray input = .error e ∨
      ∃ items, input = some (.array items) ∧
        mapFrom order (tuple key value) [] 0 items = .error e := by
  simp only [mapping, bind_eq_error_iff, expectArray_eq_ok_iff, reduceCtorEq, and_false,
    exists_false, or_false]

theorem record_eq_error_iff {fields : List (String × Decoder α)} :
    record fields input = .error e ↔ expectObject input = .error e ∨
      ∃ entries, input = some (.object entries) ∧ recordFrom entries [] fields = .error e := by
  simp only [record, bind_eq_error_iff, expectObject_eq_ok_iff]

theorem struct_eq_error_iff {fields : List (FieldName × Decoder α)} :
    struct fields input = .error e ↔ expectObject input = .error e ∨
      ∃ entries, input = some (.object entries) ∧ structFrom entries fields = .error e := by
  simp only [struct, bind_eq_error_iff, expectObject_eq_ok_iff]

theorem dict_eq_error_iff {d : Decoder α} :
    dict d input = .error e ↔ expectObject input = .error e ∨
      ∃ entries, input = some (.object entries) ∧ dictFrom d entries = .error e := by
  simp only [dict, bind_eq_error_iff, expectObject_eq_ok_iff]

theorem tuple_eq_error {first : Decoder α} {second : Decoder β}
    (h : tuple first second input = .error e) :
    e = .shapeMismatch (.tuple 2) input ∨
      ∃ v w, input = some (.array [v, w]) ∧
        ((∃ inner, first (some v) = .error inner ∧ inner.under (.index 0) = e) ∨
          ∃ inner, second (some w) = .error inner ∧ inner.under (.index 1) = e) := by
  unfold tuple at h
  split at h
  · next v w =>
    refine Or.inr ⟨v, w, rfl, ?_⟩
    rcases bind_eq_error_iff.mp h with h | ⟨x, -, h⟩
    · exact Or.inl (under_eq_error_iff.mp h)
    · rcases bind_eq_error_iff.mp h with h | ⟨y, -, h⟩
      · exact Or.inr (under_eq_error_iff.mp h)
      · cases h
  · cases h
    exact Or.inl rfl

theorem tuple_array_eq_error_iff {first : Decoder α} {second : Decoder β} {v w : Value} :
    tuple first second (some (.array [v, w])) = .error e ↔
      (∃ inner, first (some v) = .error inner ∧ inner.under (.index 0) = e) ∨
        (∃ x, first (some v) = .ok x) ∧
          ∃ inner, second (some w) = .error inner ∧ inner.under (.index 1) = e := by
  cases hv : first (some v) <;> cases hw : second (some w) <;>
    simp [tuple, hv, hw, bind, Except.bind]

theorem field_eq_of_lookup {entries entries' : List (String × Value)} {name : String}
    (h : Value.lookup name entries' = Value.lookup name entries) (d : Decoder α) :
    field entries' name d = field entries name d := by
  rw [field, h, field]

/-- A field fails in its place if it is there, and as missing if it is not. -/
theorem field_eq_error_iff {entries : List (String × Value)} {name : String} {d : Decoder α} :
    field entries name d = .error e ↔
      (∃ v, Value.lookup name entries = some v ∧
        ∃ inner, d (some v) = .error inner ∧ inner.under (.field name) = e) ∨
      Value.lookup name entries = none ∧ (∃ inner, d none = .error inner) ∧
        (Failure.ofCause (.missingField name)).under (.field name) = e := by
  cases hl : Value.lookup name entries with
  | some v => simp [field_of_lookup_some hl, under_eq_error_iff]
  | none =>
    unfold field
    rw [hl]
    cases d none <;> simp

/-! ### Choices -/

theorem union_eq_error_iff {alternatives : List (Decoder α)} :
    union alternatives input = .error e ↔
      ∃ failures, alternatives.map (fun d => d input) = failures.map Except.error ∧
        .ofCause (.unionExhausted failures) = e := by
  simp only [← firstSuccess_eq_error_iff, union]
  cases firstSuccess input alternatives <;> simp

theorem option_eq_error_iff {d : Decoder α} :
    option d input = .error e ↔ ∃ v, input = some v ∧ d (some v) = .error e := by
  cases input with
  | none => simp [option]
  | some v => cases h : d (some v) <;> simp [option, h]

end TypedJson.Decoder
