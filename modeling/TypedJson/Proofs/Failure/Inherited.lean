import TypedJson.Proofs.Decoder.Faults
import TypedJson.Proofs.Schema.BuiltFrom
import TypedJson.Proofs.Value.Parts

/-!
# What is inherited by the failures of composite decoders

A composite decoder hands on the failure of a part, seen from one step further out, or fails by itself:
for the kind or the shape of its input, for a missing field, for a duplicate, for want of an alternative.
A property of failures on inputs is *inherited* (`Failure.Inherited`) if it holds of the failures of the
latter sort and is kept by the step out.

If a property is inherited, every combinator makes decoders that fail with it of such decoders, and so
does every schema, if the plain functions that it holds fail with it (`Schema.BuiltFrom.failsWith`).
-/

namespace TypedJson

/-- **A property of failures on inputs that composite decoders hand on.** -/
structure Failure.Inherited (P : Option Value → Failure → Prop) : Prop where
  under {input target : Option Value} {step : Step} {e : Failure} :
    Value.step? input step = some target → P target e → P input (e.under step)
  typeMismatch (expected : String) (input : Option Value) : P input (.typeMismatch expected input)
  valueMismatch (expected : Value) (input : Option Value) : P input (.valueMismatch expected input)
  shapeMismatch (expected : Shape) (input : Option Value) : P input (.shapeMismatch expected input)
  missingField {entries : List (String × Value)} {name : String} :
    Value.lookup name entries = none →
      P (some (.object entries)) ((ofCause (.missingField name)).under (.field name))
  invalidTimestamp {input : Option Value} (found reason : String) :
    ((∃ text, input = some (.string text)) ∨ ∃ n, input = some (.number n)) →
      P input (.ofCause (.invalidTimestamp found reason))
  duplicate {before after : List Value} {v : Value} {first : Nat} {cause : Cause Failure} :
    first < before.length → cause = .duplicateValue first ∨ cause = .duplicateKey first →
      P (some (.array (before ++ v :: after))) ⟨[.index before.length], cause⟩
  union {input : Option Value} {failures : List Failure} :
    (∀ f ∈ failures, P input f) → P input (.ofCause (.unionExhausted failures))

/-- The cause lies with a part of a container, so that no combinator fails for it at the root. -/
def Cause.OfPart : Cause Failure → Prop
  | .missingField _ | .duplicateValue _ | .duplicateKey _ => True
  | _ => False

/-- **Not to fail at the root is inherited**, for causes that lie with a part. -/
theorem Failure.inherited_not_root {ι : Type} {cause : ι → Cause Failure} (h : ∀ i, (cause i).OfPart) :
    Failure.Inherited fun _ e => ∀ i, e ≠ ⟨[], cause i⟩ := by
  have hroot : ∀ {c : Cause Failure}, ¬ c.OfPart → ∀ i, ofCause c ≠ ⟨[], cause i⟩ := by
    intro c hc i he
    obtain rfl : c = cause i := congrArg Failure.cause he
    exact hc (h i)
  have hpart : ∀ {step path} {c : Cause Failure} i,
      (⟨step :: path, c⟩ : Failure) ≠ ⟨[], cause i⟩ := by
    intro step path c i he
    exact List.cons_ne_nil _ _ (congrArg Failure.path he)
  exact
    { under := fun _ _ => hpart
      typeMismatch := fun _ _ => hroot id
      valueMismatch := fun _ _ => hroot id
      shapeMismatch := fun _ _ => hroot id
      missingField := fun _ => hpart
      invalidTimestamp := fun _ _ _ => hroot id
      duplicate := fun _ _ => hpart
      union := fun _ => hroot id }

namespace Decoder

variable {α β κ : Type} {P : Option Value → Failure → Prop}

/-- The failures of the decoder on well-formed inputs have the property. -/
def FailsWith (P : Option Value → Failure → Prop) (d : Decoder α) : Prop :=
  ∀ input, Value.WellFormedInput input → ∀ e, d input = .error e → P input e

theorem FailsWith.map {d : Decoder α} (hd : d.FailsWith P) (f : α → β) : (d.map f).FailsWith P :=
  fun input hw e h => hd input hw e (map_eq_error_iff.mp h)

section Combinators
variable (hP : Failure.Inherited P)
include hP

/-! ### Single values -/

theorem failsWith_mismatch {d : Decoder α} {expected : String}
    (h : ∀ {input e}, d input = .error e → e = .typeMismatch expected input) : d.FailsWith P := by
  intro input _ e he
  rw [h he]
  exact hP.typeMismatch _ _

theorem failsWith_date : date.FailsWith P := by
  intro input _ e h
  rcases date_eq_error h with ⟨htarget, found, reason, rfl⟩ | rfl
  · exact hP.invalidTimestamp found reason htarget
  · exact hP.typeMismatch _ _

theorem failsWith_literal {output : α} {expected : Value} :
    (literal output expected).FailsWith P := by
  intro input _ e h
  rw [literal_eq_error h]
  exact hP.valueMismatch _ _

/-- The special leaves fail as numbers do, or because a number is not even. -/
theorem failsWith_of_specialLeaf {d : Decoder Output} (h : Schema.SpecialLeaf d) :
    d.FailsWith P := by
  intro input hw e he
  have hnumber : ∀ {e}, number input = .error e → P input e :=
    fun {e} => failsWith_mismatch hP number_eq_error input hw e
  simp only [Schema.SpecialLeaf, List.mem_cons, List.not_mem_nil, or_false] at h
  rcases h with h | h | h <;> cases h
  · rcases bind_eq_error_iff.mp he with he | ⟨x, -, he⟩
    · exact hnumber he
    · split at he <;> cases he
      exact hP.valueMismatch _ _
  · rcases bind_eq_error_iff.mp he with he | ⟨x, -, he⟩
    · exact hnumber he
    · cases he
  · cases he

/-! ### Arrays -/

theorem FailsWith.tuple {first : Decoder α} {second : Decoder β} (h₁ : first.FailsWith P)
    (h₂ : second.FailsWith P) : (tuple first second).FailsWith P := by
  intro input hw e h
  rcases tuple_eq_error h with rfl | ⟨v, w, rfl, ⟨inner, hv, rfl⟩ | ⟨inner, hv, rfl⟩⟩
  · exact hP.shapeMismatch _ _
  · exact hP.under rfl (h₁ (some v) (hw.item (by simp)) inner hv)
  · exact hP.under rfl (h₂ (some w) (hw.item (by simp)) inner hv)

/-- An element at fault. -/
theorem FailsWith.element {d : Decoder α} (hd : d.FailsWith P) {before after : List Value} {v : Value}
    (hw : (Value.array (before ++ v :: after)).WellFormed) {inner : Failure}
    (h : d (some v) = .error inner) :
    P (some (.array (before ++ v :: after))) (inner.under (.index (0 + before.length))) := by
  rw [Nat.zero_add]
  exact hP.under (Value.step?_index_append before v after) (hd (some v) (hw.item (by simp)) inner h)

theorem FailsWith.array {d : Decoder α} (hd : d.FailsWith P) : (array d).FailsWith P := by
  intro input hw e h
  rcases array_eq_error_iff.mp h with h | ⟨items, rfl, hrun⟩
  · rw [expectArray_eq_error h]
    exact hP.shapeMismatch _ _
  · obtain ⟨before, v, after, rfl, -, inner, hv, rfl⟩ := arrayFrom_eq_error_iff.mp hrun
    exact hd.element hP hw hv

theorem FailsWith.set {same : α → α → Bool} {d : Decoder α} (hd : d.FailsWith P) :
    (set same d).FailsWith P := by
  intro input hw e h
  rcases set_eq_error_iff.mp h with h | ⟨items, rfl, hrun⟩
  · rw [expectArray_eq_error h]
    exact hP.shapeMismatch _ _
  · obtain ⟨before, v, after, rfl, outputs, hout, ⟨inner, hv, rfl⟩ | ⟨x, first, -, hf, rfl⟩⟩ :=
      setFrom_eq_error_iff.mp hrun
    · exact hd.element hP hw hv
    · have hlength := length_setFrom hout
      have hfirst := (List.findIdx?_eq_some_iff_getElem.mp hf).1
      rw [hlength, List.length_nil, Nat.zero_add] at hfirst
      rw [Nat.zero_add]
      exact hP.duplicate hfirst (Or.inl rfl)

theorem FailsWith.mapping {order : κ → κ → Ordering} {key : Decoder κ} {value : Decoder α}
    (hk : key.FailsWith P) (hv : value.FailsWith P) : (mapping order key value).FailsWith P := by
  intro input hw e h
  rcases mapping_eq_error_iff.mp h with h | ⟨items, rfl, hrun⟩
  · rw [expectArray_eq_error h]
    exact hP.shapeMismatch _ _
  · obtain ⟨before, v, after, rfl, entries, hout, ⟨inner, he, rfl⟩ | ⟨k, x, first, y, -, hf, rfl⟩⟩ :=
      mapFrom_eq_error_iff.mp hrun
    · exact (hk.tuple hP hv).element hP hw he
    · obtain ⟨k', hmem, -⟩ := Entries.mem_of_find? hf
      have hfirst := mapFrom_position_lt hout (by simp) _ hmem
      rw [Nat.zero_add] at hfirst ⊢
      exact hP.duplicate hfirst (Or.inr rfl)

/-! ### Objects -/

theorem FailsWith.field {d : Decoder α} (hd : d.FailsWith P) {entries : List (String × Value)}
    (hw : (Value.object entries).WellFormed) {name : String} {e : Failure}
    (h : field entries name d = .error e) : P (some (.object entries)) e := by
  rcases field_eq_error_iff.mp h with ⟨v, hl, inner, hv, rfl⟩ | ⟨hl, -, rfl⟩
  · have hstep : Value.step? (some (.object entries)) (.field name) = some (some v) := by
      rw [Value.step?, hl]
    exact hP.under hstep (hd (some v) (hw.entry (Value.mem_of_lookup hl)) inner hv)
  · exact hP.missingField hl

theorem failsWith_record {fields : List (String × Decoder α)}
    (hd : ∀ f ∈ fields, f.2.FailsWith P) : (record fields).FailsWith P := by
  intro input hw e h
  rcases record_eq_error_iff.mp h with h | ⟨entries, rfl, hrun⟩
  · rw [expectObject_eq_error h]
    exact hP.shapeMismatch _ _
  · obtain ⟨before, f, after, rfl, -, hf⟩ := recordFrom_eq_error_iff.mp hrun
    exact (hd f (by simp)).field hP hw hf

theorem failsWith_struct {fields : List (FieldName × Decoder α)}
    (hd : ∀ f ∈ fields, f.2.FailsWith P) : (struct fields).FailsWith P := by
  intro input hw e h
  rcases struct_eq_error_iff.mp h with h | ⟨entries, rfl, hrun⟩
  · rw [expectObject_eq_error h]
    exact hP.shapeMismatch _ _
  · obtain ⟨before, f, after, rfl, -, hf⟩ := structFrom_eq_error_iff.mp hrun
    exact (hd f (by simp)).field hP hw hf

theorem FailsWith.dict {d : Decoder α} (hd : d.FailsWith P) : (dict d).FailsWith P := by
  intro input hw e h
  rcases dict_eq_error_iff.mp h with h | ⟨entries, rfl, hrun⟩
  · rw [expectObject_eq_error h]
    exact hP.shapeMismatch _ _
  · obtain ⟨before, ⟨name, v⟩, after, rfl, -, inner, hv, rfl⟩ := dictFrom_eq_error_iff.mp hrun
    have hmem : (name, v) ∈ before ++ (name, v) :: after := by simp
    -- names are distinct, so the step leads to this entry and to no other
    have hstep : Value.step? (some (.object (before ++ (name, v) :: after))) (.field name) =
        some (some v) := by
      rw [Value.step?, hw.lookup_of_mem hmem]
    exact hP.under hstep (hd (some v) (hw.entry hmem) inner hv)

/-! ### Choices -/

theorem failsWith_union {alternatives : List (Decoder α)}
    (hd : ∀ d ∈ alternatives, d.FailsWith P) : (union alternatives).FailsWith P := by
  intro input hw e h
  obtain ⟨failures, hmap, rfl⟩ := union_eq_error_iff.mp h
  refine hP.union fun f hf => ?_
  have hmem : Except.error f ∈ alternatives.map fun d => d input := by
    rw [hmap]
    exact List.mem_map_of_mem hf
  obtain ⟨d, hdm, hfail⟩ := List.mem_map.mp hmem
  exact hd d hdm input hw f hfail

omit hP in
theorem FailsWith.option {d : Decoder α} (hd : d.FailsWith P) : (option d).FailsWith P := by
  intro input hw e h
  obtain ⟨v, rfl, hv⟩ := option_eq_error_iff.mp h
  exact hd (some v) hw e hv

end Combinators

end Decoder

/-- **The failures of a schema inherit what those of its plain functions have.** -/
theorem Schema.BuiltFrom.failsWith {P : Option Value → Failure → Prop} (hP : Failure.Inherited P)
    {s : Schema} (h : s.BuiltFrom (Decoder.FailsWith P) fun _ => True) : s.decoder.FailsWith P := by
  induction h with
  | string => exact (Decoder.failsWith_mismatch hP Decoder.string_eq_error).map _
  | number => exact (Decoder.failsWith_mismatch hP Decoder.number_eq_error).map _
  | boolean => exact (Decoder.failsWith_mismatch hP Decoder.boolean_eq_error).map _
  | absent => exact (Decoder.failsWith_mismatch hP Decoder.absent_eq_error).map _
  | null => exact (Decoder.failsWith_mismatch hP Decoder.null_eq_error).map _
  | date => exact (Decoder.failsWith_date hP).map _
  | literal => exact Decoder.failsWith_literal hP
  | text => exact Decoder.failsWith_literal hP
  | tuple _ _ iha ihb => exact (iha.tuple hP ihb).map _
  | pair _ _ iha ihb => exact (iha.tuple hP ihb).map _
  | record _ ih => exact (Decoder.failsWith_record hP (forall_mem_fieldDecoders ih)).map _
  | fieldTable _ ih =>
    refine (Decoder.failsWith_record hP ?_).map _
    exact Entries.forall_mem_ofList (forall_mem_fieldDecoders ih)
  | struct _ ih => exact (Decoder.failsWith_struct hP (forall_mem_structDecoders ih)).map _
  | union _ ih => exact Decoder.failsWith_union hP (forall_mem_decoders ih)
  | choice _ _ _ iha ihb ih =>
    have hrest := List.forall_mem_cons.mpr ⟨ihb, forall_mem_decoders ih⟩
    exact Decoder.failsWith_union hP (List.forall_mem_cons.mpr ⟨iha, hrest⟩)
  | option _ ih => exact ih.option.map _
  | array _ ih => exact (ih.array hP).map _
  | set _ ih => exact (ih.set hP).map _
  | map _ _ ihk ihv => exact (ihk.mapping hP ihv).map _
  | dict _ ih => exact (ih.dict hP).map _
  | mapped _ _ ih => exact ih.map _
  | custom hd => exact hd
  | shared _ ih => exact ih

end TypedJson
