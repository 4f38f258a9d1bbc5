import TypedJson.Proofs.Schema.Records
import TypedJson.Schema.Samples

/-!
# Record types are records of their keys

A record type keeps the outputs of its fields in a list under their identifiers, a record in a dictionary
under their keys.  Both decode the same declarations (`Declares`), so they fail together and alike
(`struct_eq_error_iff_record`).  If the keys are all different, every declaration is the last one of its
key, and so the dictionary has the output of each field (`holdByKey_of_decoder`).
-/

namespace TypedJson.Schema

open Decoder

variable {name : String} {fields : List (FieldName × Schema)} {entries : List (String × Value)}
  {input : Option Value} {e : Failure}

/-- The fields of a record type as declarations of a record, in the same order. -/
def byKey (fields : List (FieldName × Schema)) : List (String × Schema) :=
  fields.map fun field => (field.1.key, field.2)

/-- **The fields of a record type hold what a dictionary holds under their keys**, field by field in the
order of declaration. -/
def HoldByKey (fields : List (FieldName × Schema)) (outputs dict : List (String × Output)) : Prop :=
  List.Forall₂ (fun field output => output.1 = field.1.ident ∧
    Entries.find? Text.order field.1.key dict = some output.2) fields outputs

/-! ### Failure -/

theorem struct_eq_error_iff_record :
    (struct name fields).decoder input = .error e ↔
      (record (byKey fields)).decoder input = .error e :=
  (Declares.struct name fields).eq_error_iff.trans (Declares.record (byKey fields)).eq_error_iff.symm

/-- The path of a fault begins with the key of the field at fault. -/
theorem path_of_field {key : String} {s : Schema}
    (h : Decoder.field entries key s.decoder = .error e) : ∃ rest, e.path = .field key :: rest := by
  rcases field_eq_error_iff.mp h with ⟨v, -, inner, -, rfl⟩ | ⟨-, -, rfl⟩
  · exact ⟨inner.path, rfl⟩
  · exact ⟨[], rfl⟩

/-- The first field at fault, of those of a record type. -/
theorem FieldFault.exists_of_byKey (h : FieldFault (byKey fields) entries e) :
    ∃ before field after rest, fields = before ++ field :: after ∧
      (∀ f ∈ before, ∃ x, f.2.decoder (Value.lookup f.1.key entries) = .ok x) ∧
      Decoder.field entries field.1.key field.2.decoder = .error e ∧
      e.path = .field field.1.key :: rest := by
  obtain ⟨before, field, after, hfields, hbefore, hfield⟩ := exists_split_map.mp h
  obtain ⟨rest, hpath⟩ := path_of_field hfield
  exact ⟨before, field, after, rest, hfields, fun f hf => hbefore _ (List.mem_map_of_mem hf), hfield, hpath⟩

/-! ### Success -/

/-- Of different keys every declaration is the last one. -/
theorem lastDeclared_of_mem (hkeys : (fields.map fun field => field.1.key).Nodup)
    {field : FieldName × Schema} (hfield : field ∈ fields) :
    LastDeclared (byKey fields) field.1.key field.2 := by
  obtain ⟨before, after, rfl⟩ := List.mem_iff_append.mp hfield
  refine ⟨byKey before, byKey after, by simp [byKey], ?_⟩
  rw [List.map_append, List.map_cons] at hkeys
  have hafter := (List.nodup_cons.mp (List.nodup_append.mp hkeys).2.1).1
  simpa [byKey] using hafter

/-- **A record type and the record of its keys decode to the same outputs.** -/
theorem holdByKey_of_decoder (hkeys : (fields.map fun field => field.1.key).Nodup)
    {x y : Output} (hx : (struct name fields).decoder input = .ok x)
    (hy : (record (byKey fields)).decoder input = .ok y) :
    ∃ outputs dict, x = .record name outputs ∧ y = .dict dict ∧
      (∀ key, key ∈ dict.map Prod.fst ↔ key ∈ fields.map fun field => field.1.key) ∧
      HoldByKey fields outputs dict := by
  obtain ⟨outputs, houtputs, rfl⟩ := Decoder.map_eq_ok_iff.mp hx
  obtain ⟨entries, rfl, hdecodes⟩ := struct_eq_ok_iff.mp houtputs
  obtain ⟨dict, rfl, hsorted, hnames, hdict⟩ := dict_of_record hy
  rw [structDecoders_eq_map, List.forall₂_map_left_iff] at hdecodes
  refine ⟨outputs, dict, rfl, rfl, fun key => ?_, ?_⟩
  · rw [hnames, byKey, List.map_map]
    rfl
  · refine List.Forall₂.imp ?_ ((List.forall₂_and_left _ _).mpr ⟨fun _ => id, hdecodes⟩)
    rintro field output ⟨hfield, hident, houtput⟩
    have hmem := (hdict field.1.key output.2).mpr ⟨field.2, lastDeclared_of_mem hkeys hfield, houtput⟩
    exact ⟨hident.symm, Entries.find?_of_mem hsorted hmem⟩

/-- **A record type agrees with the record of its keys.**  On every input, present or absent, either both
succeed, and each field holds what the dictionary holds under the key of the field, or both fail with one
failure.  That is the shape of an input which is no object, or the fault of the first field whose schema
does not decode what stands under its key; its path begins with this key, whatever the field is called. -/
theorem struct_agrees_with_record (name : String) {fields : List (FieldName × Schema)}
    (hkeys : (fields.map fun field => field.1.key).Nodup) (input : Option Value) :
    (∃ outputs dict, (struct name fields).decoder input = .ok (.record name outputs) ∧
      (record (byKey fields)).decoder input = .ok (.dict dict) ∧
      (∀ key, key ∈ dict.map Prod.fst ↔ key ∈ fields.map fun field => field.1.key) ∧
      HoldByKey fields outputs dict) ∨
    ∃ e, (struct name fields).decoder input = .error e ∧
      (record (byKey fields)).decoder input = .error e ∧
      (((∀ entries, input ≠ some (.object entries)) ∧ e = .shapeMismatch .object input) ∨
        ∃ entries, input = some (.object entries) ∧
          ∃ before field after rest, fields = before ++ field :: after ∧
            (∀ f ∈ before, ∃ x, f.2.decoder (Value.lookup f.1.key entries) = .ok x) ∧
            Decoder.field entries field.1.key field.2.decoder = .error e ∧
            e.path = .field field.1.key :: rest) := by
  cases hx : (struct name fields).decoder input with
  | ok x =>
    cases hy : (record (byKey fields)).decoder input with
    | ok y =>
      obtain ⟨outputs, dict, rfl, rfl, hnames, hhold⟩ := holdByKey_of_decoder hkeys hx hy
      exact Or.inl ⟨outputs, dict, rfl, rfl, hnames, hhold⟩
    | error e => cases hx.symm.trans (struct_eq_error_iff_record.mpr hy)
  | error e =>
    refine Or.inr ⟨e, rfl, struct_eq_error_iff_record.mp hx, ?_⟩
    rcases (Declares.struct name fields).eq_error_iff.mp hx with hshape | ⟨entries, rfl, hfault⟩
    · refine Or.inl ⟨fun entries hinput => ?_, expectObject_eq_error hshape⟩
      rw [hinput] at hshape
      cases hshape
    · exact Or.inr ⟨entries, rfl, FieldFault.exists_of_byKey hfault⟩

/-- A field called like a keyword, a field with a key of its own and a missing one. -/
theorem struct_agrees_with_record_renamed :
    let fields := [Samples.field "r#type" .string, Samples.fieldAs "content_type" "content-type" .string,
      Samples.fieldAs "is_inline" "isInline" (.option .boolean)]
    let input := some (Value.object [("content-type", .string "text/plain"), ("type", .string "file")])
    let outputs := [("r#type", Output.text "file"), ("content_type", .text "text/plain"), ("is_inline", .none)]
    (fields.map fun field => field.1.key).Nodup ∧
      (struct "Attachment" fields).decoder input = .ok (.record "Attachment" outputs) ∧
      ∃ dict, (record (byKey fields)).decoder input = .ok (.dict dict) ∧
        HoldByKey fields outputs dict := by
  intro fields input outputs
  have hkeys : (fields.map fun field => field.1.key).Nodup := by decide
  have hx : (struct "Attachment" fields).decoder input = .ok (.record "Attachment" outputs) := rfl
  rcases struct_agrees_with_record "Attachment" hkeys input with
    ⟨outputs', dict, hx', hdict, -, hhold⟩ | ⟨e, he, -⟩
  · cases hx.symm.trans hx'
    exact ⟨hkeys, hx, dict, hdict, hhold⟩
  · cases hx.symm.trans he

end TypedJson.Schema
