import TypedJson.Proofs.Decoder.Successes
import TypedJson.Proofs.Schema.Expansion

/-!
# Declared fields

A record, a table of fields and a record type all decode declared fields, one after the other, and differ
only in what they do with the outputs.  `Schema.Declares` lists the declarations of each.  On an object the
first declaration at fault ends decoding (`FieldFault`), and there is one unless every declaration decodes
what stands under its name (`Declares.succeeds_iff`); any other input fails for its shape.
-/

namespace TypedJson.Schema

open Decoder

/-- **The declarations of a schema**, in the order of decoding, each with the key that it reads. -/
inductive Declares : Schema → List (String × Schema) → Prop
  | record (fields : List (String × Schema)) : Declares (.record fields) fields
  | fieldTable (fields : List (String × Schema)) :
    Declares (.fieldTable fields) (Entries.ofList Text.order fields)
  | struct (name : String) (fields : List (FieldName × Schema)) :
    Declares (.struct name fields) (fields.map fun field => (field.1.key, field.2))

/-- One of the fields is at fault, and those before it decode. -/
def FieldFault (fields : List (String × Schema)) (entries : List (String × Value))
    (failure : Failure) : Prop :=
  ∃ before field after, fields = before ++ field :: after ∧
    (∀ f ∈ before, ∃ x, f.2.decoder (Value.lookup f.1 entries) = .ok x) ∧
    Decoder.field entries field.1 field.2.decoder = .error failure

section Runs
variable {entries : List (String × Value)} {failure : Failure}

theorem recordFrom_eq_error_iff_fieldFault {fields : List (String × Schema)} :
    recordFrom entries [] (fields.map fun field => (field.1, field.2.decoder)) = .error failure ↔
      FieldFault fields entries failure := by
  simp only [recordFrom_eq_error_iff, recordFrom_succeeds_iff, exists_split_map, List.forall_mem_map]
  rfl

theorem structFrom_eq_error_iff_fieldFault {fields : List (FieldName × Schema)} :
    structFrom entries (fields.map fun field => (field.1, field.2.decoder)) = .error failure ↔
      FieldFault (fields.map fun field => (field.1.key, field.2)) entries failure := by
  simp only [structFrom_eq_error_iff, structFrom_succeeds_iff, FieldFault, exists_split_map,
    List.forall_mem_map]

end Runs

theorem fieldTable_decoder (fields : List (String × Schema)) :
    (fieldTable fields).decoder = (record (Entries.ofList Text.order fields)).decoder := by
  rw [Schema.decoder, Schema.decoder, fieldDecoders_ofList]

namespace Declares

variable {s : Schema} {declared : List (String × Schema)} {entries : List (String × Value)}
  {input : Option Value} {failure : Failure}

/-- The schema fails for the shape of the input, or by its first declaration at fault. -/
theorem eq_error_iff (h : s.Declares declared) :
    s.decoder input = .error failure ↔ expectObject input = .error failure ∨
      ∃ entries, input = some (.object entries) ∧ FieldFault declared entries failure := by
  cases h with
  | record | fieldTable =>
    simp only [Schema.decoder, fieldDecoders_eq_map, ← Entries.map_ofList, Decoder.map_eq_error_iff,
      record_eq_error_iff, recordFrom_eq_error_iff_fieldFault]
  | struct =>
    simp only [Schema.decoder, structDecoders_eq_map, Decoder.map_eq_error_iff, struct_eq_error_iff,
      structFrom_eq_error_iff_fieldFault]

theorem object_eq_error_iff (h : s.Declares declared) :
    s.decoder (some (.object entries)) = .error failure ↔ FieldFault declared entries failure := by
  simp [h.eq_error_iff, expectObject]

theorem of_not_object (h : s.Declares declared) (hinput : ∀ entries, input ≠ some (.object entries)) :
    s.decoder input = .error (.shapeMismatch .object input) :=
  h.eq_error_iff.mpr (Or.inl (expectObject_of_not_object hinput))

/-- It succeeds on an object if every declaration decodes what stands under its name. -/
theorem succeeds_iff (h : s.Declares declared) :
    (∃ y, s.decoder (some (.object entries)) = .ok y) ↔
      ∀ field ∈ declared, ∃ x, field.2.decoder (Value.lookup field.1 entries) = .ok x := by
  cases h with
  | record | fieldTable =>
    simp only [Schema.decoder, fieldDecoders_eq_map, ← Entries.map_ofList, map_succeeds_iff]
    exact recordFrom_succeeds_iff.trans List.forall_mem_map
  | struct =>
    simp only [Schema.decoder, structDecoders_eq_map, map_succeeds_iff, List.forall_mem_map]
    exact structFrom_succeeds_iff.trans List.forall_mem_map

end Declares

end TypedJson.Schema
