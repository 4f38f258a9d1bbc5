import TypedJson.Proofs.Schema.Conformance
import TypedJson.Proofs.Schema.Declarations

/-!
# Records do not depend on the order of their declarations

A record succeeds exactly if every declaration decodes what stands under its name, and then its output holds
the output of the last declaration of each name and nothing else (`dict_of_record`).  Neither depends on the
order, but for that among declarations of one name.  So reordered declarations give the same record, and only
which of several faults is reported may change (`Reordered.sameButForFault`).
-/

namespace TypedJson.Schema

open Decoder

section Records
variable {s : Schema} {fields fields' : List (String × Schema)} {entries : List (String × Value)}

/-- The declaration is the last one of its name. -/
def LastDeclared (fields : List (String × Schema)) (name : String) (s : Schema) : Prop :=
  ∃ before after, fields = before ++ (name, s) :: after ∧ name ∉ after.map Prod.fst

theorem lastDeclared_iff_find? {name : String} :
    LastDeclared fields name s ↔ Entries.find? Text.order name fields.reverse = some s := by
  rw [Entries.find?_eq_some_iff]
  constructor
  · rintro ⟨before, after, rfl, hnew⟩
    exact ⟨after.reverse, before.reverse, by simp, by simpa using hnew⟩
  · rintro ⟨before, after, hfields, hnew⟩
    refine ⟨after.reverse, before.reverse, ?_, by simpa using hnew⟩
    rw [← List.reverse_reverse fields, hfields]
    simp

theorem LastDeclared.unique {t : Schema} {name : String} (hs : LastDeclared fields name s)
    (ht : LastDeclared fields name t) : s = t :=
  Option.some.inj ((lastDeclared_iff_find?.mp hs).symm.trans (lastDeclared_iff_find?.mp ht))

theorem LastDeclared.mem_names {name : String} (hs : LastDeclared fields name s) :
    name ∈ fields.map Prod.fst := by
  obtain ⟨before, after, rfl, -⟩ := hs
  simp

/-- **The dictionary of a record**, by increasing name: the declared names, each with the output of its
last declaration. -/
theorem dict_of_record {y : Output} (h : (record fields).decoder (some (.object entries)) = .ok y) :
    ∃ outputs, y = .dict outputs ∧ Entries.Sorted Text.order outputs ∧
      (∀ name, name ∈ outputs.map Prod.fst ↔ name ∈ fields.map Prod.fst) ∧
      ∀ name x, (name, x) ∈ outputs ↔
        ∃ s, LastDeclared fields name s ∧ s.decoder (Value.lookup name entries) = .ok x := by
  rw [Schema.decoder, fieldDecoders_eq_map] at h
  obtain ⟨outputs, houtputs, rfl⟩ := Decoder.map_eq_ok_iff.mp h
  obtain ⟨_, hinput, hsorted, hkeys, hlast⟩ := Decoder.record_outputs houtputs
  cases hinput
  have hnames : ∀ name, name ∈ outputs.map Prod.fst ↔ name ∈ fields.map Prod.fst := by
    intro name
    rw [hkeys, List.map_map]
    rfl
  have hmem : ∀ {name x}, (name, x) ∈ outputs →
      ∃ s, LastDeclared fields name s ∧ s.decoder (Value.lookup name entries) = .ok x := by
    intro name x hx
    obtain ⟨d, hfind, hd⟩ := hlast (name, x) hx
    rw [← List.map_reverse, Entries.find?_map, Option.map_eq_some_iff] at hfind
    obtain ⟨s, hs, rfl⟩ := hfind
    exact ⟨s, lastDeclared_iff_find?.mpr hs, hd⟩
  refine ⟨outputs, rfl, hsorted, hnames, fun name x => ⟨hmem, ?_⟩⟩
  rintro ⟨s, hs, hx⟩
  obtain ⟨⟨_, y⟩, hy, rfl⟩ := List.mem_map.mp ((hnames name).mpr hs.mem_names)
  obtain ⟨t, ht, hty⟩ := hmem hy
  obtain rfl := hs.unique ht
  rwa [Except.ok.inj (hx.symm.trans hty)]

/-! ### Other orders of declaration -/

/-- **The same declarations, those of one name in the same order.** -/
structure Reordered (fields fields' : List (String × Schema)) : Prop where
  perm : fields.Perm fields'
  same_order (name : String) :
    fields.filter (fun field => field.1 == name) = fields'.filter fun field => field.1 == name

/-- Declarations of different names, in any order. -/
theorem reordered_of_sorted (hs : Entries.Sorted Text.order fields) (h : fields.Perm fields') :
    Reordered fields fields' :=
  ⟨h, hs.filter_eq h⟩

theorem Reordered.lastDeclared_iff (h : Reordered fields fields') {name : String} :
    LastDeclared fields name s ↔ LastDeclared fields' name s := by
  have hfilter : ∀ fields : List (String × Schema), Entries.find? Text.order name fields.reverse =
      Entries.find? Text.order name (fields.filter fun field => field.1 == name).reverse := by
    intro fields
    rw [← List.filter_reverse, Entries.find?_filter]
  rw [lastDeclared_iff_find?, lastDeclared_iff_find?, hfilter fields, hfilter fields', h.same_order]

/-- **Equal results, but for the fault that is reported**: of an object that has several, the one result
may report another field than the other. -/
def SameButForFault (fields : List (String × Schema)) (input : Option Value)
    (r r' : Except Failure Output) : Prop :=
  r = r' ∨ ∃ entries e e', input = some (.object entries) ∧ r = .error e ∧ r' = .error e' ∧
    (∃ field ∈ fields, Decoder.field entries field.1 field.2.decoder = .error e) ∧
    ∃ field ∈ fields, Decoder.field entries field.1 field.2.decoder = .error e'

/-- What makes a record fail is the failure of one of its fields. -/
theorem FieldFault.exists_field {e : Failure} (h : FieldFault fields entries e) :
    ∃ field ∈ fields, Decoder.field entries field.1 field.2.decoder = .error e := by
  obtain ⟨before, field, after, rfl, -, hfield⟩ := h
  exact ⟨field, by simp, hfield⟩

theorem Reordered.succeeds_iff (h : Reordered fields fields') :
    (∃ y, (record fields).decoder (some (.object entries)) = .ok y) ↔
      ∃ y, (record fields').decoder (some (.object entries)) = .ok y := by
  simp only [(Declares.record _).succeeds_iff, h.perm.mem_iff]

/-- Both dictionaries hold the last declarations, by increasing name. -/
theorem Reordered.eq_ok (h : Reordered fields fields') {y : Output}
    (hy : (record fields).decoder (some (.object entries)) = .ok y) :
    (record fields').decoder (some (.object entries)) = .ok y := by
  obtain ⟨y', hy'⟩ := h.succeeds_iff.mp ⟨y, hy⟩
  obtain ⟨outputs, rfl, hsorted, -, hmem⟩ := dict_of_record hy
  obtain ⟨outputs', rfl, hsorted', -, hmem'⟩ := dict_of_record hy'
  have hperm : outputs.Perm outputs' := by
    refine (List.perm_ext_iff_of_nodup hsorted.nodup hsorted'.nodup).mpr fun ⟨name, x⟩ => ?_
    simp only [hmem, hmem', h.lastDeclared_iff]
  rwa [hsorted.eq_of_perm hsorted' hperm]

theorem Reordered.sameButForFault (h : Reordered fields fields') (input : Option Value) :
    SameButForFault fields input ((record fields).decoder input) ((record fields').decoder input) := by
  by_cases hinput : ∀ entries, input ≠ some (.object entries)
  · refine Or.inl ?_
    rw [(Declares.record fields).of_not_object hinput, (Declares.record fields').of_not_object hinput]
  · obtain ⟨entries, rfl⟩ := not_forall_not.mp hinput
    cases hr : (record fields).decoder (some (.object entries)) with
    | ok y => exact Or.inl (h.eq_ok hr).symm
    | error e =>
      cases hr' : (record fields').decoder (some (.object entries)) with
      | ok y =>
        obtain ⟨y', hy'⟩ := h.succeeds_iff.mpr ⟨y, hr'⟩
        cases hr.symm.trans hy'
      | error e' =>
        have he := ((Declares.record _).object_eq_error_iff.mp hr).exists_field
        obtain ⟨field, hfield, he'⟩ := ((Declares.record _).object_eq_error_iff.mp hr').exists_field
        exact Or.inr ⟨entries, e, e', rfl, rfl, rfl, he, field, h.perm.mem_iff.mpr hfield, he'⟩

/-- **A record is what its declarations say, in any order.**  It decodes an object exactly if every
declaration decodes what stands under its name.  The output has the declared names, each with the output of
its last declaration.  So to reorder declarations of different names changes nothing but which fault is
reported, and neither does it matter for a table of fields, whose names are all different, in which order
they are declared as a record. -/
theorem record_of_declarations (fields : List (String × Schema)) :
    (∀ entries,
      ((∃ y, (record fields).decode (.object entries) = .ok y) ↔
        ∀ field ∈ fields, ∃ x, field.2.decoder (Value.lookup field.1 entries) = .ok x) ∧
      ∀ y, (record fields).decode (.object entries) = .ok y →
        ∃ outputs, y = .dict outputs ∧ Entries.Sorted Text.order outputs ∧
          (∀ name, name ∈ outputs.map Prod.fst ↔ name ∈ fields.map Prod.fst) ∧
          ∀ name x, (name, x) ∈ outputs ↔
            ∃ s, LastDeclared fields name s ∧ s.decoder (Value.lookup name entries) = .ok x) ∧
    (∀ fields', Reordered fields fields' → ∀ input,
      SameButForFault fields input ((record fields).decoder input) ((record fields').decoder input)) ∧
    ∀ fields', (Entries.ofList Text.order fields).Perm fields' → ∀ input,
      SameButForFault (Entries.ofList Text.order fields) input ((fieldTable fields).decoder input)
        ((record fields').decoder input) := by
  refine ⟨fun entries => ⟨(Declares.record _).succeeds_iff, fun y => dict_of_record⟩,
    fun fields' h input => h.sameButForFault input, fun fields' h input => ?_⟩
  rw [fieldTable_decoder]
  exact (reordered_of_sorted (Entries.sorted_ofList fields) h).sameButForFault input

end Records

/-- A name declared twice, and another one moved to the front. -/
theorem record_of_declarations_moved :
    let fields := [("a", tagged "first" .string), ("b", .null), ("a", .string)]
    let fields' := [("b", .null), ("a", tagged "first" .string), ("a", .string)]
    let input := some (Value.object [("a", .string "x"), ("b", .null)])
    let y := Output.dict [("a", .text "x"), ("b", .unit)]
    Reordered fields fields' ∧ (record fields).decoder input = .ok y ∧
      (record fields').decoder input = .ok y := by
  intro fields fields' input y
  have h : Reordered fields fields' := by
    refine ⟨.swap _ _ _, fun name => ?_⟩
    by_cases hb : "b" = name
    · subst hb
      rfl
    · have hbeq : ("b" == name) = false := by simpa using hb
      simp only [fields, fields', List.filter_cons, hbeq]
      rfl
  have hy : (record fields).decoder input = .ok y := rfl
  refine ⟨h, hy, ?_⟩
  rcases (record_of_declarations fields).2.1 fields' h input with heq | ⟨_, _, _, -, herror, -⟩
  · exact heq ▸ hy
  · cases hy.symm.trans herror

end TypedJson.Schema
