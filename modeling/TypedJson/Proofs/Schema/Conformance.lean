import TypedJson.Proofs.Decoder.Successes
import TypedJson.Proofs.Output.Order
import TypedJson.Proofs.Schema.BuiltFrom

/-!
# Outputs conform to their schema

A schema determines the form of its outputs, and the input determines the rest: `s.Conforms input x`
says by recursion on the schema what `x` must be.  Every output of a decoder conforms
(`conforms_of_decoder`).  The proof takes one container at a time from the characterisations of
success; of a record it needs that the entries are those of the last declarations
(`Decoder.record_outputs`).
-/

namespace TypedJson

/-- A double is at most as great as the largest one. -/
theorem Binary64.magnitude_le_largest (x : Binary64) :
    x.magnitude ≤ (largest false).magnitude := by
  have hpow : ∀ {m n : Nat}, m ≤ n → Nat.pow 2 m ≤ Nat.pow 2 n := Nat.pow_le_pow_right (by decide)
  have hmantissa : x.mantissa ≤ Nat.pow 2 53 - 1 := Nat.le_sub_one_of_lt x.mantissa_lt
  exact Nat.mul_le_mul hmantissa (hpow x.exponent_le)

/-! ### Conformance -/

/-- An array of two values, with a pair of outputs that conform by position. -/
def PairConforms (first second : Option Value → Output → Prop) (input : Option Value) (x : Output) :
    Prop :=
  ∃ v w y z, input = some (.array [v, w]) ∧ x = .pair y z ∧ first (some v) y ∧ second (some w) z

/-- An object, with a dictionary under exactly the given names in increasing order, each output
conforming to what is found under its name. -/
def DictConforms (names : List String) (conforms : String → Option Value → Output → Prop)
    (input : Option Value) (x : Output) : Prop :=
  ∃ entries outputs, input = some (.object entries) ∧ x = .dict outputs ∧
    Entries.Sorted Text.order outputs ∧
    (∀ name, name ∈ outputs.map Prod.fst ↔ name ∈ names) ∧
    ∀ output ∈ outputs, conforms output.1 (Value.lookup output.1 entries) output.2

mutual

/-- **The output has the form of the schema's outputs, and holds what the input holds.** -/
def Schema.Conforms : Schema → Option Value → Output → Prop
  | .string, input, x => ∃ text, input = some (.string text) ∧ x = .text text
  | .number, input, x =>
    ∃ n, input = some (.number n) ∧ x = .float n.toBinary64 ∧
      n.toBinary64.magnitude ≤ (Binary64.largest false).magnitude
  | .boolean, input, x => ∃ b, input = some (.bool b) ∧ x = .bool b
  | .absent, input, x => input = none ∧ x = .unit
  | .null, input, x => input = some .null ∧ x = .unit
  | .date, input, x => ∃ instant, Decoder.date input = .ok instant ∧ x = .date instant
  | .literal value, _, x => x = .ofLiteral value
  | .text text, _, x => x = .text text
  | .tuple s t, input, x | .pair s t, input, x => PairConforms s.Conforms t.Conforms input x
  | .record fields, input, x | .fieldTable fields, input, x =>
    DictConforms (fields.map Prod.fst) (lastConforms fields) input x
  | .struct name fields, input, x =>
    ∃ entries outputs, input = some (.object entries) ∧ x = .record name outputs ∧
      structConforms fields entries outputs
  | .option s, input, x =>
    (input = none ∧ x = .none) ∨ ∃ v y, input = some v ∧ x = .some y ∧ s.Conforms (some v) y
  | .union alternatives, input, x => someConforms alternatives input x
  | .choice s t rest, input, x => s.Conforms input x ∨ t.Conforms input x ∨ someConforms rest input x
  | .array s, input, x =>
    ∃ items outputs, input = some (.array items) ∧ x = .list outputs ∧
      List.Forall₂ (fun v y => s.decoder.Decodes v y ∧ s.Conforms (some v) y) items outputs
  | .set s, input, x =>
    ∃ items outputs, input = some (.array items) ∧ x = .list outputs ∧
      List.Forall₂ (fun v y => s.decoder.Decodes v y ∧ s.Conforms (some v) y) items outputs ∧
      Decoder.Distinct Output.eqv outputs
  | .dict s, input, x =>
    ∃ entries outputs, input = some (.object entries) ∧ x = .dict outputs ∧
      Entries.Related Eq (fun v y => s.decoder.Decodes v y ∧ s.Conforms (some v) y) entries outputs
  | .map key value, input, x =>
    ∃ items entries, input = some (.array items) ∧ x = .map entries ∧
      Entries.Sorted Output.order entries ∧ entries.length = items.length ∧
      ∃ pairs, entries.Perm pairs ∧
        List.Forall₂ (fun v p => PairConforms key.Conforms value.Conforms (some v) (.pair p.1 p.2))
          items pairs
  | .mapped f s, input, x => ∃ y, s.Conforms input y ∧ x = f y
  | .custom d, input, x => d input = .ok x
  | .shared s, input, x => s.Conforms input x

/-- The output conforms to the last of the fields that are declared under the name. -/
def lastConforms : List (String × Schema) → String → Option Value → Output → Prop
  | [], _, _, _ => False
  | (declared, s) :: rest, name, input, x =>
    lastConforms rest name input x ∨
      (declared = name ∧ name ∉ rest.map Prod.fst ∧ s.Conforms input x)

/-- Every field is there once, in the order of declaration, and conforms. -/
def structConforms :
    List (FieldName × Schema) → List (String × Value) → List (String × Output) → Prop
  | [], _, outputs => outputs = []
  | (name, s) :: rest, entries, outputs =>
    ∃ y more, outputs = (name.ident, y) :: more ∧
      s.Conforms (Value.lookup name.key entries) y ∧ structConforms rest entries more

/-- The output conforms to one of the schemas. -/
def someConforms : List Schema → Option Value → Output → Prop
  | [], _, _ => False
  | s :: rest, input, x => s.Conforms input x ∨ someConforms rest input x

end

/-! ### The fields of a record -/

/-- **The outputs of a record are those of the last declarations**, by increasing name. -/
theorem Decoder.record_outputs {α : Type} {fields : List (String × Decoder α)} {input : Option Value}
    {outputs : List (String × α)} (h : record fields input = .ok outputs) :
    ∃ entries, input = some (.object entries) ∧ Entries.Sorted Text.order outputs ∧
      (∀ name, name ∈ outputs.map Prod.fst ↔ name ∈ fields.map Prod.fst) ∧
      ∀ output ∈ outputs, ∃ d, Entries.find? Text.order output.1 fields.reverse = some d ∧
        d (Value.lookup output.1 entries) = .ok output.2 := by
  obtain ⟨entries, rfl, named, hnamed, rfl⟩ := record_eq_ok_iff.mp h
  have hsorted : Entries.Sorted Text.order (Entries.ofList Text.order named) :=
    Entries.sorted_ofList named
  have hnames : named.map Prod.fst = fields.map Prod.fst := by
    refine (List.forall₂_eq_eq_eq ▸ ?_ : fields.map Prod.fst = named.map Prod.fst).symm
    rw [List.forall₂_map_left_iff, List.forall₂_map_right_iff]
    exact hnamed.imp fun _ _ he => he.1
  refine ⟨entries, rfl, hsorted, fun name => ?_, fun output ho => ?_⟩
  · rw [Entries.mem_keys_ofList, hnames]
  · have hfind := Entries.find?_of_mem hsorted ho
    rw [Entries.find?_ofList] at hfind
    exact Entries.exists_find?_of_forall₂
      (P := fun name (d : Decoder α) x => d (Value.lookup name entries) = .ok x)
      (List.forall₂_reverse_iff.mpr hnamed) hfind

namespace Schema

theorem lastConforms_of_find? {fields : List (String × Schema)} {name : String} {s : Schema}
    (h : Entries.find? Text.order name fields.reverse = some s) {input : Option Value} {x : Output}
    (hx : s.Conforms input x) : lastConforms fields name input x := by
  induction fields with
  | nil => cases h
  | cons field rest ih =>
    rw [List.reverse_cons, Entries.find?_append] at h
    rw [lastConforms]
    cases hrest : Entries.find? Text.order name rest.reverse with
    | some t =>
      rw [hrest] at h
      exact Or.inl (ih (hrest.trans h))
    | none =>
      have hnew : name ∉ rest.map Prod.fst := by
        intro hmem
        rw [← List.mem_reverse, ← List.map_reverse] at hmem
        have hfound : (Entries.find? Text.order name rest.reverse).isSome :=
          Entries.mem_keys_iff.mp hmem
        rw [hrest] at hfound
        cases hfound
      rw [hrest, Option.none_or, Entries.find?] at h
      split at h
      · next hk =>
        obtain rfl := Option.some.inj h
        exact Or.inr ⟨(Text.order_eq_iff.mp hk).symm, hnew, hx⟩
      · cases h

/-! ### Soundness -/

theorem someConforms_of_mem {alternatives : List Schema} {s : Schema} (hs : s ∈ alternatives)
    {input : Option Value} {x : Output} (hx : s.Conforms input x) :
    someConforms alternatives input x := by
  induction hs with
  | head => exact Or.inl hx
  | tail _ _ ih => exact Or.inr ih

theorem structConforms_of_forall₂ {fields : List (FieldName × Schema)}
    {entries : List (String × Value)} {outputs : List (String × Output)}
    (hfields : ∀ field ∈ fields, ∀ {input x}, field.2.decoder input = .ok x →
      field.2.Conforms input x)
    (h : List.Forall₂
      (fun f e => f.1.ident = e.1 ∧ f.2.decoder (Value.lookup f.1.key entries) = .ok e.2)
      fields outputs) :
    structConforms fields entries outputs := by
  induction h with
  | nil => rfl
  | cons he _ ih =>
    obtain ⟨hfirst, hrest⟩ := List.forall_mem_cons.mp hfields
    exact ⟨_, _, by rw [he.1], hfirst he.2, ih hrest⟩

/-- Pairs of conforming parts, from a tuple that decodes to them. -/
theorem pairConforms_of_tuple {s t : Schema} {input : Option Value} {p : Output × Output}
    (hs : ∀ {input x}, s.decoder input = .ok x → s.Conforms input x)
    (ht : ∀ {input x}, t.decoder input = .ok x → t.Conforms input x)
    (h : Decoder.tuple s.decoder t.decoder input = .ok p) :
    PairConforms s.Conforms t.Conforms input (.pair p.1 p.2) := by
  obtain ⟨v, w, hinput, hv, hw⟩ := Decoder.tuple_eq_ok_iff.mp h
  exact ⟨v, w, p.1, p.2, hinput, rfl, hs hv, ht hw⟩

/-- The dictionary of a record, where `declared` are the fields that it reads, and each of them is the
last one in `fields` under its name. -/
theorem dictConforms_of_record {fields declared : List (String × Schema)} {input : Option Value}
    {outputs : List (String × Output)}
    (hnames : ∀ name, name ∈ declared.map Prod.fst ↔ name ∈ fields.map Prod.fst)
    (hlast : ∀ name s, Entries.find? Text.order name declared.reverse = some s →
      Entries.find? Text.order name fields.reverse = some s)
    (hfields : ∀ field ∈ fields, ∀ {input x}, field.2.decoder input = .ok x →
      field.2.Conforms input x)
    (h : Decoder.record (declared.map fun field => (field.1, field.2.decoder)) input = .ok outputs) :
    DictConforms (fields.map Prod.fst) (lastConforms fields) input (.dict outputs) := by
  obtain ⟨entries, hinput, hsorted, hkeys, hdecoded⟩ := Decoder.record_outputs h
  refine ⟨entries, outputs, hinput, rfl, hsorted, fun name => ?_, fun output ho => ?_⟩
  · rw [hkeys, ← hnames, List.map_map]
    rfl
  · obtain ⟨d, hfind, hd⟩ := hdecoded output ho
    rw [← List.map_reverse, Entries.find?_map, Option.map_eq_some_iff] at hfind
    obtain ⟨s, hs, rfl⟩ := hfind
    have hs' := hlast output.1 s hs
    obtain ⟨declaredName, hmem, -⟩ := Entries.mem_of_find? hs'
    exact lastConforms_of_find? hs' (hfields _ (List.mem_reverse.mp hmem) hd)

/-- **Outputs conform to their schema.** -/
theorem conforms_of_decoder {s : Schema} {input : Option Value} {x : Output}
    (h : s.decoder input = .ok x) : s.Conforms input x := by
  induction s.builtFrom_any generalizing input x with
  | string =>
    obtain ⟨text, hinput, rfl⟩ := Decoder.map_eq_ok_iff.mp h
    exact ⟨text, Decoder.string_eq_ok_iff.mp hinput, rfl⟩
  | number =>
    obtain ⟨_, hinput, rfl⟩ := Decoder.map_eq_ok_iff.mp h
    obtain ⟨n, hn, rfl⟩ := Decoder.number_eq_ok_iff.mp hinput
    exact ⟨n, hn, rfl, n.toBinary64.magnitude_le_largest⟩
  | boolean =>
    obtain ⟨b, hinput, rfl⟩ := Decoder.map_eq_ok_iff.mp h
    exact ⟨b, Decoder.boolean_eq_ok_iff.mp hinput, rfl⟩
  | absent =>
    obtain ⟨_, hinput, rfl⟩ := Decoder.map_eq_ok_iff.mp h
    exact ⟨Decoder.absent_eq_ok_iff.mp hinput, rfl⟩
  | null =>
    obtain ⟨_, hinput, rfl⟩ := Decoder.map_eq_ok_iff.mp h
    exact ⟨Decoder.null_eq_ok_iff.mp hinput, rfl⟩
  | date =>
    obtain ⟨instant, hinput, rfl⟩ := Decoder.map_eq_ok_iff.mp h
    exact ⟨instant, hinput, rfl⟩
  | literal => exact Decoder.eq_of_literal h
  | text => exact Decoder.eq_of_literal h
  | tuple _ _ iha ihb | pair _ _ iha ihb =>
    obtain ⟨p, hp, rfl⟩ := Decoder.map_eq_ok_iff.mp h
    exact pairConforms_of_tuple iha ihb hp
  | record _ ih =>
    obtain ⟨outputs, houtputs, rfl⟩ := Decoder.map_eq_ok_iff.mp h
    rw [fieldDecoders_eq_map] at houtputs
    exact dictConforms_of_record (fun _ => Iff.rfl) (fun _ _ => id) ih houtputs
  | @fieldTable fields _ ih =>
    obtain ⟨outputs, houtputs, rfl⟩ := Decoder.map_eq_ok_iff.mp h
    rw [fieldDecoders_eq_map, ← Entries.map_ofList] at houtputs
    refine dictConforms_of_record (fun _ => Entries.mem_keys_ofList) (fun name s hs => ?_) ih houtputs
    rw [← Entries.find?_ofList]
    exact (Entries.sorted_ofList fields).find?_of_reverse hs
  | struct _ ih =>
    obtain ⟨outputs, houtputs, rfl⟩ := Decoder.map_eq_ok_iff.mp h
    obtain ⟨entries, hinput, hdecodes⟩ := Decoder.struct_eq_ok_iff.mp houtputs
    rw [structDecoders_eq_map, List.forall₂_map_left_iff] at hdecodes
    exact ⟨entries, outputs, hinput, rfl, structConforms_of_forall₂ ih hdecodes⟩
  | option _ ih =>
    obtain ⟨y, hy, rfl⟩ := Decoder.map_eq_ok_iff.mp h
    rcases Decoder.option_eq_ok_iff.mp hy with ⟨hinput, rfl⟩ | ⟨v, z, hinput, hz, rfl⟩
    · exact Or.inl ⟨hinput, rfl⟩
    · exact Or.inr ⟨v, z, hinput, rfl, ih hz⟩
  | union _ ih =>
    obtain ⟨d, hmem, hd⟩ := Decoder.exists_mem_of_union h
    rw [decoders_eq_map] at hmem
    obtain ⟨s, hs, rfl⟩ := List.mem_map.mp hmem
    exact someConforms_of_mem hs (ih s hs hd)
  | choice _ _ _ iha ihb ih =>
    obtain ⟨d, hmem, hd⟩ := Decoder.exists_mem_of_union h
    rw [decoders_eq_map] at hmem
    rcases List.mem_cons.mp hmem with rfl | hmem
    · exact Or.inl (iha hd)
    · rcases List.mem_cons.mp hmem with rfl | hmem
      · exact Or.inr (Or.inl (ihb hd))
      · obtain ⟨s, hs, rfl⟩ := List.mem_map.mp hmem
        exact Or.inr (Or.inr (someConforms_of_mem hs (ih s hs hd)))
  | array _ ih =>
    obtain ⟨outputs, houtputs, rfl⟩ := Decoder.map_eq_ok_iff.mp h
    obtain ⟨items, hinput, hdecodes⟩ := Decoder.array_eq_ok_iff.mp houtputs
    exact ⟨items, outputs, hinput, rfl, hdecodes.imp fun _ _ hv => ⟨hv, ih hv⟩⟩
  | set _ ih =>
    obtain ⟨outputs, houtputs, rfl⟩ := Decoder.map_eq_ok_iff.mp h
    obtain ⟨items, hinput, hdecodes, hdistinct⟩ := Decoder.set_eq_ok_iff.mp houtputs
    exact ⟨items, outputs, hinput, rfl, hdecodes.imp fun _ _ hv => ⟨hv, ih hv⟩, hdistinct⟩
  | dict _ ih =>
    obtain ⟨outputs, houtputs, rfl⟩ := Decoder.map_eq_ok_iff.mp h
    obtain ⟨entries, hinput, hdecodes⟩ := Decoder.dict_eq_ok_iff.mp houtputs
    exact ⟨entries, outputs, hinput, rfl, hdecodes.imp fun _ _ he => ⟨he.1, he.2, ih he.2⟩⟩
  | map _ _ ihk ihv =>
    obtain ⟨entries, hentries, rfl⟩ := Decoder.map_eq_ok_iff.mp h
    obtain ⟨items, hinput, pairs, hpairs, hapart, rfl⟩ := Decoder.mapping_eq_ok_iff.mp hentries
    have hperm := Entries.perm_ofList hapart
    have hlength := hperm.length_eq.trans hpairs.length_eq.symm
    exact ⟨items, _, hinput, rfl, Entries.sorted_ofList pairs, hlength, pairs, hperm,
      hpairs.imp fun _ _ hp => pairConforms_of_tuple ihk ihv hp⟩
  | mapped _ _ ih =>
    obtain ⟨y, hy, rfl⟩ := Decoder.map_eq_ok_iff.mp h
    exact ⟨y, ih hy, rfl⟩
  | custom => exact h
  | shared _ ih => exact ih h

/-- A name declared twice gives one entry, that of the later declaration, and entries stand by name, not
in the order of declaration. -/
theorem conforms_of_decoder_declared_twice :
    let s := Schema.record
      [("b", .string), ("a", .option .number), ("b", .tagged "later" (.union [.text "y", .string]))]
    let input := some (Value.object [("b", .string "x"), ("c", .null)])
    let x := Output.dict [("a", .none), ("b", .tag "later" (.text "x"))]
    s.decoder input = .ok x ∧ s.Conforms input x := by
  intro s input x
  have h : s.decoder input = .ok x := rfl
  exact ⟨h, conforms_of_decoder h⟩

end Schema

end TypedJson
