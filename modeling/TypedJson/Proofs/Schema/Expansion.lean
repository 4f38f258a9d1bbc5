import TypedJson.Proofs.Entries
import TypedJson.Proofs.Schema.BuiltFrom
import TypedJson.Schema.Expansion

/-!
# Shorthands mean what they stand for

`s.expand` writes out every shorthand inside `s`.  No shorthand is left in it (`explicit_expand`), a
schema without shorthands stays as it is (`Explicit.expand_eq`), and the decoder is the same
(`expand_decoder`).

The decoder of a table of fields puts the decoders of the fields in the order of the names, the expansion
the fields themselves; the two agree because sorting entries does not look at their values
(`Entries.map_ofList`).
-/

namespace TypedJson

/-- **No shorthand stands anywhere in the schema.** -/
inductive Schema.Explicit : Schema → Prop
  | string : Explicit .string
  | number : Explicit .number
  | boolean : Explicit .boolean
  | absent : Explicit .absent
  | null : Explicit .null
  | date : Explicit .date
  | literal (value : Value) : Explicit (.literal value)
  | tuple {a b : Schema} (ha : Explicit a) (hb : Explicit b) : Explicit (.tuple a b)
  | record {fields : List (String × Schema)} (h : ∀ field ∈ fields, Explicit field.2) :
    Explicit (.record fields)
  | union {alternatives : List Schema} (h : ∀ s ∈ alternatives, Explicit s) :
    Explicit (.union alternatives)
  | option {s : Schema} (h : Explicit s) : Explicit (.option s)
  | array {s : Schema} (h : Explicit s) : Explicit (.array s)
  | set {s : Schema} (h : Explicit s) : Explicit (.set s)
  | map {k v : Schema} (hk : Explicit k) (hv : Explicit v) : Explicit (.map k v)
  | dict {s : Schema} (h : Explicit s) : Explicit (.dict s)
  | struct {name : String} {fields : List (FieldName × Schema)}
    (h : ∀ field ∈ fields, Explicit field.2) : Explicit (.struct name fields)
  | mapped (f : Output → Output) {s : Schema} (h : Explicit s) : Explicit (.mapped f s)
  | custom (d : Decoder Output) : Explicit (.custom d)

/-! ### Lists of schemas -/

theorem expandAll_eq_map (schemas : List Schema) : expandAll schemas = schemas.map Schema.expand := by
  induction schemas with
  | nil => simp only [expandAll, List.map_nil]
  | cons s rest ih => simp only [expandAll, List.map_cons, ih]

theorem expandFields_eq_map (fields : List (String × Schema)) :
    expandFields fields = fields.map fun field => (field.1, field.2.expand) := by
  induction fields with
  | nil => simp only [expandFields, List.map_nil]
  | cons field rest ih => simp only [expandFields, List.map_cons, ih]

theorem expandStruct_eq_map (fields : List (FieldName × Schema)) :
    expandStruct fields = fields.map fun field => (field.1, field.2.expand) := by
  induction fields with
  | nil => simp only [expandStruct, List.map_nil]
  | cons field rest ih => simp only [expandStruct, List.map_cons, ih]

namespace Schema

section Lists
variable {P : Schema → Prop}

theorem forall_mem_expandAll {schemas : List Schema} (h : ∀ s ∈ schemas, P s.expand) :
    ∀ s ∈ expandAll schemas, P s := by
  rw [expandAll_eq_map]
  exact List.forall_mem_map.mpr h

theorem forall_mem_expandFields {fields : List (String × Schema)}
    (h : ∀ field ∈ fields, P field.2.expand) : ∀ field ∈ expandFields fields, P field.2 := by
  rw [expandFields_eq_map]
  exact List.forall_mem_map.mpr h

theorem forall_mem_expandStruct {fields : List (FieldName × Schema)}
    (h : ∀ field ∈ fields, P field.2.expand) : ∀ field ∈ expandStruct fields, P field.2 := by
  rw [expandStruct_eq_map]
  exact List.forall_mem_map.mpr h

end Lists

theorem decoders_expandAll {schemas : List Schema}
    (h : ∀ s ∈ schemas, s.expand.decoder = s.decoder) :
    decoders (expandAll schemas) = decoders schemas := by
  rw [expandAll_eq_map, decoders_eq_map, decoders_eq_map, List.map_map]
  exact List.map_congr_left h

theorem fieldDecoders_expandFields {fields : List (String × Schema)}
    (h : ∀ field ∈ fields, field.2.expand.decoder = field.2.decoder) :
    fieldDecoders (expandFields fields) = fieldDecoders fields := by
  rw [expandFields_eq_map, fieldDecoders_eq_map, fieldDecoders_eq_map, List.map_map]
  exact List.map_congr_left fun field hf => congrArg (Prod.mk field.1) (h field hf)

theorem structDecoders_expandStruct {fields : List (FieldName × Schema)}
    (h : ∀ field ∈ fields, field.2.expand.decoder = field.2.decoder) :
    structDecoders (expandStruct fields) = structDecoders fields := by
  rw [expandStruct_eq_map, structDecoders_eq_map, structDecoders_eq_map, List.map_map]
  exact List.map_congr_left fun field hf => congrArg (Prod.mk field.1) (h field hf)

/-- Fields in the order of their names have their decoders in this order. -/
theorem fieldDecoders_ofList (fields : List (String × Schema)) :
    fieldDecoders (Entries.ofList Text.order fields) =
      Entries.ofList Text.order (fieldDecoders fields) := by
  rw [fieldDecoders_eq_map, fieldDecoders_eq_map, Entries.map_ofList]

/-! ### The expansion -/

/-- **The expansion holds no shorthand.** -/
theorem explicit_expand (s : Schema) : s.expand.Explicit := by
  have h := s.builtFrom_any
  induction h with
  | string => exact .string
  | number => exact .number
  | boolean => exact .boolean
  | absent => exact .absent
  | null => exact .null
  | date => exact .date
  | literal => exact .literal _
  | text => exact .literal _
  | tuple _ _ iha ihb => exact .tuple iha ihb
  | pair _ _ iha ihb => exact .tuple iha ihb
  | record _ ih => exact .record (forall_mem_expandFields ih)
  | fieldTable _ ih => exact .record (Entries.forall_mem_ofList (forall_mem_expandFields ih))
  | struct _ ih => exact .struct (forall_mem_expandStruct ih)
  | union _ ih => exact .union (forall_mem_expandAll ih)
  | choice _ _ _ iha ihb ih =>
    have hrest := List.forall_mem_cons.mpr ⟨ihb, forall_mem_expandAll ih⟩
    exact .union (List.forall_mem_cons.mpr ⟨iha, hrest⟩)
  | option _ ih => exact .option ih
  | array _ ih => exact .array ih
  | set _ ih => exact .set ih
  | map _ _ ihk ihv => exact .map ihk ihv
  | dict _ ih => exact .dict ih
  | mapped _ _ ih => exact .mapped _ ih
  | custom _ => exact .custom _
  | shared _ ih => exact ih

/-- A schema without shorthands is its own expansion. -/
theorem Explicit.expand_eq {s : Schema} (h : s.Explicit) : s.expand = s := by
  have hmap : ∀ {κ : Type} {fields : List (κ × Schema)},
      (∀ field ∈ fields, field.2.expand = field.2) →
        fields.map (fun field => (field.1, field.2.expand)) = fields := by
    intro κ fields h
    have hfields : ∀ field ∈ fields, (field.1, field.2.expand) = field := fun field hf =>
      congrArg (Prod.mk field.1) (h field hf)
    exact (List.map_congr_left hfields).trans (List.map_id fields)
  induction h with
  | tuple _ _ iha ihb => rw [expand, iha, ihb]
  | map _ _ ihk ihv => rw [expand, ihk, ihv]
  | record _ ih => rw [expand, expandFields_eq_map, hmap ih]
  | struct _ ih => rw [expand, expandStruct_eq_map, hmap ih]
  | @union alternatives _ ih =>
    have hmap : alternatives.map expand = alternatives :=
      (List.map_congr_left ih).trans (List.map_id alternatives)
    rw [expand, expandAll_eq_map, hmap]
  | option _ ih => rw [expand, ih]
  | array _ ih => rw [expand, ih]
  | set _ ih => rw [expand, ih]
  | dict _ ih => rw [expand, ih]
  | mapped _ _ ih => rw [expand, ih]
  | _ => rfl

/-- **A shorthand has the decoder of what it stands for.** -/
theorem expand_decoder (s : Schema) : s.expand.decoder = s.decoder := by
  have h := s.builtFrom_any
  induction h with
  | text => rfl
  | tuple _ _ iha ihb => simp only [expand, Schema.decoder, iha, ihb]
  | pair _ _ iha ihb => simp only [expand, Schema.decoder, iha, ihb]
  | map _ _ ihk ihv => simp only [expand, Schema.decoder, ihk, ihv]
  | record _ ih => simp only [expand, Schema.decoder, fieldDecoders_expandFields ih]
  | fieldTable _ ih =>
    simp only [expand, Schema.decoder, fieldDecoders_ofList, fieldDecoders_expandFields ih]
  | struct _ ih => simp only [expand, Schema.decoder, structDecoders_expandStruct ih]
  | union _ ih => simp only [expand, Schema.decoder, decoders_expandAll ih]
  | choice _ _ _ iha ihb ih =>
    simp only [expand, Schema.decoder, decoders, iha, ihb, decoders_expandAll ih]
  | option _ ih => simp only [expand, Schema.decoder, ih]
  | array _ ih => simp only [expand, Schema.decoder, ih]
  | set _ ih => simp only [expand, Schema.decoder, ih]
  | dict _ ih => simp only [expand, Schema.decoder, ih]
  | mapped _ _ ih => simp only [expand, Schema.decoder, ih]
  | shared _ ih => simp only [expand, Schema.decoder, ih]
  | _ => rfl

/-- **Shorthands mean the same as the combinators written out, at any depth.**  Every schema has an
expansion without shorthands, and the two decode every input, present or absent, to the same output or
the same failure. -/
theorem decoder_expand (s : Schema) :
    s.expand.Explicit ∧ ∀ input, s.expand.decoder input = s.decoder input :=
  ⟨explicit_expand s, fun input => congrFun (expand_decoder s) input⟩

/-- The fields of a table are decoded in the order of their names, so that of two missing ones the first
by name is reported. -/
example :
    (expand (.fieldTable [("zone", .text "b"), ("host", .pair .string .number)])).decoder
        (some (.object [])) =
      .error ⟨[.field "host"], .missingField "host"⟩ := by
  rfl

end Schema

end TypedJson
