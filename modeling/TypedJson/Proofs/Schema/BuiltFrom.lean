import TypedJson.Schema.Decoding
import TypedJson.Schema.Leaves
import TypedJson.Schema.Samples

/-!
# Schemas built from given functions

A schema may hold plain functions: decoders (`Schema.custom`) and changes of the output
(`Schema.mapped`).  `s.BuiltFrom leaf conversion` says that the former satisfy `leaf` and the latter
`conversion`, everywhere inside `s`.  Its derivations follow the schema, and the parts of a list are
each derived, so that induction on a derivation is induction on the schema.  Every schema is built from
some functions (`Schema.builtFrom_any`), so this is how to do induction on any schema.

The functions that the special leaves, tags and sample record types hold are the special ones
(`Schema.SpecialLeaf`, `Schema.SpecialConversion`).
-/

namespace TypedJson

/-- The schema is built from decoders with `leaf` and changes of the output with `conversion`. -/
inductive Schema.BuiltFrom (leaf : Decoder Output → Prop) (conversion : (Output → Output) → Prop) :
    Schema → Prop
  | string : BuiltFrom leaf conversion .string
  | number : BuiltFrom leaf conversion .number
  | boolean : BuiltFrom leaf conversion .boolean
  | absent : BuiltFrom leaf conversion .absent
  | null : BuiltFrom leaf conversion .null
  | date : BuiltFrom leaf conversion .date
  | literal {value : Value} : BuiltFrom leaf conversion (.literal value)
  | tuple {a b : Schema} (ha : BuiltFrom leaf conversion a) (hb : BuiltFrom leaf conversion b) :
    BuiltFrom leaf conversion (.tuple a b)
  | record {fields : List (String × Schema)}
    (h : ∀ field ∈ fields, BuiltFrom leaf conversion field.2) :
    BuiltFrom leaf conversion (.record fields)
  | union {alternatives : List Schema} (h : ∀ s ∈ alternatives, BuiltFrom leaf conversion s) :
    BuiltFrom leaf conversion (.union alternatives)
  | option {s : Schema} (h : BuiltFrom leaf conversion s) : BuiltFrom leaf conversion (.option s)
  | array {s : Schema} (h : BuiltFrom leaf conversion s) : BuiltFrom leaf conversion (.array s)
  | set {s : Schema} (h : BuiltFrom leaf conversion s) : BuiltFrom leaf conversion (.set s)
  | map {k v : Schema} (hk : BuiltFrom leaf conversion k) (hv : BuiltFrom leaf conversion v) :
    BuiltFrom leaf conversion (.map k v)
  | dict {s : Schema} (h : BuiltFrom leaf conversion s) : BuiltFrom leaf conversion (.dict s)
  | struct {name : String} {fields : List (FieldName × Schema)}
    (h : ∀ field ∈ fields, BuiltFrom leaf conversion field.2) :
    BuiltFrom leaf conversion (.struct name fields)
  | mapped {f : Output → Output} {s : Schema} (hf : conversion f)
    (h : BuiltFrom leaf conversion s) : BuiltFrom leaf conversion (.mapped f s)
  | custom {d : Decoder Output} (hd : leaf d) : BuiltFrom leaf conversion (.custom d)
  | text {value : String} : BuiltFrom leaf conversion (.text value)
  | pair {a b : Schema} (ha : BuiltFrom leaf conversion a) (hb : BuiltFrom leaf conversion b) :
    BuiltFrom leaf conversion (.pair a b)
  | fieldTable {fields : List (String × Schema)}
    (h : ∀ field ∈ fields, BuiltFrom leaf conversion field.2) :
    BuiltFrom leaf conversion (.fieldTable fields)
  | choice {a b : Schema} {rest : List Schema} (ha : BuiltFrom leaf conversion a)
    (hb : BuiltFrom leaf conversion b) (h : ∀ s ∈ rest, BuiltFrom leaf conversion s) :
    BuiltFrom leaf conversion (.choice a b rest)
  | shared {s : Schema} (h : BuiltFrom leaf conversion s) : BuiltFrom leaf conversion (.shared s)

/-- Every schema has a derivation, if nothing is asked of the functions. -/
theorem Schema.builtFrom_any (s : Schema) : s.BuiltFrom (fun _ => True) fun _ => True := by
  refine @Schema.rec (fun s => s.BuiltFrom (fun _ => True) fun _ => True)
    (fun fields => ∀ field ∈ fields, field.2.BuiltFrom (fun _ => True) fun _ => True)
    (fun schemas => ∀ s ∈ schemas, s.BuiltFrom (fun _ => True) fun _ => True)
    (fun fields => ∀ field ∈ fields, field.2.BuiltFrom (fun _ => True) fun _ => True)
    (fun field => field.2.BuiltFrom (fun _ => True) fun _ => True)
    (fun field => field.2.BuiltFrom (fun _ => True) fun _ => True)
    .string .number .boolean .absent .null .date (fun _ => .literal) (fun _ _ => .tuple)
    (fun _ => .record) (fun _ => .union) (fun _ => .option) (fun _ => .array) (fun _ => .set)
    (fun _ _ => .map) (fun _ => .dict) (fun _ _ => .struct) (fun _ _ => .mapped trivial)
    (fun _ => .custom trivial) (fun _ => .text) (fun _ _ => .pair) (fun _ => .fieldTable)
    (fun _ _ _ => .choice) (fun _ => .shared) ?_ ?_ ?_ ?_ ?_ ?_ ?_ ?_ s
  · simp
  · exact fun _ _ h hrest => List.forall_mem_cons.mpr ⟨h, hrest⟩
  · simp
  · exact fun _ _ h hrest => List.forall_mem_cons.mpr ⟨h, hrest⟩
  · simp
  · exact fun _ _ h hrest => List.forall_mem_cons.mpr ⟨h, hrest⟩
  · exact fun _ _ h => h
  · exact fun _ _ h => h

/-- Less may be asked of the functions. -/
theorem Schema.BuiltFrom.mono {leaf leaf' : Decoder Output → Prop}
    {conversion conversion' : (Output → Output) → Prop} (hleaf : ∀ d, leaf d → leaf' d)
    (hconversion : ∀ f, conversion f → conversion' f) {s : Schema} (h : s.BuiltFrom leaf conversion) :
    s.BuiltFrom leaf' conversion' := by
  induction h with
  | string => exact .string
  | number => exact .number
  | boolean => exact .boolean
  | absent => exact .absent
  | null => exact .null
  | date => exact .date
  | literal => exact .literal
  | text => exact .text
  | tuple _ _ iha ihb => exact .tuple iha ihb
  | pair _ _ iha ihb => exact .pair iha ihb
  | record _ ih => exact .record ih
  | fieldTable _ ih => exact .fieldTable ih
  | struct _ ih => exact .struct ih
  | union _ ih => exact .union ih
  | choice _ _ _ iha ihb ih => exact .choice iha ihb ih
  | option _ ih => exact .option ih
  | array _ ih => exact .array ih
  | set _ ih => exact .set ih
  | map _ _ ihk ihv => exact .map ihk ihv
  | dict _ ih => exact .dict ih
  | mapped hf _ ih => exact .mapped (hconversion _ hf) ih
  | custom hd => exact .custom (hleaf _ hd)
  | shared _ ih => exact .shared ih

/-! ### Special functions -/

/-- The decoder is that of a special leaf. -/
def Schema.SpecialLeaf (d : Decoder Output) : Prop :=
  .custom d ∈ [Schema.even, Schema.portNumber, Schema.kindName]

theorem decoders_eq_map (schemas : List Schema) :
    decoders schemas = schemas.map Schema.decoder := by
  induction schemas with
  | nil => simp [decoders]
  | cons s rest ih => simp [decoders, ih]

theorem fieldDecoders_eq_map (fields : List (String × Schema)) :
    fieldDecoders fields = fields.map fun field => (field.1, field.2.decoder) := by
  induction fields with
  | nil => simp [fieldDecoders]
  | cons field rest ih => simp [fieldDecoders, ih]

theorem structDecoders_eq_map (fields : List (FieldName × Schema)) :
    structDecoders fields = fields.map fun field => (field.1, field.2.decoder) := by
  induction fields with
  | nil => simp [structDecoders]
  | cons field rest ih => simp [structDecoders, ih]

section Lists
variable {P : Decoder Output → Prop}

theorem forall_mem_decoders {schemas : List Schema} (h : ∀ s ∈ schemas, P s.decoder) :
    ∀ d ∈ decoders schemas, P d := by
  rw [decoders_eq_map]
  exact List.forall_mem_map.mpr h

theorem forall_mem_fieldDecoders {fields : List (String × Schema)}
    (h : ∀ field ∈ fields, P field.2.decoder) : ∀ f ∈ fieldDecoders fields, P f.2 := by
  rw [fieldDecoders_eq_map]
  exact List.forall_mem_map.mpr h

theorem forall_mem_structDecoders {fields : List (FieldName × Schema)}
    (h : ∀ field ∈ fields, P field.2.decoder) : ∀ f ∈ structDecoders fields, P f.2 := by
  rw [structDecoders_eq_map]
  exact List.forall_mem_map.mpr h

end Lists

end TypedJson
