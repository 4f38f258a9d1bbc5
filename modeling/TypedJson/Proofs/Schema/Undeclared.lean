import TypedJson.Proofs.Decoder.Agreement
import TypedJson.Proofs.Schema.BuiltFrom

/-!
# What is not declared has no influence

Two inputs *agree under* a schema (`Schema.AgreeUnder`) if they only differ where the schema does not
look: in entries of an object that a record does not declare, at any depth.  Agreement relates parts to
parts, and what it says of parts that may be missing is a parameter.

* If both parts must be there or neither (`Together`), inputs that agree are decoded to one result, the
  same output or the same failure (`AgreeUnder.decoder_eq`).
* If nothing is said, this is false, but only for want of alternatives: under a union that has none any
  two inputs agree, also an absent and a present one, which an option or a field around it tells apart
  (`option_tells_absence`).  Under every other schema agreement already says it (`AgreeUnder.barren`).
-/

namespace TypedJson

/-- Both inputs are there, or neither is. -/
def Together (a b : Option Value) : Prop := a.isSome = b.isSome

namespace Schema

variable {beside : Option Value → Option Value → Prop}

/-- **The two inputs only differ where the schema does not look.**  Under an option, and for the entries
of a declared field, they must also be related by `beside`. -/
inductive AgreeUnder (beside : Option Value → Option Value → Prop) :
    Schema → Option Value → Option Value → Prop
  | same (s : Schema) (a : Option Value) : AgreeUnder beside s a a
  | tuple {s t : Schema} {v v' w w' : Value} (hv : AgreeUnder beside s (some v) (some v'))
    (hw : AgreeUnder beside t (some w) (some w')) :
    AgreeUnder beside (.tuple s t) (some (.array [v, w])) (some (.array [v', w']))
  | pair {s t : Schema} {v v' w w' : Value} (hv : AgreeUnder beside s (some v) (some v'))
    (hw : AgreeUnder beside t (some w) (some w')) :
    AgreeUnder beside (.pair s t) (some (.array [v, w])) (some (.array [v', w']))
  | record {fields : List (String × Schema)} {es es' : List (String × Value)}
    (h : ∀ field ∈ fields,
      AgreeUnder beside field.2 (Value.lookup field.1 es) (Value.lookup field.1 es'))
    (hb : ∀ field ∈ fields, beside (Value.lookup field.1 es) (Value.lookup field.1 es')) :
    AgreeUnder beside (.record fields) (some (.object es)) (some (.object es'))
  | fieldTable {fields : List (String × Schema)} {es es' : List (String × Value)}
    (h : ∀ field ∈ Entries.ofList Text.order fields,
      AgreeUnder beside field.2 (Value.lookup field.1 es) (Value.lookup field.1 es'))
    (hb : ∀ field ∈ Entries.ofList Text.order fields,
      beside (Value.lookup field.1 es) (Value.lookup field.1 es')) :
    AgreeUnder beside (.fieldTable fields) (some (.object es)) (some (.object es'))
  | struct {name : String} {fields : List (FieldName × Schema)} {es es' : List (String × Value)}
    (h : ∀ field ∈ fields,
      AgreeUnder beside field.2 (Value.lookup field.1.key es) (Value.lookup field.1.key es'))
    (hb : ∀ field ∈ fields, beside (Value.lookup field.1.key es) (Value.lookup field.1.key es')) :
    AgreeUnder beside (.struct name fields) (some (.object es)) (some (.object es'))
  /-- Objects with the same names; an entry here is a name with the two values under it. -/
  | dict {s : Schema} (entries : List (String × Value × Value))
    (h : ∀ entry ∈ entries, AgreeUnder beside s (some entry.2.1) (some entry.2.2)) :
    AgreeUnder beside (.dict s) (some (.object (entries.map fun entry => (entry.1, entry.2.1))))
      (some (.object (entries.map fun entry => (entry.1, entry.2.2))))
  /-- Arrays of the same length; an item here is the two elements at one index. -/
  | array {s : Schema} (items : List (Value × Value))
    (h : ∀ item ∈ items, AgreeUnder beside s (some item.1) (some item.2)) :
    AgreeUnder beside (.array s) (some (.array (items.map Prod.fst)))
      (some (.array (items.map Prod.snd)))
  | set {s : Schema} (items : List (Value × Value))
    (h : ∀ item ∈ items, AgreeUnder beside s (some item.1) (some item.2)) :
    AgreeUnder beside (.set s) (some (.array (items.map Prod.fst)))
      (some (.array (items.map Prod.snd)))
  | map {k v : Schema} (items : List (Value × Value))
    (h : ∀ item ∈ items, AgreeUnder beside (.tuple k v) (some item.1) (some item.2)) :
    AgreeUnder beside (.map k v) (some (.array (items.map Prod.fst)))
      (some (.array (items.map Prod.snd)))
  | option {s : Schema} {a b : Option Value} (h : AgreeUnder beside s a b) (hb : beside a b) :
    AgreeUnder beside (.option s) a b
  | mapped {f : Output → Output} {s : Schema} {a b : Option Value} (h : AgreeUnder beside s a b) :
    AgreeUnder beside (.mapped f s) a b
  | shared {s : Schema} {a b : Option Value} (h : AgreeUnder beside s a b) :
    AgreeUnder beside (.shared s) a b
  | union {alternatives : List Schema} {a b : Option Value}
    (h : ∀ s ∈ alternatives, AgreeUnder beside s a b) : AgreeUnder beside (.union alternatives) a b
  | choice {s t : Schema} {rest : List Schema} {a b : Option Value} (hs : AgreeUnder beside s a b)
    (ht : AgreeUnder beside t a b) (h : ∀ r ∈ rest, AgreeUnder beside r a b) :
    AgreeUnder beside (.choice s t rest) a b

/-! ### Absence -/

/-- The schema offers no alternative at all. -/
inductive Barren : Schema → Prop
  | union {alternatives : List Schema} (h : ∀ s ∈ alternatives, Barren s) : Barren (.union alternatives)
  | choice {s t : Schema} {rest : List Schema} (hs : Barren s) (ht : Barren t)
    (h : ∀ r ∈ rest, Barren r) : Barren (.choice s t rest)
  | option {s : Schema} (h : Barren s) : Barren (.option s)
  | mapped {f : Output → Output} {s : Schema} (h : Barren s) : Barren (.mapped f s)
  | shared {s : Schema} (h : Barren s) : Barren (.shared s)

/-- An absent and a present input agree under barren schemas only. -/
theorem AgreeUnder.barren {s : Schema} {a b : Option Value} (h : s.AgreeUnder beside a b)
    (hab : ¬ Together a b) : s.Barren := by
  induction h with
  | same => exact absurd rfl hab
  | option _ _ ih => exact .option (ih hab)
  | mapped _ ih => exact .mapped (ih hab)
  | shared _ ih => exact .shared (ih hab)
  | union _ ih => exact .union fun s hs => ih s hs hab
  | choice _ _ _ ihs iht ih => exact .choice (ihs hab) (iht hab) fun r hr => ih r hr hab
  | _ => exact absurd rfl hab

/-- **An option tells absence from a value, even where its schema could not.** -/
theorem option_tells_absence :
    let s := Schema.option (.union [])
    s.AgreeUnder (fun _ _ => True) none (some .null) ∧ s.decoder none = .ok .none ∧
      s.decoder (some .null) = .error (.ofCause (.unionExhausted [])) :=
  ⟨.option (.union fun _ h => nomatch h) trivial, rfl, rfl⟩

end Schema

/-! ### Equal parts make equal results -/

namespace Decoder

variable {α β κ : Type} {d : Decoder α}

theorem map_congr {f : α → β} {a b : Option Value} (h : d a = d b) : d.map f a = d.map f b := by
  rw [map, map, h]

theorem eq_of_map_eq {f : α → β} (hf : Function.Injective f) {a b : Option Value}
    (h : d.map f a = d.map f b) : d a = d b := by
  cases ha : d a <;> cases hb : d b <;> simp_all [map, hf.eq_iff]

theorem tuple_congr {first : Decoder κ} {v v' w w' : Value} (hv : first (some v) = first (some v'))
    (hw : d (some w) = d (some w')) :
    tuple first d (some (.array [v, w])) = tuple first d (some (.array [v', w'])) := by
  rw [tuple, tuple, hv, hw]

section Items
variable {items : List (Value × Value)} (h : ∀ item ∈ items, d (some item.1) = d (some item.2))
include h

theorem agreeOn_items :
    List.Forall₂ (AgreeOn Eq Eq d) (items.map Prod.fst) (items.map Prod.snd) := by
  rw [List.forall₂_map_left_iff, List.forall₂_map_right_iff, List.forall₂_same]
  exact fun item hitem => .of_eq (h item hitem)

theorem array_congr :
    array d (some (.array (items.map Prod.fst))) = array d (some (.array (items.map Prod.snd))) := by
  have hrun := agree_arrayFrom Failure.congruence_eq (agreeOn_items h) 0
  rw [List.forall₂_eq_eq_eq] at hrun
  exact hrun.eq

theorem set_congr (same : α → α → Bool) :
    set same d (some (.array (items.map Prod.fst))) =
      set same d (some (.array (items.map Prod.snd))) := by
  have hsame : ∀ x x' y y', x = x' → y = y' → same x y = same x' y' := by
    rintro x _ y _ rfl rfl
    rfl
  have hrun := agree_setFrom Failure.congruence_eq hsame (agreeOn_items h) .nil 0
  rw [List.forall₂_eq_eq_eq] at hrun
  exact hrun.eq

end Items

theorem mapping_congr (order : κ → κ → Ordering) {key : Decoder κ} {items : List (Value × Value)}
    (h : ∀ item ∈ items, tuple key d (some item.1) = tuple key d (some item.2)) :
    mapping order key d (some (.array (items.map Prod.fst))) =
      mapping order key d (some (.array (items.map Prod.snd))) := by
  have hitems : List.Forall₂ (AgreeOn Eq (Both Eq Eq) (tuple key d)) (items.map Prod.fst)
      (items.map Prod.snd) :=
    (agreeOn_items h).imp fun _ _ hp => hp.imp fun p q hpq => hpq ▸ ⟨rfl, rfl⟩
  have horder : Entries.Respects order Eq := Entries.respects_eq
  have hrun := agree_mapFrom Failure.congruence_eq horder hitems .nil 0
  have heq := (hrun.imp fun _ _ hs =>
    Entries.Related.eq (hs.imp fun _ _ he => ⟨he.1, Prod.ext he.2.1 he.2.2⟩)).eq
  exact congrArg (· >>= fun entries => .ok (entries.map fun e => (e.1, e.2.2))) heq

section Fields
variable {es es' : List (String × Value)}

theorem rel_of_together {a b : Option Value} (hb : Together a b) (h : d a = d b) :
    Option.Rel (AgreeOn Eq Eq d) a b := by
  cases a with
  | none =>
    cases b with
    | none => exact .none
    | some w => cases hb
  | some v =>
    cases b with
    | none => cases hb
    | some w => exact .some (.of_eq h)

theorem field_congr {name : String} (hb : Together (Value.lookup name es) (Value.lookup name es'))
    (h : d (Value.lookup name es) = d (Value.lookup name es')) :
    field es name d = field es' name d :=
  (agree_field Failure.congruence_eq Eq.refl (rel_of_together hb h)).eq

theorem record_congr {fields : List (String × Decoder α)}
    (h : ∀ f ∈ fields, field es f.1 f.2 = field es' f.1 f.2) :
    record fields (some (.object es)) = record fields (some (.object es')) :=
  ((agree_recordFrom (fun f hf => .of_eq (h f hf)) .nil).imp fun _ _ => Entries.Related.eq).eq

theorem struct_congr {fields : List (FieldName × Decoder α)}
    (h : ∀ f ∈ fields, field es f.1.key f.2 = field es' f.1.key f.2) :
    struct fields (some (.object es)) = struct fields (some (.object es')) :=
  ((agree_structFrom fun f hf => .of_eq (h f hf)).imp fun _ _ => Entries.Related.eq).eq

theorem dict_congr {entries : List (String × Value × Value)}
    (h : ∀ entry ∈ entries, d (some entry.2.1) = d (some entry.2.2)) :
    dict d (some (.object (entries.map fun entry => (entry.1, entry.2.1)))) =
      dict d (some (.object (entries.map fun entry => (entry.1, entry.2.2)))) := by
  have hentries : Entries.Related Eq (AgreeOn Eq Eq d)
      (entries.map fun entry => (entry.1, entry.2.1))
      (entries.map fun entry => (entry.1, entry.2.2)) := by
    rw [Entries.Related, List.forall₂_map_left_iff, List.forall₂_map_right_iff, List.forall₂_same]
    exact fun entry hentry => ⟨rfl, .of_eq (h entry hentry)⟩
  exact ((agree_dictFrom Failure.congruence_eq hentries).imp fun _ _ => Entries.Related.eq).eq

end Fields

theorem union_congr {alternatives : List (Decoder α)} {a b : Option Value}
    (h : ∀ d ∈ alternatives, d a = d b) : union alternatives a = union alternatives b :=
  (agree_union Failure.congruence_eq fun d hd => .of_eq (h d hd)).eq

theorem option_congr {a b : Option Value} (hb : Together a b) (h : d a = d b) :
    option d a = option d b :=
  ((agree_option (rel_of_together hb h)).imp fun _ _ hxy => by cases hxy <;> simp [*]).eq

end Decoder

namespace Schema

open Decoder

/-- **Undeclared input cannot influence the result.**  Inputs that agree under a schema are decoded to
the same output, or fail with the same failure. -/
theorem AgreeUnder.decoder_eq {s : Schema} {a b : Option Value} (h : s.AgreeUnder Together a b) :
    s.decoder a = s.decoder b := by
  induction h with
  | same => rfl
  | tuple _ _ ihv ihw => exact map_congr (tuple_congr ihv ihw)
  | pair _ _ ihv ihw => exact map_congr (tuple_congr ihv ihw)
  | record _ hb ih =>
    simp only [Schema.decoder, fieldDecoders_eq_map]
    exact map_congr (record_congr (List.forall_mem_map.mpr fun f hf => field_congr (hb f hf) (ih f hf)))
  | fieldTable _ hb ih =>
    simp only [Schema.decoder, fieldDecoders_eq_map, ← Entries.map_ofList]
    exact map_congr (record_congr (List.forall_mem_map.mpr fun f hf => field_congr (hb f hf) (ih f hf)))
  | struct _ hb ih =>
    simp only [Schema.decoder, structDecoders_eq_map]
    exact map_congr (struct_congr (List.forall_mem_map.mpr fun f hf => field_congr (hb f hf) (ih f hf)))
  | dict entries _ ih => exact map_congr (dict_congr ih)
  | array items _ ih => exact map_congr (array_congr ih)
  | set items _ ih => exact map_congr (set_congr ih _)
  | map items _ ih =>
    have hpair : Function.Injective fun p : Output × Output => Output.pair p.1 p.2 := by
      rintro ⟨x, y⟩ ⟨x', y'⟩ h
      cases h
      rfl
    exact map_congr (mapping_congr _ fun item hitem => eq_of_map_eq hpair (ih item hitem))
  | option _ hb ih => exact map_congr (option_congr hb ih)
  | mapped _ ih => exact map_congr ih
  | shared _ ih => exact ih
  | union _ ih => exact union_congr (forall_mem_decoders ih)
  | choice _ _ _ ihs iht ih =>
    refine union_congr (List.forall_mem_cons.mpr ⟨ihs, List.forall_mem_cons.mpr ⟨iht, ?_⟩⟩)
    exact forall_mem_decoders ih

/-- Entries that no record declares are added beside the declared ones and inside the elements of an
array: the document fails as before. -/
theorem decoder_eq_added_entries :
    let s := Schema.record [("id", .option .string), ("items", .array (.record [("n", .number)]))]
    let before := Value.object [("items", .array [.object [("n", .int 1)], .object []])]
    let after := Value.object
      [("extra", .null), ("items", .array [.object [("a", .null), ("n", .int 1)], .object [("m", .int 2)]])]
    s.AgreeUnder Together (some before) (some after) ∧
      s.decoder (some before) = s.decoder (some after) ∧
      s.decoder (some after) =
        .error ⟨[.field "items", .index 1, .field "n"], .missingField "n"⟩ := by
  intro s before after
  have hnumber : ∀ es es', Value.lookup "n" es = Value.lookup "n" es' →
      AgreeUnder Together (.record [("n", .number)]) (some (.object es)) (some (.object es')) :=
    fun es es' he => .record (List.forall_mem_singleton.mpr (he ▸ .same _ _))
      (List.forall_mem_singleton.mpr (congrArg Option.isSome he))
  have hfirst := hnumber [("n", .int 1)] [("a", .null), ("n", .int 1)]
    (by simp [Value.lookup, Entries.find?])
  have hsecond := hnumber [] [("m", .int 2)]
    (by simp [Value.lookup, Entries.find?])
  have hitems : AgreeUnder Together (.array (.record [("n", .number)]))
      (some (.array [.object [("n", .int 1)], .object []]))
      (some (.array [.object [("a", .null), ("n", .int 1)], .object [("m", .int 2)]])) :=
    .array [(.object [("n", .int 1)], .object [("a", .null), ("n", .int 1)]),
      (.object [], .object [("m", .int 2)])]
      (List.forall_mem_cons.mpr ⟨hfirst, List.forall_mem_singleton.mpr hsecond⟩)
  have h : s.AgreeUnder Together (some before) (some after) := by
    refine .record (List.forall_mem_cons.mpr ⟨?_, List.forall_mem_singleton.mpr ?_⟩)
      (List.forall_mem_cons.mpr ⟨?_, List.forall_mem_singleton.mpr ?_⟩)
    · simpa [Value.lookup, Entries.find?] using .same _ _
    · simpa [Value.lookup, Entries.find?] using hitems
    · simp [Value.lookup, Entries.find?, Together]
    · simp [Value.lookup, Entries.find?, Together]
  exact ⟨h, h.decoder_eq, rfl⟩

end Schema

end TypedJson
