import TypedJson.Proofs.Decoder.Runs
import TypedJson.Proofs.Schema.BuiltFrom

/-!
# Schemas may grow at their ends

A schema is *below* another if whatever it decodes, the other decodes to the same output
(`Schema.Below`).  Every position of a schema but the alternatives of a union respects this order, and of
a union the last alternative does: there may be more behind it.  An alternative that is not the last must
not grow, as it would take inputs away from those behind.

`Schema.Evolves` is the least relation that contains the order and is closed under these positions and
under new alternatives at the end of a union; it stays within the order.
-/

namespace TypedJson

namespace Decoder

variable {α β κ : Type}

/-- A success of `r` is one of `s`, with the same output. -/
def Keeps (r s : Except Failure α) : Prop := ∀ x, r = .ok x → s = .ok x

/-- **Whatever `d` decodes, `d'` decodes to the same output.** -/
def Below (d d' : Decoder α) : Prop := ∀ input, Keeps (d input) (d' input)

theorem Keeps.refl (r : Except Failure α) : Keeps r r := fun _ h => h

theorem Keeps.bind {r s : Except Failure α} {k l : α → Except Failure β} (h : Keeps r s)
    (hk : ∀ x, Keeps (k x) (l x)) : Keeps (r >>= k) (s >>= l) := by
  intro y hy
  obtain ⟨x, hx, hkx⟩ := bind_eq_ok_iff.mp hy
  exact bind_eq_ok_iff.mpr ⟨x, h x hx, hk x y hkx⟩

theorem Keeps.under {r s : Except Failure α} (h : Keeps r s) (step : Step) :
    Keeps (under step r) (under step s) := by
  intro x hx
  exact under_eq_ok_iff.mpr (h x (under_eq_ok_iff.mp hx))

theorem Below.map {d d' : Decoder α} (h : Below d d') (f : α → β) : Below (d.map f) (d'.map f) := by
  intro input y hy
  obtain ⟨x, hx, hfx⟩ := map_eq_ok_iff.mp hy
  exact map_eq_ok_iff.mpr ⟨x, h input x hx, hfx⟩

/-! ### Containers -/

section Containers
variable {d d' : Decoder α} (h : Below d d')
include h

theorem Below.arrayFrom (position : Nat) (items : List Value) :
    Keeps (arrayFrom d position items) (arrayFrom d' position items) := by
  intro outputs hrun
  rw [arrayFrom_eq_ok_iff] at hrun ⊢
  rw [← hrun]
  refine List.map_congr_left fun v hv => ?_
  have hmem : d (some v) ∈ outputs.map Except.ok := by
    rw [← hrun]
    exact List.mem_map_of_mem hv
  obtain ⟨x, -, hx⟩ := List.mem_map.mp hmem
  rw [← hx, h (some v) x hx.symm]

theorem Below.setFrom (same : α → α → Bool) (items : List Value) :
    ∀ (seen : List α) (position : Nat),
      Keeps (setFrom same d seen position items) (setFrom same d' seen position items) := by
  induction items with
  | nil => exact fun _ _ => .refl _
  | cons v rest ih =>
    intro seen position
    refine ((h (some v)).under (.index position)).bind fun x => ?_
    cases seen.findIdx? (same · x) with
    | some first => exact .refl _
    | none => exact ih (seen ++ [x]) (position + 1)

theorem Below.field (entries : List (String × Value)) (name : String) :
    Keeps (field entries name d) (field entries name d') := by
  cases hl : Value.lookup name entries with
  | some v =>
    rw [field_of_lookup_some hl, field_of_lookup_some hl]
    exact (h (some v)).under (.field name)
  | none =>
    intro x hx
    rw [field_of_lookup_none hl] at hx ⊢
    cases hd : d none with
    | ok y =>
      rw [h none y hd]
      simpa [hd] using hx
    | error e => simp [hd] at hx

theorem Below.dictFrom (entries : List (String × Value)) :
    Keeps (dictFrom d entries) (dictFrom d' entries) := by
  induction entries with
  | nil => exact .refl _
  | cons entry rest ih =>
    refine ((h (some entry.2)).under (.field entry.1)).bind fun x => ?_
    exact ih.bind fun xs => .refl _

theorem Below.array : Below (array d) (array d') := fun _ =>
  (Keeps.refl _).bind fun items => h.arrayFrom 0 items

theorem Below.set (same : α → α → Bool) : Below (set same d) (set same d') := fun _ =>
  (Keeps.refl _).bind fun items => h.setFrom same items [] 0

theorem Below.dict : Below (dict d) (dict d') := fun _ =>
  (Keeps.refl _).bind fun entries => h.dictFrom entries

theorem Below.option : Below (option d) (option d') := by
  intro input x hx
  cases input with
  | none => exact hx
  | some v =>
    simp only [Decoder.option] at hx ⊢
    cases hd : d (some v) with
    | ok y =>
      rw [h (some v) y hd]
      simpa [hd] using hx
    | error e => simp [hd] at hx

end Containers

theorem Below.tuple {first first' : Decoder κ} {second second' : Decoder α} (h₁ : Below first first')
    (h₂ : Below second second') : Below (tuple first second) (tuple first' second') := by
  intro input
  unfold Decoder.tuple
  split
  · next v w =>
    refine ((h₁ (some v)).under (.index 0)).bind fun x => ?_
    exact ((h₂ (some w)).under (.index 1)).bind fun y => .refl _
  · exact .refl _

theorem Below.mapFrom {entry entry' : Decoder (κ × α)} (h : Below entry entry')
    (order : κ → κ → Ordering) (items : List Value) :
    ∀ (seen : List (κ × Nat × α)) (position : Nat),
      Keeps (mapFrom order entry seen position items) (mapFrom order entry' seen position items) := by
  induction items with
  | nil => exact fun _ _ => .refl _
  | cons v rest ih =>
    intro seen position
    refine ((h (some v)).under (.index position)).bind fun ⟨k, x⟩ => ?_
    cases hf : Entries.find? order k seen with
    | some earlier =>
      simp only [hf]
      exact .refl _
    | none =>
      simp only [hf]
      exact ih _ (position + 1)

theorem Below.mapping {key key' : Decoder κ} {value value' : Decoder α} (hk : Below key key')
    (hv : Below value value') (order : κ → κ → Ordering) :
    Below (mapping order key value) (mapping order key' value') := fun _ =>
  (Keeps.refl _).bind fun items =>
    ((hk.tuple hv).mapFrom order items [] 0).bind fun _ => .refl _

theorem below_record : ∀ {fields fields' : List (String × Decoder α)},
    Entries.Related Eq Below fields fields' → Below (record fields) (record fields') := by
  intro fields fields' h input
  refine (Keeps.refl _).bind fun entries => ?_
  suffices hfrom : ∀ decoded, Keeps (recordFrom entries decoded fields)
      (recordFrom entries decoded fields') from hfrom []
  induction h with
  | nil => exact fun _ => .refl _
  | @cons f g rest rest' hfg _ ih =>
    intro decoded
    obtain ⟨name, d⟩ := f
    obtain ⟨_, d'⟩ := g
    obtain ⟨rfl, hd⟩ := hfg
    exact (Below.field hd entries name).bind fun x => ih _

theorem below_struct {fields fields' : List (FieldName × Decoder α)}
    (h : Entries.Related Eq Below fields fields') : Below (struct fields) (struct fields') := by
  intro input
  refine (Keeps.refl _).bind fun entries => ?_
  induction h with
  | nil => exact .refl _
  | @cons f g rest rest' hfg _ ih =>
    obtain ⟨name, d⟩ := f
    obtain ⟨_, d'⟩ := g
    obtain ⟨rfl, hd⟩ := hfg
    exact (Below.field hd entries name.key).bind fun x => ih.bind fun xs => .refl _

/-! ### Choices -/

/-- The last alternative may grow, and others may follow it. -/
theorem below_union_last {d d' : Decoder α} (h : Below d d') (before after : List (Decoder α)) :
    Below (union (before ++ [d])) (union (before ++ d' :: after)) := by
  intro input x hx
  rw [union_eq_ok_iff, firstSuccess_append_eq_ok_iff] at hx ⊢
  refine hx.imp id fun ⟨hfails, hlast⟩ => ⟨hfails, ?_⟩
  rw [firstSuccess_cons_eq_ok_iff] at hlast ⊢
  rcases hlast with hd | ⟨-, hnil⟩
  · exact Or.inl (h input x hd)
  · cases hnil

theorem below_union_append (alternatives more : List (Decoder α)) :
    Below (union alternatives) (union (alternatives ++ more)) := by
  intro input x hx
  rw [union_eq_ok_iff] at hx ⊢
  exact firstSuccess_append_eq_ok_iff.mpr (Or.inl hx)

end Decoder

namespace Schema

/-- **Whatever `S` decodes, `T` decodes to the same output**, absence included. -/
def Below (S T : Schema) : Prop := ∀ input x, S.decoder input = .ok x → T.decoder input = .ok x

/-- **`T` comes from `S` by growing it in positions that keep what was decoded.**  Since all of the order
is contained (`of_below`), each other rule says of its position that it respects the order.  The fields
of records come with both schemas of each: the names and their order stay, and a name may be there
twice. -/
inductive Evolves : Schema → Schema → Prop
  | of_below {S T : Schema} (h : S.Below T) : Evolves S T
  | trans {S T U : Schema} (h : Evolves S T) (h' : Evolves T U) : Evolves S U
  | tuple {a a' b b' : Schema} (ha : Evolves a a') (hb : Evolves b b') :
    Evolves (.tuple a b) (.tuple a' b')
  | pair {a a' b b' : Schema} (ha : Evolves a a') (hb : Evolves b b') :
    Evolves (.pair a b) (.pair a' b')
  | record (fields : List (String × Schema × Schema)) (h : ∀ f ∈ fields, Evolves f.2.1 f.2.2) :
    Evolves (.record (fields.map fun f => (f.1, f.2.1))) (.record (fields.map fun f => (f.1, f.2.2)))
  | fieldTable (fields : List (String × Schema × Schema)) (h : ∀ f ∈ fields, Evolves f.2.1 f.2.2) :
    Evolves (.fieldTable (fields.map fun f => (f.1, f.2.1)))
      (.fieldTable (fields.map fun f => (f.1, f.2.2)))
  | struct (name : String) (fields : List (FieldName × Schema × Schema))
    (h : ∀ f ∈ fields, Evolves f.2.1 f.2.2) :
    Evolves (.struct name (fields.map fun f => (f.1, f.2.1)))
      (.struct name (fields.map fun f => (f.1, f.2.2)))
  | array {S T : Schema} (h : Evolves S T) : Evolves (.array S) (.array T)
  | set {S T : Schema} (h : Evolves S T) : Evolves (.set S) (.set T)
  | map {k k' v v' : Schema} (hk : Evolves k k') (hv : Evolves v v') :
    Evolves (.map k v) (.map k' v')
  | dict {S T : Schema} (h : Evolves S T) : Evolves (.dict S) (.dict T)
  | option {S T : Schema} (h : Evolves S T) : Evolves (.option S) (.option T)
  | mapped (f : Output → Output) {S T : Schema} (h : Evolves S T) :
    Evolves (.mapped f S) (.mapped f T)
  | shared {S T : Schema} (h : Evolves S T) : Evolves (.shared S) (.shared T)
  /-- The last alternative grows, and others follow it. -/
  | last {S T : Schema} (before after : List Schema) (h : Evolves S T) :
    Evolves (.union (before ++ [S])) (.union (before ++ T :: after))
  /-- New alternatives at the end, where there may be none so far. -/
  | append (alternatives more : List Schema) :
    Evolves (.union alternatives) (.union (alternatives ++ more))
  /-- Alternatives written out in place evolve as in a list. -/
  | choice {a b a' b' : Schema} {rest rest' : List Schema}
    (h : Evolves (.union (a :: b :: rest)) (.union (a' :: b' :: rest'))) :
    Evolves (.choice a b rest) (.choice a' b' rest')

/-- The two lists of decoders of fields that come with two schemas each. -/
theorem related_decoders {κ : Type} {fields : List (κ × Schema × Schema)}
    (h : ∀ f ∈ fields, Below f.2.1 f.2.2) :
    Entries.Related Eq Decoder.Below
      ((fields.map fun f => (f.1, f.2.1)).map fun f => (f.1, f.2.decoder))
      ((fields.map fun f => (f.1, f.2.2)).map fun f => (f.1, f.2.decoder)) := by
  rw [List.map_map, List.map_map]
  refine List.forall₂_map_left_iff.mpr (List.forall₂_map_right_iff.mpr (List.forall₂_same.mpr ?_))
  exact fun f hf => ⟨rfl, h f hf⟩

/-- **Schemas evolve conservatively.**  A schema that has grown, in any of the positions and at any depth,
decodes every input that it decoded before, and to the same output. -/
theorem Evolves.keeps_decoded {S T : Schema} (h : S.Evolves T) {input : Option Value} {x : Output}
    (hx : S.decoder input = .ok x) : T.decoder input = .ok x := by
  suffices hbelow : Decoder.Below S.decoder T.decoder from hbelow input x hx
  clear hx
  induction h with
  | of_below h => exact h
  | trans _ _ ih ih' => exact fun input x hx => ih' input x (ih input x hx)
  | tuple _ _ iha ihb => exact (iha.tuple ihb).map _
  | pair _ _ iha ihb => exact (iha.tuple ihb).map _
  | record fields _ ih =>
    simp only [Schema.decoder, fieldDecoders_eq_map]
    exact (Decoder.below_record (related_decoders ih)).map _
  | fieldTable fields _ ih =>
    simp only [Schema.decoder, fieldDecoders_eq_map]
    exact (Decoder.below_record ((related_decoders ih).ofList Entries.respects_eq)).map _
  | struct name fields _ ih =>
    simp only [Schema.decoder, structDecoders_eq_map]
    exact (Decoder.below_struct (related_decoders ih)).map _
  | array _ ih => exact ih.array.map _
  | set _ ih => exact (ih.set _).map _
  | map _ _ ihk ihv => exact (ihk.mapping ihv _).map _
  | dict _ ih => exact ih.dict.map _
  | option _ ih => exact ih.option.map _
  | mapped f _ ih => exact ih.map f
  | shared _ ih => exact ih
  | last before after _ ih =>
    simp only [Schema.decoder, decoders_eq_map, List.map_append, List.map_cons, List.map_nil]
    exact Decoder.below_union_last ih _ _
  | append alternatives more =>
    simp only [Schema.decoder, decoders_eq_map, List.map_append]
    exact Decoder.below_union_append _ _
  | choice _ ih => exact ih

/-- A union that is the last alternative of another one grows, and so does the other: the old document
keeps its output. -/
theorem keeps_decoded_nested :
    let S := Schema.record
      [("id", .string), ("tags", .array (.union [.text "a", .array (.union [.text "b"])]))]
    let T := Schema.record
      [("id", .string), ("tags", .array (.union [.text "a", .array (.union [.text "b", .string]), .null]))]
    let input := some (Value.object
      [("id", .string "x"), ("tags", .array [.array [.string "b"], .string "a"])])
    let x := Output.dict [("id", .text "x"), ("tags", .list [.list [.text "b"], .text "a"])]
    S.Evolves T ∧ S.decoder input = .ok x ∧ T.decoder input = .ok x := by
  intro S T input x
  have htags : Evolves (.array (.union [.text "a", .array (.union [.text "b"])]))
      (.array (.union [.text "a", .array (.union [.text "b", .string]), .null])) :=
    .array (.last [.text "a"] [.null] (.array (.append [.text "b"] [.string])))
  have hid : Evolves .string .string := .of_below fun _ _ hx => hx
  have h : S.Evolves T :=
    .record [("id", .string, .string), ("tags", _, _)] (by simpa using ⟨hid, htags⟩)
  have hx : S.decoder input = .ok x := rfl
  exact ⟨h, hx, h.keeps_decoded hx⟩

end Schema

end TypedJson
