import TypedJson.Proofs.Output.Order
import TypedJson.Proofs.Schema.Declarations

/-!
# The first fault ends decoding

A container decodes its children (`Schema.children`) in a fixed order, and the first one at fault ends
the run.  `s.FirstFault input failure before child` says what a failure means at one level: the children
`before` all decode, `child` is at fault, and nothing behind it was read, so that every input with the
same children up to here fails in the same way.

A failure means this at every level down to its target (`Schema.FailsFast`, `failsFast_of_decoder`).  Two
kinds of failure have no such level: those at the root, and those of plain functions.
-/

namespace TypedJson

/-- A child of a container: the step that leads to it, its schema, and what stands there. -/
structure Child where
  step : Step
  schema : Schema
  input : Option Value

/-- The result of the child by its own schema. -/
def Child.result (child : Child) : Except Failure Output := child.schema.decoder child.input

/-! ### Children -/

/-- The elements of an array of length two. -/
def pairChildren (s t : Schema) : Option Value → List Child
  | some (.array [v, w]) => [⟨.index 0, s, some v⟩, ⟨.index 1, t, some w⟩]
  | _ => []

/-- The elements of an array by increasing index. -/
def elementChildren (s : Schema) : Option Value → List Child
  | some (.array items) => items.zipIdx.map fun item => ⟨.index item.2, s, some item.1⟩
  | _ => []

/-- The entries of an object, which stand by increasing name. -/
def entryChildren (s : Schema) : Option Value → List Child
  | some (.object entries) => entries.map fun entry => ⟨.field entry.1, s, some entry.2⟩
  | _ => []

/-- What stands under each declared name, in the order of declaration; some of it may be missing. -/
def fieldChildren (fields : List (String × Schema)) : Option Value → List Child
  | some (.object entries) =>
    fields.map fun field => ⟨.field field.1, field.2, Value.lookup field.1 entries⟩
  | _ => []

/-- **The children of a container in the order of decoding**; options, changes of output and shared
schemas have those of the schema inside. -/
def Schema.children : Schema → Option Value → List Child
  | .tuple s t, input | .pair s t, input => pairChildren s t input
  | .array s, input | .set s, input => elementChildren s input
  | .map key value, input => elementChildren (.tuple key value) input
  | .dict s, input => entryChildren s input
  | .record fields, input => fieldChildren fields input
  | .fieldTable fields, input => fieldChildren (Entries.ofList Text.order fields) input
  | .struct _ fields, input => fieldChildren (fields.map fun field => (field.1.key, field.2)) input
  | .option s, input | .mapped _ s, input | .shared s, input => s.children input
  | _, _ => []

theorem array_of_mem_pairChildren {s t : Schema} {input : Option Value} {child : Child}
    (h : child ∈ pairChildren s t input) : ∃ v w, input = some (.array [v, w]) := by
  unfold pairChildren at h
  split at h
  · exact ⟨_, _, rfl⟩
  · cases h

theorem array_of_mem_elementChildren {s : Schema} {input : Option Value} {child : Child}
    (h : child ∈ elementChildren s input) : ∃ items, input = some (.array items) := by
  unfold elementChildren at h
  split at h
  · exact ⟨_, rfl⟩
  · cases h

theorem object_of_mem_entryChildren {s : Schema} {input : Option Value} {child : Child}
    (h : child ∈ entryChildren s input) : ∃ entries, input = some (.object entries) := by
  unfold entryChildren at h
  split at h
  · exact ⟨_, rfl⟩
  · cases h

theorem object_of_mem_fieldChildren {fields : List (String × Schema)} {input : Option Value}
    {child : Child} (h : child ∈ fieldChildren fields input) :
    ∃ entries, input = some (.object entries) := by
  unfold fieldChildren at h
  split at h
  · exact ⟨_, rfl⟩
  · cases h

theorem Schema.children_none (s : Schema) : s.children none = [] := by
  induction s.builtFrom_any with
  | option _ ih | shared _ ih => exact ih
  | mapped _ _ ih => exact ih
  | _ => rfl

/-! ### Fault -/

/-- **The child is at fault, with this failure**: its own failure under its step, or as a missing field,
or because its output equals that of a child before. -/
inductive Child.Fault (before : List Child) (child : Child) : Failure → Prop
  | own {inner : Failure} (hpresent : child.input.isSome) (h : child.result = .error inner) :
    Fault before child (inner.under child.step)
  | missing {name : String} {inner : Failure} (hstep : child.step = .field name)
    (habsent : child.input = none) (h : child.result = .error inner) :
    Fault before child ⟨[.field name], .missingField name⟩
  | duplicateValue {x y : Output} {first : Nat} {earlier : Child} (hx : child.result = .ok x)
    (hearlier : before[first]? = some earlier) (hy : earlier.result = .ok y)
    (hsame : y.eqv x = true) : Fault before child ⟨[child.step], .duplicateValue first⟩
  | duplicateKey {k l x y : Output} {first : Nat} {earlier : Child}
    (hx : child.result = .ok (.pair k x)) (hearlier : before[first]? = some earlier)
    (hy : earlier.result = .ok (.pair l y)) (hsame : Output.order k l = .eq) :
    Fault before child ⟨[child.step], .duplicateKey first⟩

theorem Child.Fault.path_eq {before : List Child} {child : Child} {failure : Failure}
    (h : child.Fault before failure) : ∃ rest, failure.path = child.step :: rest := by
  cases h with
  | own => exact ⟨_, rfl⟩
  | missing hstep => exact ⟨[], by rw [hstep]⟩
  | duplicateValue => exact ⟨[], rfl⟩
  | duplicateKey => exact ⟨[], rfl⟩

namespace Schema

/-- **Decoding ends with the failure at this child**, which is the first one at fault. -/
structure FirstFault (s : Schema) (input : Option Value) (failure : Failure) (before : List Child)
    (child : Child) : Prop where
  listed : before ++ [child] <+: s.children input
  path_eq : ∃ rest, failure.path = child.step :: rest
  before_succeed : ∀ earlier ∈ before, ∃ x, earlier.result = .ok x
  fault : child.Fault before failure
  /-- Nothing behind the child matters. -/
  stable : ∀ other, before ++ [child] <+: s.children other → s.decoder other = .error failure

/-- The schema is a plain function, but for options and changes of the output. -/
inductive Plain : Schema → Prop
  | custom (d : Decoder Output) : Plain (.custom d)
  | option {s : Schema} (h : Plain s) : Plain (.option s)
  | mapped {f : Output → Output} {s : Schema} (h : Plain s) : Plain (.mapped f s)
  | shared {s : Schema} (h : Plain s) : Plain (.shared s)

/-- **The failure is at the first fault on every level**: at that of the container, and if the failure is
the child's own, inside the child again. -/
inductive FailsFast : Schema → Option Value → Failure → Prop
  | root {s : Schema} {input : Option Value} {failure : Failure} (h : failure.path = []) :
    FailsFast s input failure
  | plain {s : Schema} {input : Option Value} {failure : Failure} (h : s.Plain) :
    FailsFast s input failure
  | child {s : Schema} {input : Option Value} {failure : Failure} {before : List Child} {child : Child}
    (h : s.FirstFault input failure before child)
    (inside : ∀ inner, child.result = .error inner → failure = inner.under child.step →
      FailsFast child.schema child.input inner) :
    FailsFast s input failure

open Decoder

/-! ### Elements -/

/-- What is related to something, element by element. -/
theorem exists_of_forall₂ {α β : Type} {R : α → β → Prop} {xs : List α} {ys : List β}
    (h : List.Forall₂ R xs ys) : ∀ x ∈ xs, ∃ y, R x y := by
  induction h with
  | nil => simp
  | cons hxy _ ih => exact List.forall_mem_cons.mpr ⟨⟨_, hxy⟩, ih⟩

theorem exists_getElem?_of_forall₂ {α β : Type} {R : α → β → Prop} {xs : List α} {ys : List β}
    (h : List.Forall₂ R xs ys) {i : Nat} {y : β} (hy : ys[i]? = some y) :
    ∃ x, xs[i]? = some x ∧ R x y := by
  induction h generalizing i with
  | nil => cases hy
  | @cons x _ _ _ hxy _ ih =>
    cases i with
    | zero =>
      obtain rfl := Option.some.inj hy
      exact ⟨x, rfl, hxy⟩
    | succ i => exact ih hy

section Elements
variable {s : Schema} {before after : List Value} {v : Value}

theorem map_input_elementChildren (items : List Value) :
    (elementChildren s (some (.array items))).map Child.input = items.map some := by
  rw [elementChildren, List.map_map]
  conv_rhs => rw [← List.zipIdx_map_fst 0 items, List.map_map]
  rfl

theorem elementChildren_append :
    elementChildren s (some (.array before)) ++ [⟨.index before.length, s, some v⟩] <+:
      elementChildren s (some (.array (before ++ v :: after))) := by
  simp [elementChildren, List.zipIdx_append]

/-- Inputs with the same first elements. -/
theorem array_of_prefix {other : Option Value}
    (h : elementChildren s (some (.array before)) ++ [⟨.index before.length, s, some v⟩] <+:
      elementChildren s other) : ∃ rest, other = some (.array (before ++ v :: rest)) := by
  obtain ⟨items, rfl⟩ := array_of_mem_elementChildren (h.subset List.mem_concat_self)
  have hinputs : (before ++ [v]).map some <+: items.map some := by
    rw [List.map_append, ← map_input_elementChildren (s := s) before,
      ← map_input_elementChildren (s := s) items]
    have hmapped := h.map Child.input
    rwa [List.map_append] at hmapped
  obtain ⟨rest, rfl⟩ := (List.prefix_map_iff_of_injective fun _ _ => Option.some.inj).mp hinputs
  exact ⟨rest, by simp⟩

/-- The first fault of a container of elements. -/
theorem firstFault_element {container : Schema} (hchildren : container.children = elementChildren s)
    {failure : Failure} (hbefore : ∀ u ∈ before, ∃ x, s.decoder (some u) = .ok x)
    (hfault : Child.Fault (elementChildren s (some (.array before)))
      ⟨.index before.length, s, some v⟩ failure)
    (hstable : ∀ rest, container.decoder (some (.array (before ++ v :: rest))) = .error failure) :
    ∃ earlier child,
      container.FirstFault (some (.array (before ++ v :: after))) failure earlier child := by
  refine ⟨_, _, hchildren ▸ elementChildren_append, hfault.path_eq, fun child hchild => ?_, hfault,
    fun other hother => ?_⟩
  · obtain ⟨⟨u, i⟩, hu, rfl⟩ := List.mem_map.mp hchild
    exact hbefore u (List.fst_mem_of_mem_zipIdx hu)
  · rw [hchildren] at hother
    obtain ⟨rest, rfl⟩ := array_of_prefix hother
    exact hstable rest

theorem firstFault_array {s : Schema} {input : Option Value} {failure : Failure}
    (h : (Schema.array s).decoder input = .error failure) (hpath : failure.path ≠ []) :
    ∃ before child, (Schema.array s).FirstFault input failure before child := by
  rcases array_eq_error_iff.mp (Decoder.map_eq_error_iff.mp h) with hshape | ⟨items, rfl, hrun⟩
  · exact absurd (expectArray_eq_error hshape ▸ rfl) hpath
  · obtain ⟨before, v, after, rfl, ⟨outputs, hout⟩, inner, hv, rfl⟩ := arrayFrom_eq_error_iff.mp hrun
    refine firstFault_element rfl ?_ ?_ fun rest => ?_
    · exact exists_of_forall₂ (arrayFrom_eq_ok_iff_forall₂.mp hout)
    · rw [Nat.zero_add]
      exact .own rfl hv
    · refine Decoder.map_eq_error_iff.mpr (array_eq_error_iff.mpr (Or.inr ⟨_, rfl, ?_⟩))
      exact arrayFrom_eq_error_iff.mpr ⟨before, v, rest, rfl, ⟨outputs, hout⟩, inner, hv, rfl⟩

theorem getElem?_elementChildren {i : Nat} {u : Value} (hu : before[i]? = some u) :
    (elementChildren s (some (.array before)))[i]? = some ⟨.index i, s, some u⟩ := by
  simp [elementChildren, hu]

theorem firstFault_set {input : Option Value} {failure : Failure}
    (h : (Schema.set s).decoder input = .error failure) (hpath : failure.path ≠ []) :
    ∃ earlier child, (Schema.set s).FirstFault input failure earlier child := by
  rcases set_eq_error_iff.mp (Decoder.map_eq_error_iff.mp h) with hshape | ⟨items, rfl, hrun⟩
  · exact absurd (expectArray_eq_error hshape ▸ rfl) hpath
  · obtain ⟨before, v, after, rfl, outputs, hout, hv⟩ := setFrom_eq_error_iff.mp hrun
    obtain ⟨_, hdecodes, rfl, -⟩ := (setFrom_eq_ok_iff .nil).mp hout
    refine firstFault_element rfl (exists_of_forall₂ hdecodes) ?_ fun rest => ?_
    · rcases hv with ⟨inner, hv, rfl⟩ | ⟨x, first, hv, hfirst, rfl⟩
      · rw [Nat.zero_add]
        exact .own rfl hv
      · rw [Nat.zero_add]
        obtain ⟨hlt, hsame, -⟩ := List.findIdx?_eq_some_iff_getElem.mp hfirst
        obtain ⟨u, hu, hy⟩ := exists_getElem?_of_forall₂ hdecodes (List.getElem?_eq_getElem hlt)
        exact .duplicateValue hv (getElem?_elementChildren hu) hy hsame
    · refine Decoder.map_eq_error_iff.mpr (set_eq_error_iff.mpr (Or.inr ⟨_, rfl, ?_⟩))
      exact setFrom_eq_error_iff.mpr ⟨before, v, rest, rfl, _, hout, hv⟩

theorem firstFault_map {key value : Schema} {input : Option Value} {failure : Failure}
    (h : (Schema.map key value).decoder input = .error failure) (hpath : failure.path ≠ []) :
    ∃ earlier child, (Schema.map key value).FirstFault input failure earlier child := by
  rcases mapping_eq_error_iff.mp (Decoder.map_eq_error_iff.mp h) with hshape | ⟨items, rfl, hrun⟩
  · exact absurd (expectArray_eq_error hshape ▸ rfl) hpath
  · obtain ⟨before, v, after, rfl, entries, hout, hv⟩ := mapFrom_eq_error_iff.mp hrun
    obtain ⟨pairs, hpairs, -, rfl⟩ := mapFrom_nil_eq_ok_iff.mp hout
    have hdecodes : List.Forall₂ (fun u p => (Schema.tuple key value).decoder (some u) =
        .ok (.pair p.1 p.2)) before pairs :=
      hpairs.imp fun u p hp => Decoder.map_eq_ok_iff.mpr ⟨p, hp, rfl⟩
    refine firstFault_element rfl (fun u hu => ?_) ?_ fun rest => ?_
    · obtain ⟨p, hp⟩ := exists_of_forall₂ hdecodes u hu
      exact ⟨_, hp⟩
    · rcases hv with ⟨inner, hv, rfl⟩ | ⟨k, x, first, y, hv, hfirst, rfl⟩
      · rw [Nat.zero_add]
        exact .own rfl (Decoder.map_eq_error_iff.mpr hv)
      · rw [Nat.zero_add]
        obtain ⟨l, hl, hsame⟩ := getElem?_of_find?_placed hfirst
        obtain ⟨u, hu, hy⟩ := exists_getElem?_of_forall₂ hdecodes hl
        exact .duplicateKey (Decoder.map_eq_ok_iff.mpr ⟨_, hv, rfl⟩) (getElem?_elementChildren hu) hy
          hsame
    · refine Decoder.map_eq_error_iff.mpr (mapping_eq_error_iff.mpr (Or.inr ⟨_, rfl, ?_⟩))
      exact mapFrom_eq_error_iff.mpr ⟨before, v, rest, rfl, _, hout, hv⟩

end Elements

/-! ### Entries and fields -/

/-- Inputs with the same first entries. -/
theorem object_of_prefix {s : Schema} {before : List (String × Value)} {entry : String × Value}
    {other : Option Value}
    (h : entryChildren s (some (.object before)) ++ [⟨.field entry.1, s, some entry.2⟩] <+:
      entryChildren s other) : ∃ rest, other = some (.object (before ++ entry :: rest)) := by
  obtain ⟨entries, rfl⟩ := object_of_mem_entryChildren (h.subset List.mem_concat_self)
  have hinjective : Function.Injective fun e : String × Value =>
      (⟨.field e.1, s, some e.2⟩ : Child) := by
    rintro ⟨n, v⟩ ⟨m, w⟩ he
    cases he
    rfl
  have hentries : (before ++ [entry]).map (fun e => (⟨.field e.1, s, some e.2⟩ : Child)) <+:
      entries.map fun e => ⟨.field e.1, s, some e.2⟩ := by
    rw [List.map_append]
    exact h
  obtain ⟨rest, rfl⟩ := (List.prefix_map_iff_of_injective hinjective).mp hentries
  exact ⟨rest, by simp⟩

theorem firstFault_dict {s : Schema} {input : Option Value} {failure : Failure}
    (h : (Schema.dict s).decoder input = .error failure) (hpath : failure.path ≠ []) :
    ∃ earlier child, (Schema.dict s).FirstFault input failure earlier child := by
  rcases dict_eq_error_iff.mp (Decoder.map_eq_error_iff.mp h) with hshape | ⟨entries, rfl, hrun⟩
  · exact absurd (expectObject_eq_error hshape ▸ rfl) hpath
  · obtain ⟨before, entry, after, rfl, ⟨outputs, hout⟩, inner, hv, rfl⟩ :=
      dictFrom_eq_error_iff.mp hrun
    have hfault : Child.Fault (entryChildren s (some (.object before)))
        ⟨.field entry.1, s, some entry.2⟩ (inner.under (.field entry.1)) := .own rfl hv
    refine ⟨_, _, ?_, hfault.path_eq, fun child hchild => ?_, hfault, fun other hother => ?_⟩
    · simp [Schema.children, entryChildren]
    · obtain ⟨e, he, rfl⟩ := List.mem_map.mp hchild
      obtain ⟨x, -, hx⟩ := exists_of_forall₂ (dictFrom_eq_ok_iff.mp hout) e he
      exact ⟨_, hx⟩
    · obtain ⟨rest, rfl⟩ := object_of_prefix hother
      refine Decoder.map_eq_error_iff.mpr (dict_eq_error_iff.mpr (Or.inr ⟨_, rfl, ?_⟩))
      exact dictFrom_eq_error_iff.mpr ⟨before, entry, rest, rfl, ⟨outputs, hout⟩, inner, hv, rfl⟩

/-- The field is at fault as a child of the object. -/
theorem fault_of_field {before : List Child} {field : String × Schema}
    {entries : List (String × Value)} {failure : Failure}
    (h : Decoder.field entries field.1 field.2.decoder = .error failure) :
    Child.Fault before ⟨.field field.1, field.2, Value.lookup field.1 entries⟩ failure := by
  rcases field_eq_error_iff.mp h with ⟨v, hl, inner, hv, rfl⟩ | ⟨hl, ⟨inner, hv⟩, rfl⟩
  · exact .own (by rw [hl]; rfl) (by rw [Child.result, hl, hv])
  · exact .missing rfl hl (by rw [Child.result, hl, hv])

/-- Inputs with the same first fields. -/
theorem lookup_eq_of_prefix {before after : List (String × Schema)} {field : String × Schema}
    {entries entries' : List (String × Value)}
    (h : fieldChildren before (some (.object entries)) ++
        [⟨.field field.1, field.2, Value.lookup field.1 entries⟩] <+:
      fieldChildren (before ++ field :: after) (some (.object entries'))) :
    ∀ f ∈ before ++ [field], Value.lookup f.1 entries' = Value.lookup f.1 entries := by
  have hchildren : (before ++ [field]).map (fun f =>
      (⟨.field f.1, f.2, Value.lookup f.1 entries⟩ : Child)) =
      (before ++ [field]).map fun f => ⟨.field f.1, f.2, Value.lookup f.1 entries'⟩ := by
    have hprefix : fieldChildren (before ++ [field]) (some (.object entries')) <+:
        fieldChildren (before ++ field :: after) (some (.object entries')) := by
      simp [fieldChildren]
    refine (List.prefix_of_prefix_length_le ?_ hprefix ?_).eq_of_length ?_
    · simpa [fieldChildren] using h
    · simp [fieldChildren]
    · simp [fieldChildren]
  intro f hf
  have hf' := List.map_inj_left.mp hchildren f hf
  simp only [Child.mk.injEq, true_and] at hf'
  exact hf'.symm

/-- The first fault of a container of declared fields. -/
theorem Declares.firstFault {s : Schema} {declared : List (String × Schema)} (hs : s.Declares declared)
    (hchildren : s.children = fieldChildren declared) {input : Option Value} {failure : Failure}
    (h : s.decoder input = .error failure) (hpath : failure.path ≠ []) :
    ∃ earlier child, s.FirstFault input failure earlier child := by
  rcases hs.eq_error_iff.mp h with hshape | ⟨entries, rfl, before, field, after, rfl, hbefore, hfield⟩
  · exact absurd (expectObject_eq_error hshape ▸ rfl) hpath
  have hfault : Child.Fault (fieldChildren before (some (.object entries)))
      ⟨.field field.1, field.2, Value.lookup field.1 entries⟩ failure := fault_of_field hfield
  refine ⟨_, _, ?_, hfault.path_eq, fun child hchild => ?_, hfault, fun other hother => ?_⟩
  · simp [hchildren, fieldChildren]
  · obtain ⟨f, hf, rfl⟩ := List.mem_map.mp hchild
    exact hbefore f hf
  · rw [hchildren] at hother
    obtain ⟨entries', rfl⟩ := object_of_mem_fieldChildren (hother.subset List.mem_concat_self)
    have hlookup := lookup_eq_of_prefix hother
    refine hs.object_eq_error_iff.mpr ⟨before, field, after, rfl, fun f hf => ?_, ?_⟩
    · rw [hlookup f (List.mem_append_left _ hf)]
      exact hbefore f hf
    · rw [field_eq_of_lookup (hlookup field List.mem_concat_self)]
      exact hfield

/-! ### Pairs -/

theorem firstFault_pair {container s t : Schema} {input : Option Value} {failure : Failure}
    (hchildren : container.children = pairChildren s t)
    (hdecoder : container.decoder = (Decoder.tuple s.decoder t.decoder).map fun (x, y) => .pair x y)
    (h : container.decoder input = .error failure) (hpath : failure.path ≠ []) :
    ∃ earlier child, container.FirstFault input failure earlier child := by
  have herror : ∀ {v w}, container.decoder (some (.array [v, w])) = .error failure ↔
      (∃ inner, s.decoder (some v) = .error inner ∧ inner.under (.index 0) = failure) ∨
        (∃ x, s.decoder (some v) = .ok x) ∧
          ∃ inner, t.decoder (some w) = .error inner ∧ inner.under (.index 1) = failure := by
    intro v w
    rw [hdecoder, Decoder.map_eq_error_iff, tuple_array_eq_error_iff]
  obtain ⟨v, w, rfl⟩ : ∃ v w, input = some (.array [v, w]) := by
    rw [hdecoder, Decoder.map_eq_error_iff] at h
    rcases tuple_eq_error h with rfl | ⟨v, w, rfl, -⟩
    · exact absurd rfl hpath
    · exact ⟨v, w, rfl⟩
  rcases herror.mp h with ⟨inner, hv, rfl⟩ | ⟨hx, inner, hw, rfl⟩
  · have hfault : Child.Fault [] ⟨.index 0, s, some v⟩ (inner.under (.index 0)) := .own rfl hv
    refine ⟨[], _, ?_, hfault.path_eq, by simp, hfault, fun other hother => ?_⟩
    · simp [hchildren, pairChildren]
    · rw [hchildren] at hother
      obtain ⟨v', w', rfl⟩ := array_of_mem_pairChildren (hother.subset List.mem_concat_self)
      obtain rfl : v = v' := by simpa [pairChildren] using hother
      exact herror.mpr (Or.inl ⟨inner, hv, rfl⟩)
  · have hfault : Child.Fault [⟨.index 0, s, some v⟩] ⟨.index 1, t, some w⟩
        (inner.under (.index 1)) := .own rfl hw
    refine ⟨_, _, ?_, hfault.path_eq, by simpa [Child.result] using hx, hfault, fun other hother => ?_⟩
    · simp [hchildren, pairChildren]
    · rw [hchildren] at hother
      obtain ⟨v', w', rfl⟩ := array_of_mem_pairChildren (hother.subset List.mem_concat_self)
      obtain ⟨rfl, rfl⟩ : v = v' ∧ w = w' := by simpa [pairChildren] using hother
      exact h

/-! ### Every level -/

/-- A schema with the children of another one that fails where the other one does. -/
theorem FirstFault.wrap {s wrapper : Schema} {input : Option Value} {failure : Failure}
    {before : List Child} {child : Child} (h : s.FirstFault input failure before child)
    (hchildren : wrapper.children = s.children)
    (hdecoder : ∀ other, child ∈ s.children other → s.decoder other = .error failure →
      wrapper.decoder other = .error failure) :
    wrapper.FirstFault input failure before child where
  listed := hchildren ▸ h.listed
  path_eq := h.path_eq
  before_succeed := h.before_succeed
  fault := h.fault
  stable other hother := by
    rw [hchildren] at hother
    exact hdecoder other (hother.subset List.mem_concat_self) (h.stable other hother)

/-- **A failure with a path has a first fault**, unless a plain function made it. -/
theorem exists_firstFault {s : Schema} {input : Option Value} {failure : Failure}
    (h : s.decoder input = .error failure) (hpath : failure.path ≠ []) (hplain : ¬ s.Plain) :
    ∃ before child, s.FirstFault input failure before child := by
  induction s.builtFrom_any generalizing input with
  | string => exact absurd (string_eq_error (Decoder.map_eq_error_iff.mp h) ▸ rfl) hpath
  | number => exact absurd (number_eq_error (Decoder.map_eq_error_iff.mp h) ▸ rfl) hpath
  | boolean => exact absurd (boolean_eq_error (Decoder.map_eq_error_iff.mp h) ▸ rfl) hpath
  | absent => exact absurd (absent_eq_error (Decoder.map_eq_error_iff.mp h) ▸ rfl) hpath
  | null => exact absurd (null_eq_error (Decoder.map_eq_error_iff.mp h) ▸ rfl) hpath
  | date =>
    rcases date_eq_error (Decoder.map_eq_error_iff.mp h) with ⟨-, _, _, rfl⟩ | rfl
    · exact absurd rfl hpath
    · exact absurd rfl hpath
  | literal | text => exact absurd (literal_eq_error h ▸ rfl) hpath
  | union | choice =>
    obtain ⟨_, -, rfl⟩ := union_eq_error_iff.mp h
    exact absurd rfl hpath
  | custom => exact absurd (.custom _) hplain
  | tuple => exact firstFault_pair rfl rfl h hpath
  | pair => exact firstFault_pair rfl rfl h hpath
  | array => exact firstFault_array h hpath
  | set => exact firstFault_set h hpath
  | map => exact firstFault_map h hpath
  | dict => exact firstFault_dict h hpath
  | record => exact (Declares.record _).firstFault rfl h hpath
  | fieldTable => exact (Declares.fieldTable _).firstFault rfl h hpath
  | struct => exact (Declares.struct _ _).firstFault rfl h hpath
  | option _ ih =>
    obtain ⟨v, rfl, hv⟩ := option_eq_error_iff.mp (Decoder.map_eq_error_iff.mp h)
    obtain ⟨before, child, hfirst⟩ := ih hv (fun hs => hplain (.option hs))
    refine ⟨before, child, hfirst.wrap rfl fun other hmem hother => ?_⟩
    cases other with
    | none =>
      rw [children_none] at hmem
      cases hmem
    | some w => exact Decoder.map_eq_error_iff.mpr (option_eq_error_iff.mpr ⟨w, rfl, hother⟩)
  | mapped _ _ ih =>
    obtain ⟨before, child, hfirst⟩ := ih (Decoder.map_eq_error_iff.mp h) fun hs => hplain (.mapped hs)
    exact ⟨before, child, hfirst.wrap rfl fun _ _ => Decoder.map_eq_error_iff.mpr⟩
  | shared _ ih =>
    obtain ⟨before, child, hfirst⟩ := ih h fun hs => hplain (.shared hs)
    exact ⟨before, child, hfirst.wrap rfl fun _ _ => id⟩

/-- **Decoding fails fast**, on every level between the root and the target of the failure. -/
theorem failsFast_of_decoder {s : Schema} {input : Option Value} {failure : Failure}
    (h : s.decoder input = .error failure) : s.FailsFast input failure := by
  induction hpath : failure.path generalizing s input failure with
  | nil => exact .root hpath
  | cons step rest ih =>
    by_cases hplain : s.Plain
    · exact .plain hplain
    · have hne : failure.path ≠ [] := by simp [hpath]
      obtain ⟨before, child, hfirst⟩ := exists_firstFault h hne hplain
      refine .child hfirst fun inner hinner hunder => ih hinner ?_
      rw [hunder, Failure.path_under] at hpath
      exact (List.cons.inj hpath).2

/-- A duplicate two levels down ends decoding: the elements before it are sound, and neither the fault in
the next row nor the missing field counts. -/
theorem failsFast_of_decoder_duplicate :
    let s := Schema.record [("rows", .array (.set .string)), ("total", .number)]
    let input := some (Value.object [("rows", .array
      [.array [.string "a"], .array [.string "b", .string "a", .string "b"], .array [.null]])])
    let failure : Failure := ⟨[.field "rows", .index 1, .index 2], .duplicateValue 0⟩
    s.decoder input = .error failure ∧ s.FailsFast input failure := by
  intro s input failure
  have heqv : ∀ a b : String, (Output.text a).eqv (.text b) = (a == b) := fun a b => by rw [Output.eqv]
  have h : s.decoder input = .error failure := by
    simp [s, input, failure, Schema.decoder, fieldDecoders, Decoder.map, Decoder.record, recordFrom,
      expectObject, Decoder.field, Value.lookup, Entries.find?, Decoder.array, arrayFrom, Decoder.set,
      expectArray, setFrom, Decoder.string, heqv, List.findIdx?_cons, bind, Except.bind, Failure.under,
      Failure.ofCause]
  exact ⟨h, failsFast_of_decoder h⟩

end Schema

end TypedJson
