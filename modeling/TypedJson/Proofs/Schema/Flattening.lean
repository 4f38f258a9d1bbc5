import TypedJson.Proofs.Decoder.Successes
import TypedJson.Proofs.Schema.BuiltFrom

/-!
# Nested unions are flat

The alternatives of a union may be unions themselves.  A tree of unions (`UnionTree`) stands for such a
schema, and the union of its leaves from left to right is the schema without the nesting.  Both take the
first success among the leaves.  If all leaves fail, the failure of the tree carries theirs in nested
lists, and to replace the failure of each inner union by its own list gives the list of the flat union
(`decodes_as_flat_union`).

Nesting is the append of lists of alternatives (`Decoder.firstSuccess_append`), so one lemma on a tree in
front of other alternatives (`IsFlat.firstSuccess_splice`) carries the induction.
-/

namespace TypedJson

/-- **A tree of unions.** -/
inductive UnionTree where
  /-- An alternative, whatever it is. -/
  | leaf (schema : Schema)
  /-- A union of a list. -/
  | union (alternatives : List UnionTree)
  /-- A union of at least two alternatives written out in place. -/
  | choice (first second : UnionTree) (rest : List UnionTree)

namespace UnionTree

/-- The root is a union. -/
def IsUnion : UnionTree → Prop
  | leaf _ => False
  | _ => True

mutual

/-- The schema with its unions nested as in the tree. -/
def schema : UnionTree → Schema
  | leaf s => s
  | union alternatives => .union (schemas alternatives)
  | choice a b rest => .choice a.schema b.schema (schemas rest)

/-- The schema of each tree. -/
def schemas : List UnionTree → List Schema
  | [] => []
  | t :: rest => t.schema :: schemas rest

end

mutual

/-- The leaves from left to right. -/
def leaves : UnionTree → List Schema
  | leaf s => [s]
  | union alternatives => leavesOf alternatives
  | choice a b rest => a.leaves ++ (b.leaves ++ leavesOf rest)

/-- The leaves of all trees. -/
def leavesOf : List UnionTree → List Schema
  | [] => []
  | t :: rest => t.leaves ++ leavesOf rest

end

/-- The failure of a union, replaced by what becomes of its list; any other failure stays. -/
def replaced (inside : List Failure → List Failure) (e : Failure) : List Failure :=
  match e.cause with
  | .unionExhausted failures => inside failures
  | _ => [e]

/-- The first failure replaced by a list, in front of what becomes of the others. -/
def splice (first : Failure → List Failure) (others : List Failure → List Failure) :
    List Failure → List Failure
  | [] => []
  | e :: rest => first e ++ others rest

mutual

/-- **The failures of the leaves**, from the failure of the tree: the failure of every union is replaced
by its own list, recursively. -/
def leafFailures : UnionTree → Failure → List Failure
  | leaf _ => fun e => [e]
  | union alternatives => replaced (spliced alternatives)
  | choice a b rest => replaced (splice a.leafFailures (splice b.leafFailures (spliced rest)))

/-- The same for the failures of alternatives, each with its tree. -/
def spliced : List UnionTree → List Failure → List Failure
  | [] => id
  | t :: rest => splice t.leafFailures (spliced rest)

end

/-- Induction on trees, where one may use what holds of the parts. -/
theorem induction_parts {P : UnionTree → Prop} (leaf : ∀ s, P (leaf s))
    (union : ∀ alternatives, (∀ t ∈ alternatives, P t) → P (union alternatives))
    (choice : ∀ a b rest, P a → P b → (∀ t ∈ rest, P t) → P (choice a b rest)) (t : UnionTree) :
    P t := by
  refine @UnionTree.rec P (fun trees => ∀ t ∈ trees, P t) leaf union choice ?_ ?_ t
  · simp
  · exact fun t rest ht hrest => List.forall_mem_cons.mpr ⟨ht, hrest⟩

open Decoder

variable {input : Option Value}

/-- **The leaves decode as the tree does**, and their failures are those that its failure carries. -/
def IsFlat (input : Option Value) (t : UnionTree) : Prop :=
  firstSuccess input (decoders t.leaves) = (t.schema.decoder input).mapError t.leafFailures

/-- A tree in front of other alternatives. -/
theorem IsFlat.firstSuccess_splice {t : UnionTree} (ht : t.IsFlat input) {nested flat : List Schema}
    {inside : List Failure → List Failure}
    (hrest : firstSuccess input (decoders flat) =
      (firstSuccess input (decoders nested)).mapError inside) :
    firstSuccess input (decoders (t.leaves ++ flat)) =
      (firstSuccess input (decoders (t.schema :: nested))).mapError
        (splice t.leafFailures inside) := by
  rw [decoders_eq_map, List.map_append, ← decoders_eq_map, ← decoders_eq_map, firstSuccess_append, ht,
    hrest, decoders, firstSuccess_cons]
  cases t.schema.decoder input with
  | ok x => rfl
  | error e => cases firstSuccess input (decoders nested) <;> rfl

theorem firstSuccess_leavesOf {trees : List UnionTree} (h : ∀ t ∈ trees, t.IsFlat input) :
    firstSuccess input (decoders (leavesOf trees)) =
      (firstSuccess input (decoders (schemas trees))).mapError (spliced trees) := by
  induction trees with
  | nil => simp [leavesOf, schemas, decoders, firstSuccess, spliced, Except.mapError]
  | cons t rest ih =>
    obtain ⟨ht, hrest⟩ := List.forall_mem_cons.mp h
    rw [leavesOf, schemas, spliced]
    exact ht.firstSuccess_splice (ih hrest)

/-- Every tree is flat: a union hands its list of failures to what is done with its alternatives. -/
theorem isFlat (t : UnionTree) : t.IsFlat input := by
  induction t using induction_parts with
  | leaf s =>
    rw [IsFlat, leaves, schema, leafFailures, decoders, decoders, firstSuccess_cons, firstSuccess]
    cases s.decoder input <;> rfl
  | union alternatives ih =>
    rw [IsFlat, leaves, schema, leafFailures, firstSuccess_leavesOf ih, Schema.decoder,
      union_eq_mapError]
    cases firstSuccess input (decoders (schemas alternatives)) <;> rfl
  | choice a b rest iha ihb ih =>
    have hrest := ihb.firstSuccess_splice (firstSuccess_leavesOf ih)
    rw [IsFlat, leaves, schema, leafFailures, iha.firstSuccess_splice hrest, Schema.decoder,
      union_eq_mapError, decoders, decoders]
    cases firstSuccess input (a.schema.decoder :: b.schema.decoder :: decoders (schemas rest)) <;> rfl

theorem succeeds_iff_firstSuccess (t : UnionTree) {x : Output} :
    t.schema.decoder input = .ok x ↔ firstSuccess input (decoders t.leaves) = .ok x := by
  rw [t.isFlat]
  cases t.schema.decoder input <;> simp [Except.mapError]

theorem firstSuccess_of_error (t : UnionTree) {e : Failure} (h : t.schema.decoder input = .error e) :
    firstSuccess input (decoders t.leaves) = .error (t.leafFailures e) := by
  rw [t.isFlat, h]
  rfl

/-- A union fails at its own root, for want of an alternative. -/
theorem IsUnion.eq_unionExhausted {t : UnionTree} (hunion : t.IsUnion) {e : Failure}
    (h : t.schema.decoder input = .error e) : ∃ failures, e = .ofCause (.unionExhausted failures) := by
  cases t with
  | leaf s => exact hunion.elim
  | union | choice =>
    obtain ⟨failures, -, rfl⟩ := union_eq_error_iff.mp h
    exact ⟨failures, rfl⟩

/-- **Nested unions are flat, and the first success wins.**  A tree of unions succeeds exactly if one of
its leaves does, with the output of the first leaf that does, as the union of the leaves without nesting.
If all fail, so does the tree, at the root and for want of an alternative, and its failure carries the
failures of the leaves, all of them and in their order. -/
theorem decodes_as_flat_union (t : UnionTree) (hunion : t.IsUnion) (input : Option Value) :
    ((∃ x, t.schema.decoder input = .ok x) ↔ ∃ d ∈ t.leaves, ∃ x, d.decoder input = .ok x) ∧
    (∀ x, t.schema.decoder input = .ok x ↔
      ∃ before d after, t.leaves = before ++ d :: after ∧
        (∀ b ∈ before, ∃ e, b.decoder input = .error e) ∧ d.decoder input = .ok x) ∧
    (∀ x, t.schema.decoder input = .ok x ↔ (Schema.union t.leaves).decoder input = .ok x) ∧
    ∀ e, t.schema.decoder input = .error e →
      e.path = [] ∧ (∃ failures, e.cause = .unionExhausted failures) ∧
      t.leaves.map (fun d => d.decoder input) = (t.leafFailures e).map .error ∧
      (Schema.union t.leaves).decoder input = .error ⟨[], .unionExhausted (t.leafFailures e)⟩ := by
  have hfirst : ∀ x, t.schema.decoder input = .ok x ↔
      ∃ before d after, t.leaves = before ++ d :: after ∧
        (∀ b ∈ before, ∃ e, b.decoder input = .error e) ∧ d.decoder input = .ok x := by
    intro x
    rw [t.succeeds_iff_firstSuccess, decoders_eq_map, firstSuccess_eq_ok_iff, exists_split_map]
    simp only [List.forall_mem_map]
  have hflat : ∀ x, t.schema.decoder input = .ok x ↔ (Schema.union t.leaves).decoder input = .ok x := by
    intro x
    rw [t.succeeds_iff_firstSuccess, Schema.decoder, union_eq_ok_iff]
  refine ⟨?_, hfirst, hflat, fun e he => ?_⟩
  · rw [exists_congr hflat, Schema.decoder, union_succeeds_iff, decoders_eq_map]
    simp only [List.mem_map, exists_exists_and_eq_and]
  · have hrun := t.firstSuccess_of_error he
    obtain ⟨failures, rfl⟩ := hunion.eq_unionExhausted he
    refine ⟨rfl, ⟨failures, rfl⟩, ?_, ?_⟩
    · rwa [decoders_eq_map, firstSuccess_eq_error_iff, List.map_map] at hrun
    · rw [Schema.decoder, union_eq_mapError, hrun]
      rfl

/-- A choice that holds an empty union and a union with a choice inside: four leaves, four failures. -/
theorem decodes_as_flat_union_nested :
    let t := choice (leaf (.text "a")) (union [])
      [union [leaf .null, choice (leaf (.text "b")) (leaf .number) []]]
    let mismatch (s : String) : Failure := ⟨[], .valueMismatch (.string s) (some (.bool true))⟩
    let e : Failure := ⟨[], .unionExhausted
      [mismatch "a", ⟨[], .unionExhausted []⟩, ⟨[], .unionExhausted
        [⟨[], .typeMismatch "null" .boolean⟩, ⟨[], .unionExhausted
          [mismatch "b", ⟨[], .typeMismatch "number" .boolean⟩]⟩]⟩]⟩
    t.IsUnion ∧ t.schema.decoder (some (.bool true)) = .error e ∧
      (Schema.union t.leaves).decoder (some (.bool true)) = .error ⟨[], .unionExhausted
        [mismatch "a", ⟨[], .typeMismatch "null" .boolean⟩, mismatch "b",
          ⟨[], .typeMismatch "number" .boolean⟩]⟩ := by
  intro t mismatch e
  have he : t.schema.decoder (some (.bool true)) = .error e := rfl
  exact ⟨trivial, he, ((decodes_as_flat_union t trivial _).2.2.2 e he).2.2.2⟩

end UnionTree

end TypedJson
