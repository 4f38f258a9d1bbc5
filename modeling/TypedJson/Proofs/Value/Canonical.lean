import TypedJson.Failure.Basic
import TypedJson.Value.Equality
import TypedJson.Proofs.Binary64.Canonical
import TypedJson.Proofs.Value.Depth
import TypedJson.Proofs.Value.NumericEquality

/-!
# The canonical form of a value

The spelling of its numbers is all that the canonical form of a value forgets: each number stands there
as its double, and a zero without its sign.  Two containers have one canonical form exactly if their parts
have (`canonicalItems_eq_iff`, `canonicalEntries_eq_iff`).  Well-formed values are numerically equal exactly
if their canonical forms are one value (`numericEq_iff_canonical`), so numeric equality is an equivalence,
and what a decoder asks of a value (what a literal compares with, the kind, the entry under a name, the
depth) has the same answer for the canonical form.
-/

namespace TypedJson.Value

mutual

/-- The same value with each number as a double, and each zero positive. -/
def canonical : Value → Value
  | null => null
  | bool b => bool b
  | number n => number (.float n.toBinary64.canonical)
  | string s => string s
  | array items => array (canonicalItems items)
  | object entries => object (canonicalEntries entries)

/-- The canonical form of each element. -/
def canonicalItems : List Value → List Value
  | [] => []
  | v :: rest => canonical v :: canonicalItems rest

/-- The canonical form of each entry. -/
def canonicalEntries : List (String × Value) → List (String × Value)
  | [] => []
  | (name, v) :: rest => (name, canonical v) :: canonicalEntries rest

end

theorem canonicalItems_eq_map (items : List Value) : canonicalItems items = items.map canonical := by
  induction items with
  | nil => simp [canonicalItems]
  | cons v rest ih => simp [canonicalItems, ih]

theorem canonicalEntries_eq_map (entries : List (String × Value)) :
    canonicalEntries entries = entries.map fun entry => (entry.1, entry.2.canonical) := by
  induction entries with
  | nil => simp [canonicalEntries]
  | cons entry rest ih => simp [canonicalEntries, ih]

@[simp] theorem length_canonicalItems (items : List Value) :
    (canonicalItems items).length = items.length := by
  rw [canonicalItems_eq_map, List.length_map]

@[simp] theorem length_canonicalEntries (entries : List (String × Value)) :
    (canonicalEntries entries).length = entries.length := by
  rw [canonicalEntries_eq_map, List.length_map]

@[simp] theorem lookup_canonicalEntries (name : String) (entries : List (String × Value)) :
    lookup name (canonicalEntries entries) = (lookup name entries).map canonical := by
  unfold lookup
  induction entries with
  | nil => rfl
  | cons entry rest ih =>
    rw [canonicalEntries, Entries.find?, Entries.find?, ih]
    split <;> rfl

theorem sorted_canonicalEntries {entries : List (String × Value)}
    (h : Entries.Sorted Text.order entries) : Entries.Sorted Text.order (canonicalEntries entries) := by
  rw [canonicalEntries_eq_map]
  exact List.pairwise_map.mpr h

/-! ### What the canonical form keeps -/

theorem of_canonical (input : Option Value) : Kind.of (input.map canonical) = Kind.of input := by
  rcases input with _ | _ | _ | _ | _ | _ | _ <;> rfl

theorem shapeText_canonical (input : Option Value) :
    shapeText (input.map canonical) = shapeText input := by
  cases input with
  | none => rfl
  | some v =>
    cases v with
    | array items =>
      show "array of length " ++ toString (canonicalItems items).length =
        "array of length " ++ toString items.length
      rw [length_canonicalItems]
    | _ => rfl

theorem numericEq_float_canonical (m n : Number) :
    m.numericEq (.float n.toBinary64.canonical) = m.numericEq n := by
  have hfloat : (Number.float n.toBinary64.canonical).toBinary64 = n.toBinary64.canonical := rfl
  simp only [Number.numericEq, hfloat, Binary64.eqv, Binary64.units_canonical]

theorem numericEqItems_canonical {vs : List Value}
    (h : ∀ v ∈ vs, ∀ w : Value, v.numericEq w.canonical = v.numericEq w) (ws : List Value) :
    numericEqItems vs (canonicalItems ws) = numericEqItems vs ws := by
  induction vs generalizing ws with
  | nil => simp only [numericEqItems]
  | cons v vs ih =>
    obtain ⟨hv, hvs⟩ := List.forall_mem_cons.mp h
    cases ws <;> simp only [canonicalItems, numericEqItems, hv, ih hvs]

theorem numericEqEntries_canonical {es : List (String × Value)}
    (h : ∀ e ∈ es, ∀ w : Value, e.2.numericEq w.canonical = e.2.numericEq w)
    (entries : List (String × Value)) :
    numericEqEntries es (canonicalEntries entries) = numericEqEntries es entries := by
  induction es with
  | nil => simp only [numericEqEntries]
  | cons e es ih =>
    obtain ⟨name, v⟩ := e
    obtain ⟨hv, hes⟩ := List.forall_mem_cons.mp h
    rw [numericEqEntries, numericEqEntries, lookup_canonicalEntries, ih hes]
    cases lookup name entries with
    | none => rfl
    | some w => simp only [Option.map_some, hv]

/-- Numeric equality does not look behind the canonical form of its right side. -/
theorem numericEq_canonical (v w : Value) : v.numericEq w.canonical = v.numericEq w := by
  induction v using induction_parts generalizing w with
  | number m => cases w <;> simp only [canonical, numericEq, numericEq_float_canonical]
  | array vs ih =>
    cases w <;> simp only [canonical, numericEq, length_canonicalItems, numericEqItems_canonical ih]
  | object es ih =>
    cases w <;>
      simp only [canonical, numericEq, length_canonicalEntries, numericEqEntries_canonical ih]
  | _ => cases w <;> simp only [canonical, numericEq]

section Parts
variable {vs ws : List Value} {es fs : List (String × Value)}

/-- Arrays have one canonical form if they have the same length and at each index values of one
canonical form. -/
theorem canonicalItems_eq_iff :
    canonicalItems vs = canonicalItems ws ↔ vs.length = ws.length ∧
      ∀ (i : Nat) (v w : Value), vs[i]? = some v → ws[i]? = some w → v.canonical = w.canonical := by
  rw [canonicalItems_eq_map, canonicalItems_eq_map]
  constructor
  · intro h
    refine ⟨by simpa using congrArg List.length h, fun i v w hv hw => ?_⟩
    have hi := congrArg (fun items : List Value => items[i]?) h
    simpa [hv, hw] using hi
  · rintro ⟨hlength, h⟩
    refine List.ext_getElem (by simpa using hlength) fun i hi hi' => ?_
    rw [List.getElem_map, List.getElem_map]
    exact h i _ _ (List.getElem?_eq_getElem _) (List.getElem?_eq_getElem _)

/-- Objects have one canonical form if they have the same names and under each name values of one
canonical form. -/
theorem canonicalEntries_eq_iff (hes : Entries.Sorted Text.order es)
    (hfs : Entries.Sorted Text.order fs) :
    canonicalEntries es = canonicalEntries fs ↔
      (∀ name, (lookup name es).isSome = (lookup name fs).isSome) ∧
        ∀ (name : String) (v w : Value), lookup name es = some v → lookup name fs = some w →
          v.canonical = w.canonical := by
  constructor
  · intro h
    have hlookup : ∀ name, (lookup name es).map canonical = (lookup name fs).map canonical := by
      intro name
      rw [← lookup_canonicalEntries, h, lookup_canonicalEntries]
    refine ⟨fun name => by simpa using congrArg Option.isSome (hlookup name), ?_⟩
    intro name v w hv hw
    simpa [hv, hw] using hlookup name
  · rintro ⟨hnames, h⟩
    refine (sorted_canonicalEntries hes).eq_of_find?_eq (sorted_canonicalEntries hfs) fun name => ?_
    refine (lookup_canonicalEntries name es).trans (Eq.trans ?_ (lookup_canonicalEntries name fs).symm)
    have hname := hnames name
    cases hv : lookup name es with
    | none =>
      rw [hv, Option.isSome_none, eq_comm, Option.isSome_eq_false_iff, Option.isNone_iff_eq_none] at hname
      rw [hname]
    | some v =>
      rw [hv, Option.isSome_some, eq_comm, Option.isSome_iff_exists] at hname
      obtain ⟨w, hw⟩ := hname
      rw [hw, Option.map_some, Option.map_some, h name v w hv hw]

end Parts

/-- A well-formed value is numerically equal to itself. -/
theorem numericEq_self (v : Value) (hw : v.WellFormed) : v.numericEq v = true := by
  induction v using induction_parts with
  | null => simp [numericEq]
  | bool b => simp [numericEq]
  | number n => simp [numericEq, Number.numericEq, Binary64.eqv_refl]
  | string s => simp [numericEq]
  | array items ih =>
    refine numericEq_array_iff.mpr ⟨rfl, fun i v w hv hw' => ?_⟩
    obtain rfl := Option.some.inj (hv.symm.trans hw')
    have hmem := List.mem_of_getElem? hv
    exact ih v hmem (hw.item hmem)
  | object entries ih =>
    refine (numericEq_object_iff hw.sorted hw.sorted).mpr ⟨fun _ => Iff.rfl, fun name v w hv hw' => ?_⟩
    obtain rfl := Option.some.inj (hv.symm.trans hw')
    have hmem := mem_of_lookup hv
    exact ih _ hmem (hw.entry hmem)

/-- Numerically equal well-formed values have one canonical form. -/
theorem canonical_eq_of_numericEq {v w : Value} (hv : v.WellFormed) (hw : w.WellFormed)
    (h : v.numericEq w = true) : v.canonical = w.canonical := by
  induction v using induction_parts generalizing w with
  | number m =>
    cases w <;> simp only [numericEq, Bool.false_eq_true] at h
    simp only [canonical, Binary64.eqv_iff_canonical.mp h]
  | array vs ih =>
    cases w with
    | array ws =>
      obtain ⟨hlength, hitems⟩ := numericEq_array_iff.mp h
      have hcanonical := canonicalItems_eq_iff.mpr ⟨hlength, fun i v w hi hi' =>
        have hmem := List.mem_of_getElem? hi
        ih v hmem (hv.item hmem) (hw.item (List.mem_of_getElem? hi')) (hitems i v w hi hi')⟩
      simp only [canonical, hcanonical]
    | _ => simp only [numericEq, Bool.false_eq_true] at h
  | object es ih =>
    cases w with
    | object fs =>
      obtain ⟨hnames, hvalues⟩ := (numericEq_object_iff hv.sorted hw.sorted).mp h
      have hcanonical := (canonicalEntries_eq_iff hv.sorted hw.sorted).mpr
        ⟨same_names_iff.mpr hnames, fun name v w hl hl' =>
          have hmem := mem_of_lookup hl
          ih _ hmem (hv.entry hmem) (hw.entry (mem_of_lookup hl')) (hvalues name v w hl hl')⟩
      simp only [canonical, hcanonical]
    | _ => simp only [numericEq, Bool.false_eq_true] at h
  | _ => cases w <;> simp_all [numericEq]

/-- **Well-formed values are numerically equal exactly if they have one canonical form.** -/
theorem numericEq_iff_canonical {v w : Value} (hv : v.WellFormed) (hw : w.WellFormed) :
    v.numericEq w = true ↔ v.canonical = w.canonical := by
  refine ⟨canonical_eq_of_numericEq hv hw, fun h => ?_⟩
  rw [← numericEq_canonical, ← h, numericEq_canonical]
  exact numericEq_self v hv

/-! ### Inputs of different spelling -/

/-- Numeric equality of inputs: nothing equals only nothing. -/
def numericEqInput : Option Value → Option Value → Bool
  | none, none => true
  | some v, some w => numericEq v w
  | _, _ => false

/-- **Two well-formed inputs that differ in the spelling of numbers only.** -/
structure Respelled (a b : Option Value) : Prop where
  left : WellFormedInput a
  right : WellFormedInput b
  canonical_eq : a.map canonical = b.map canonical

/-- Two well-formed values that differ in the spelling of numbers only. -/
def RespelledValue (v w : Value) : Prop := Respelled (some v) (some w)

theorem respelledValue_iff {v w : Value} :
    RespelledValue v w ↔ v.WellFormed ∧ w.WellFormed ∧ v.canonical = w.canonical :=
  ⟨fun h => ⟨h.left, h.right, Option.some.inj h.canonical_eq⟩,
    fun ⟨hv, hw, h⟩ => ⟨hv, hw, congrArg some h⟩⟩

namespace Respelled

variable {a b : Option Value}

theorem symm (h : Respelled a b) : Respelled b a := ⟨h.right, h.left, h.canonical_eq.symm⟩

theorem numericEqInput (h : Respelled a b) : numericEqInput a b = true := by
  obtain ⟨ha, hb, heq⟩ := h
  cases a <;> cases b
  · rfl
  · cases heq
  · cases heq
  · exact (numericEq_iff_canonical ha hb).mpr (Option.some.inj heq)

theorem kind (h : Respelled a b) : Kind.of a = Kind.of b := by
  rw [← of_canonical a, h.canonical_eq, of_canonical]

theorem shapeText (h : Respelled a b) : shapeText a = shapeText b := by
  rw [← shapeText_canonical a, h.canonical_eq, shapeText_canonical]

theorem present (h : Respelled a b) : Option.Rel RespelledValue a b := by
  cases a <;> cases b
  · exact .none
  · cases h.canonical_eq
  · cases h.canonical_eq
  · exact .some h

end Respelled

theorem respelled_items {vs ws : List Value} (hvs : ∀ v ∈ vs, v.WellFormed)
    (hws : ∀ w ∈ ws, w.WellFormed) (h : canonicalItems vs = canonicalItems ws) :
    List.Forall₂ RespelledValue vs ws := by
  induction vs generalizing ws with
  | nil =>
    cases ws with
    | nil => exact .nil
    | cons w ws => cases h
  | cons v vs ih =>
    cases ws with
    | nil => cases h
    | cons w ws =>
      obtain ⟨hv, hvs⟩ := List.forall_mem_cons.mp hvs
      obtain ⟨hw, hws⟩ := List.forall_mem_cons.mp hws
      obtain ⟨hhead, htail⟩ := List.cons.inj h
      exact .cons (respelledValue_iff.mpr ⟨hv, hw, hhead⟩) (ih hvs hws htail)

theorem respelled_entries {es es' : List (String × Value)} (hes : ∀ e ∈ es, e.2.WellFormed)
    (hes' : ∀ e ∈ es', e.2.WellFormed) (h : canonicalEntries es = canonicalEntries es') :
    Entries.Related Eq RespelledValue es es' := by
  induction es generalizing es' with
  | nil =>
    cases es' with
    | nil => exact .nil
    | cons e' es' => cases h
  | cons e es ih =>
    cases es' with
    | nil => cases h
    | cons e' es' =>
      obtain ⟨hv, hes⟩ := List.forall_mem_cons.mp hes
      obtain ⟨hw, hes'⟩ := List.forall_mem_cons.mp hes'
      obtain ⟨hhead, htail⟩ := List.cons.inj h
      obtain ⟨hname, hvalue⟩ := Prod.mk.inj hhead
      exact .cons ⟨hname, respelledValue_iff.mpr ⟨hv, hw, hvalue⟩⟩ (ih hes hes' htail)

/-- Respelling an array is respelling its elements. -/
theorem Respelled.array {vs : List Value} {b : Option Value} (h : Respelled (some (.array vs)) b) :
    ∃ ws, b = some (.array ws) ∧ List.Forall₂ RespelledValue vs ws := by
  obtain ⟨ha, hb, heq⟩ := h
  rcases b with _ | _ | _ | _ | _ | ws | es <;>
    simp only [Option.map_some, Option.map_none, canonical, Option.some.injEq, array.injEq,
      reduceCtorEq] at heq
  exact ⟨ws, rfl, respelled_items (fun _ hv => ha.item hv) (fun _ hw => hb.item hw) heq⟩

/-- Respelling an object is respelling its entries. -/
theorem Respelled.object {es : List (String × Value)} {b : Option Value}
    (h : Respelled (some (.object es)) b) :
    ∃ es', b = some (.object es') ∧ Entries.Related Eq RespelledValue es es' := by
  obtain ⟨ha, hb, heq⟩ := h
  rcases b with _ | _ | _ | _ | _ | ws | es' <;>
    simp only [Option.map_some, Option.map_none, canonical, Option.some.injEq, object.injEq,
      reduceCtorEq] at heq
  exact ⟨es', rfl, respelled_entries (fun _ he => ha.entry he) (fun _ he => hb.entry he) heq⟩

end TypedJson.Value
