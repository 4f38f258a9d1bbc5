import TypedJson.Proofs.Value.Parts

/-!
# Numeric equality of containers

What numeric equality says of arrays and objects.  Arrays of one length are compared element by element
(`numericEq_array_iff`).  Of two objects it is only asked whether they have equally many entries and each
on the left has an equal one on the right; as no name stands twice on either side, the names are then
the same, and no side is preferred (`numericEq_object_iff`).
-/

namespace TypedJson.Value

/-! ### Arrays -/

/-- Elements are compared as far as both lists go. -/
theorem numericEqItems_iff (vs ws : List Value) :
    numericEqItems vs ws = true ↔
      ∀ (i : Nat) (v w : Value), vs[i]? = some v → ws[i]? = some w → v.numericEq w = true := by
  induction vs generalizing ws with
  | nil => simp [numericEqItems]
  | cons v vs ih =>
    cases ws with
    | nil => simp [numericEqItems]
    | cons w ws =>
      rw [numericEqItems, Bool.and_eq_true, ih]
      constructor
      · rintro ⟨hhead, htail⟩ i a b ha hb
        cases i with
        | zero =>
          obtain rfl := Option.some.inj ha
          obtain rfl := Option.some.inj hb
          exact hhead
        | succ i => exact htail i a b ha hb
      · intro h
        exact ⟨h 0 v w rfl rfl, fun i a b ha hb => h (i + 1) a b ha hb⟩

/-- **Arrays are numerically equal exactly if they have the same length and equal elements at each
index.** -/
theorem numericEq_array_iff {vs ws : List Value} :
    (array vs).numericEq (array ws) = true ↔
      vs.length = ws.length ∧
        ∀ (i : Nat) (v w : Value), vs[i]? = some v → ws[i]? = some w → v.numericEq w = true := by
  rw [numericEq, Bool.and_eq_true, beq_iff_eq, numericEqItems_iff]

/-! ### Objects -/

section Objects
variable {es fs : List (String × Value)}

theorem numericEqEntries_iff :
    numericEqEntries es fs = true ↔
      ∀ entry ∈ es, ∃ w, lookup entry.1 fs = some w ∧ entry.2.numericEq w = true := by
  induction es with
  | nil => simp [numericEqEntries]
  | cons entry rest ih =>
    rw [numericEqEntries, Bool.and_eq_true, ih, List.forall_mem_cons]
    cases lookup entry.1 fs <;> simp

/-- Every name on the left leads to a value that is there on the right as well, up to numeric
equality. -/
theorem numericEqEntries_iff_lookup (hes : Entries.Sorted Text.order es) :
    numericEqEntries es fs = true ↔
      ∀ (name : String) (v : Value), lookup name es = some v →
        ∃ w, lookup name fs = some w ∧ v.numericEq w = true := by
  rw [numericEqEntries_iff]
  constructor
  · intro h name v hv
    exact h (name, v) (mem_of_lookup hv)
  · rintro h ⟨name, v⟩ hmem
    exact h name v (Entries.find?_of_mem hes hmem)

/-- **Objects are numerically equal exactly if they have the same names and equal values under each
name.** -/
theorem numericEq_object_iff (hes : Entries.Sorted Text.order es)
    (hfs : Entries.Sorted Text.order fs) :
    (object es).numericEq (object fs) = true ↔
      (∀ name, name ∈ es.map Prod.fst ↔ name ∈ fs.map Prod.fst) ∧
        ∀ (name : String) (v w : Value), lookup name es = some v → lookup name fs = some w →
          v.numericEq w = true := by
  rw [numericEq, Bool.and_eq_true, beq_iff_eq, numericEqEntries_iff_lookup hes]
  constructor
  · rintro ⟨hlength, hentries⟩
    -- the names on the left are names on the right, and equally many are all of them
    have hsubset : es.map Prod.fst ⊆ fs.map Prod.fst := by
      intro name hname
      obtain ⟨v, hv⟩ := mem_names_iff.mp hname
      obtain ⟨w, hw, -⟩ := hentries name v hv
      exact mem_names_iff.mpr ⟨w, hw⟩
    refine ⟨hes.mem_keys_iff_of_subset hlength hsubset, fun name v w hv hw => ?_⟩
    obtain ⟨w', hw', hvw⟩ := hentries name v hv
    obtain rfl := Option.some.inj (hw.symm.trans hw')
    exact hvw
  · rintro ⟨hnames, hvalues⟩
    refine ⟨hes.length_eq_of_keys hfs hnames, fun name v hv => ?_⟩
    obtain ⟨w, hw⟩ := mem_names_iff.mp ((hnames name).mp (mem_names_iff.mpr ⟨v, hv⟩))
    exact ⟨w, hw, hvalues name v w hv hw⟩

end Objects

end TypedJson.Value
