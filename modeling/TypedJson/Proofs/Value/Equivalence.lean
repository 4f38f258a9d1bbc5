import TypedJson.Proofs.Value.Canonical

/-!
# Numeric equality as an equivalence

Well-formed values are numerically equal exactly if they have one canonical form, and to have one canonical
form is an equivalence; so numeric equality, although it goes through the names on its left only, is
symmetric (`numericEq_symm`) and transitive (`numericEq_trans`).  Equal values have one canonical form as
well (`canonical_eq_of_eqv`), so equality is the finer one (`numericEq_of_eqv`).  The main statement adds
how containers are compared by their parts (`numericEq_equivalence`).
-/

namespace TypedJson

theorem Number.canonical_eq_of_eqv {m n : Number} (h : m.eqv n = true) :
    m.toBinary64.canonical = n.toBinary64.canonical := by
  cases m with
  | int m =>
    cases n with
    | int n =>
      obtain rfl := of_decide_eq_true h
      rfl
    | float y => cases h
  | float x =>
    cases n with
    | int n => cases h
    | float y => exact Binary64.eqv_iff_canonical.mp h

namespace Value

/-! ### Equal values -/

theorem canonicalItems_eq_of_eqvItems {vs ws : List Value}
    (h : ∀ v ∈ vs, ∀ w : Value, v.eqv w = true → v.canonical = w.canonical)
    (heq : eqvItems vs ws = true) : canonicalItems vs = canonicalItems ws := by
  rw [eqvItems_iff] at heq
  induction heq with
  | nil => rfl
  | @cons v w vs ws hvw _ ih =>
    obtain ⟨hv, hvs⟩ := List.forall_mem_cons.mp h
    rw [canonicalItems, canonicalItems, hv w hvw, ih hvs]

theorem canonicalEntries_eq_of_eqvEntries {es fs : List (String × Value)}
    (h : ∀ e ∈ es, ∀ w : Value, e.2.eqv w = true → e.2.canonical = w.canonical)
    (heq : eqvEntries es fs = true) : canonicalEntries es = canonicalEntries fs := by
  rw [eqvEntries_iff] at heq
  induction heq with
  | nil => rfl
  | @cons e f es fs hef _ ih =>
    obtain ⟨he, hes⟩ := List.forall_mem_cons.mp h
    rw [canonicalEntries, canonicalEntries, hef.1, he f.2 hef.2, ih hes]

/-- **Equal values have one canonical form.** -/
theorem canonical_eq_of_eqv {v w : Value} (h : v.eqv w = true) : v.canonical = w.canonical := by
  induction v using induction_parts generalizing w with
  | null =>
    cases w <;> simp only [eqv, Bool.false_eq_true] at h
    rfl
  | bool | string =>
    cases w <;> simp only [eqv, Bool.false_eq_true, beq_iff_eq] at h
    rw [h]
  | number m =>
    cases w <;> simp only [eqv, Bool.false_eq_true] at h
    simp only [canonical, Number.canonical_eq_of_eqv h]
  | array vs ih =>
    cases w <;> simp only [eqv, Bool.false_eq_true] at h
    simp only [canonical, canonicalItems_eq_of_eqvItems (fun v hv w hvw => ih v hv hvw) h]
  | object es ih =>
    cases w <;> simp only [eqv, Bool.false_eq_true] at h
    simp only [canonical, canonicalEntries_eq_of_eqvEntries (fun e he w hvw => ih e he hvw) h]

theorem numericEq_of_eqv {v w : Value} (hv : v.WellFormed) (h : v.eqv w = true) :
    v.numericEq w = true := by
  rw [← numericEq_canonical, ← canonical_eq_of_eqv h, numericEq_canonical]
  exact numericEq_self v hv

/-! ### The equivalence -/

theorem numericEq_symm {v w : Value} (hv : v.WellFormed) (hw : w.WellFormed)
    (h : v.numericEq w = true) : w.numericEq v = true :=
  (numericEq_iff_canonical hw hv).mpr ((numericEq_iff_canonical hv hw).mp h).symm

theorem numericEq_trans {u v w : Value} (hu : u.WellFormed) (hv : v.WellFormed) (hw : w.WellFormed)
    (h : u.numericEq v = true) (h' : v.numericEq w = true) : u.numericEq w = true :=
  (numericEq_iff_canonical hu hw).mpr
    (((numericEq_iff_canonical hu hv).mp h).trans ((numericEq_iff_canonical hv hw).mp h'))

/-- **Numeric equality is an equivalence of well-formed values.**  Equality implies it, objects are
related exactly if they have the same names and related values under each name, and arrays exactly if
they have the same length and related elements at each index. -/
theorem numericEq_equivalence :
    Equivalence (fun v w : {v : Value // v.WellFormed} => v.1.numericEq w.1 = true) ∧
    (∀ v w : Value, v.WellFormed → v.eqv w = true → v.numericEq w = true) ∧
    (∀ es fs : List (String × Value), Entries.Sorted Text.order es → Entries.Sorted Text.order fs →
      ((object es).numericEq (object fs) = true ↔
        (∀ name, name ∈ es.map Prod.fst ↔ name ∈ fs.map Prod.fst) ∧
          ∀ (name : String) (v w : Value), lookup name es = some v → lookup name fs = some w →
            v.numericEq w = true)) ∧
    (∀ vs ws : List Value, (array vs).numericEq (array ws) = true ↔
      vs.length = ws.length ∧
        ∀ (i : Nat) (v w : Value), vs[i]? = some v → ws[i]? = some w → v.numericEq w = true) := by
  refine ⟨⟨?refl, ?symm, ?trans⟩, ?equal, ?objects, ?arrays⟩
  case refl => exact fun v => numericEq_self v.1 v.2
  case symm => exact fun {v w} h => numericEq_symm v.2 w.2 h
  case trans => exact fun {u v w} h h' => numericEq_trans u.2 v.2 w.2 h h'
  case equal => exact fun v w hv h => numericEq_of_eqv hv h
  case objects => exact fun es fs hes hfs => numericEq_object_iff hes hfs
  case arrays => exact fun vs ws => numericEq_array_iff

/-- A point written with integers, with doubles, and with a negative zero.  The last two are equal, and
so all three are numerically equal, in either direction and down to their zeros. -/
theorem numericEq_equivalence_zeros :
    let one : Binary64 := ⟨false, Nat.pow 2 52, 1022, by decide, by decide, Or.inr (by decide)⟩
    let point (x y : Number) := [("at", array [number x, number y]), ("tag", string "o")]
    let es := point (.int 0) (.int 1)
    let fs := point (.float (.zero false)) (.float one)
    let gs := point (.float (.zero true)) (.float one)
    (object es).WellFormed ∧ (object fs).WellFormed ∧ (object gs).WellFormed ∧
      (object es).numericEq (object fs) = true ∧ (object fs).eqv (object gs) = true ∧
      (object gs).numericEq (object es) = true ∧
      (number (.int 0)).numericEq (number (.float (.zero true))) = true := by
  intro one point es fs gs
  obtain ⟨hequivalence, hequal, hobjects, harrays⟩ := numericEq_equivalence
  have hsorted : ∀ x y, Entries.Sorted Text.order (point x y) := by
    intro x y
    simp only [point, Entries.Sorted, List.pairwise_cons, List.mem_singleton, forall_eq]
    exact ⟨by decide, by simp⟩
  have hpoint : ∀ x y, (object (point x y)).WellFormed := by
    intro x y
    rw [WellFormed]
    exact ⟨hsorted x y, by simp [point, WellFormedEntries, WellFormed, WellFormedItems]⟩
  have hone : (Number.int 1).numericEq (.float one) = true := by decide +kernel
  have hzero : (Number.int 0).numericEq (.float (.zero false)) = true := by decide +kernel
  have hzeros : (Binary64.zero false).eqv (.zero true) = true := by decide +kernel
  have hef : (object es).numericEq (object fs) = true := by
    simp [es, fs, point, numericEq, numericEqItems, numericEqEntries, lookup, Entries.find?, hone, hzero]
  have hfg : (object fs).eqv (object gs) = true := by
    simp [fs, gs, point, eqv, eqvItems, eqvEntries, Number.eqv, hzeros, Binary64.eqv_refl]
  have heg : (object es).numericEq (object gs) = true :=
    hequivalence.trans (x := ⟨object es, hpoint _ _⟩) (y := ⟨object fs, hpoint _ _⟩)
      (z := ⟨object gs, hpoint _ _⟩) hef (hequal _ _ (hpoint _ _) hfg)
  have hge : (object gs).numericEq (object es) = true :=
    hequivalence.symm (x := ⟨object es, hpoint _ _⟩) (y := ⟨object gs, hpoint _ _⟩) heg
  have hat := ((hobjects es gs (hsorted _ _) (hsorted _ _)).mp heg).2 "at" _ _ rfl rfl
  have hfirst := ((harrays _ _).mp hat).2 0 _ _ rfl rfl
  exact ⟨hpoint _ _, hpoint _ _, hpoint _ _, hef, hfg, hge, hfirst⟩

end Value

end TypedJson
