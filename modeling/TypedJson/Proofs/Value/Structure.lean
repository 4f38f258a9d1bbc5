import TypedJson.Proofs.Binary64.Rounding
import TypedJson.Proofs.Value.Canonical

/-!
# Structural equality of values

Two values are structurally equal, numbers being compared by a relation of their own
(`Value.EqualBy`), if they have the same form and equal parts: arrays of the same length equal elements
at each index, objects with the same names equal entries under each name.

Numeric equality is structural equality by the nearest doubles (`numericEq_iff_equalBy`).  It is coarser than
structural equality by exact values (`EqualBy.sameDouble`), as a whole number with more than 53 bits
need not be a double, and it is no coarser on values whose numbers are doubles (`EqualBy.sameValue`).
-/

namespace TypedJson

namespace Number

/-- **The exact value in units**: an integer denotes itself. -/
def units : Number → Int
  | int n => n * Binary64.unitsPerOne
  | float x => x.units

/-- The numbers have the same exact value. -/
def SameValue (m n : Number) : Prop := m.units = n.units

instance (m n : Number) : Decidable (m.SameValue n) := inferInstanceAs (Decidable (m.units = n.units))

/-- The nearest doubles of the numbers have the same value. -/
def SameDouble (m n : Number) : Prop := m.toBinary64.units = n.toBinary64.units

/-- The number has the value of its nearest double. -/
def IsDouble (n : Number) : Prop := n.toBinary64.units = n.units

theorem isDouble_float (x : Binary64) : (float x).IsDouble := rfl

theorem isDouble_int {n : Int} (h : n.natAbs ≤ 2 ^ 53) : (int n).IsDouble :=
  Binary64.units_ofInt_of_natAbs_le h

/-- Different integers have different values. -/
theorem sameValue_int_iff {m n : Int} : (int m).SameValue (int n) ↔ m = n := by
  have hone : (Binary64.unitsPerOne : Int) ≠ 0 := by
    have hpos := Binary64.unitsPerOne_pos
    omega
  exact Int.mul_eq_mul_right_iff hone

/-- Rounding does not tell numbers of one value apart. -/
theorem SameValue.sameDouble {m n : Number} (h : m.SameValue n) : m.SameDouble n := by
  cases m with
  | int m =>
    cases n with
    | int n =>
      rw [sameValue_int_iff.mp h]
      rfl
    | float y => exact (Binary64.units_ofInt (x := y) h.symm).trans h
  | float x =>
    cases n with
    | int n => exact h.trans (Binary64.units_ofInt (x := x) h).symm
    | float y => exact h

theorem SameDouble.sameValue {m n : Number} (hm : m.IsDouble) (hn : n.IsDouble)
    (h : m.SameDouble n) : m.SameValue n :=
  hm.symm.trans (h.trans hn)

theorem sameDouble_iff_canonical {m n : Number} :
    m.SameDouble n ↔ m.toBinary64.canonical = n.toBinary64.canonical :=
  Binary64.eqv_iff.symm.trans Binary64.eqv_iff_canonical

end Number

namespace Value

/-- **The values are structurally equal**, numbers being compared by `same`. -/
inductive EqualBy (same : Number → Number → Prop) : Value → Value → Prop
  | null : EqualBy same null null
  | bool (b : Bool) : EqualBy same (bool b) (bool b)
  | number {m n : Number} (h : same m n) : EqualBy same (number m) (number n)
  | string (s : String) : EqualBy same (string s) (string s)
  | array {vs ws : List Value} (hlength : vs.length = ws.length)
    (h : ∀ (i : Nat) (v w : Value), vs[i]? = some v → ws[i]? = some w → EqualBy same v w) :
    EqualBy same (array vs) (array ws)
  | object {es fs : List (String × Value)}
    (hnames : ∀ name, (lookup name es).isSome = (lookup name fs).isSome)
    (h : ∀ (name : String) (v w : Value), lookup name es = some v → lookup name fs = some w →
      EqualBy same v w) :
    EqualBy same (object es) (object fs)

/-- Every number inside the value has the property. -/
inductive EachNumber (P : Number → Prop) : Value → Prop
  | null : EachNumber P null
  | bool (b : Bool) : EachNumber P (bool b)
  | number {n : Number} (h : P n) : EachNumber P (number n)
  | string (s : String) : EachNumber P (string s)
  | array {items : List Value} (h : ∀ v ∈ items, EachNumber P v) : EachNumber P (array items)
  | object {entries : List (String × Value)} (h : ∀ entry ∈ entries, EachNumber P entry.2) :
    EachNumber P (object entries)

/-- A relation of numbers that implies another one on the numbers inside does so for the values. -/
theorem EqualBy.imp {P : Number → Prop} {same same' : Number → Number → Prop}
    (himp : ∀ m n, P m → P n → same m n → same' m n) {v w : Value} (hv : v.EachNumber P)
    (hw : w.EachNumber P) (h : v.EqualBy same w) : v.EqualBy same' w := by
  induction h with
  | null => exact .null
  | bool b => exact .bool b
  | number h =>
    cases hv with
    | number hm =>
      cases hw with
      | number hn => exact .number (himp _ _ hm hn h)
  | string s => exact .string s
  | array hlength _ ih =>
    cases hv with
    | array hvs =>
      cases hw with
      | array hws =>
        exact .array hlength fun i v w hi hi' =>
          ih i v w hi hi' (hvs v (List.mem_of_getElem? hi)) (hws w (List.mem_of_getElem? hi'))
  | object hnames _ ih =>
    cases hv with
    | object hes =>
      cases hw with
      | object hfs =>
        exact .object hnames fun name v w hl hl' =>
          ih name v w hl hl' (hes _ (mem_of_lookup hl)) (hfs _ (mem_of_lookup hl'))

theorem eachNumber_true (v : Value) : v.EachNumber fun _ => True := by
  induction v using induction_parts with
  | null => exact .null
  | bool b => exact .bool b
  | number n => exact .number trivial
  | string s => exact .string s
  | array items ih => exact .array ih
  | object entries ih => exact .object ih

/-! ### Numeric equality -/

/-- **Well-formed values have one canonical form exactly if they are structurally equal**, numbers being
compared by their nearest doubles. -/
theorem canonical_eq_iff_equalBy {v w : Value} (hv : v.WellFormed) (hw : w.WellFormed) :
    v.canonical = w.canonical ↔ v.EqualBy Number.SameDouble w := by
  constructor
  · intro h
    induction v using induction_parts generalizing w with
    | null =>
      cases w <;> simp only [canonical, reduceCtorEq] at h
      exact .null
    | bool b =>
      cases w <;> simp only [canonical, reduceCtorEq, bool.injEq] at h
      exact h ▸ .bool b
    | number m =>
      cases w <;> simp only [canonical, reduceCtorEq, number.injEq, Number.float.injEq] at h
      exact .number (Number.sameDouble_iff_canonical.mpr h)
    | string s =>
      cases w <;> simp only [canonical, reduceCtorEq, string.injEq] at h
      exact h ▸ .string s
    | array vs ih =>
      cases w <;> simp only [canonical, reduceCtorEq, array.injEq] at h
      obtain ⟨hlength, hitems⟩ := canonicalItems_eq_iff.mp h
      refine .array hlength fun i v w hi hi' => ?_
      have hmem := List.mem_of_getElem? hi
      have hmem' := List.mem_of_getElem? hi'
      exact ih v hmem (hv.item hmem) (hw.item hmem') (hitems i v w hi hi')
    | object es ih =>
      cases w <;> simp only [canonical, reduceCtorEq, object.injEq] at h
      obtain ⟨hnames, hentries⟩ := (canonicalEntries_eq_iff hv.sorted hw.sorted).mp h
      refine .object hnames fun name v w hl hl' => ?_
      have hmem := mem_of_lookup hl
      have hmem' := mem_of_lookup hl'
      exact ih _ hmem (hv.entry hmem) (hw.entry hmem') (hentries name v w hl hl')
  · intro h
    induction h with
    | null => rfl
    | bool b => rfl
    | number h => simp only [canonical, Number.sameDouble_iff_canonical.mp h]
    | string s => rfl
    | array hlength _ ih =>
      have hitems := canonicalItems_eq_iff.mpr ⟨hlength, fun i v w hi hi' =>
        ih i v w hi hi' (hv.item (List.mem_of_getElem? hi)) (hw.item (List.mem_of_getElem? hi'))⟩
      simp only [canonical, hitems]
    | object hnames _ ih =>
      have hentries := (canonicalEntries_eq_iff hv.sorted hw.sorted).mpr ⟨hnames,
        fun name v w hl hl' =>
          ih name v w hl hl' (hv.entry (mem_of_lookup hl)) (hw.entry (mem_of_lookup hl'))⟩
      simp only [canonical, hentries]

/-- **Numeric equality is structural equality by the nearest doubles.** -/
theorem numericEq_iff_equalBy {v w : Value} (hv : v.WellFormed) (hw : w.WellFormed) :
    v.numericEq w = true ↔ v.EqualBy Number.SameDouble w :=
  (numericEq_iff_canonical hv hw).trans (canonical_eq_iff_equalBy hv hw)

/-- Values with the same exact numbers are numerically equal. -/
theorem EqualBy.sameDouble {v w : Value} (h : v.EqualBy Number.SameValue w) :
    v.EqualBy Number.SameDouble w :=
  h.imp (fun _ _ _ _ hmn => hmn.sameDouble) v.eachNumber_true w.eachNumber_true

/-- Numerically equal values whose numbers are doubles have the same exact numbers. -/
theorem EqualBy.sameValue {v w : Value} (hv : v.EachNumber Number.IsDouble)
    (hw : w.EachNumber Number.IsDouble) (h : v.EqualBy Number.SameDouble w) :
    v.EqualBy Number.SameValue w :=
  h.imp (fun _ _ hm hn hmn => hmn.sameValue hm hn) hv hw

end Value

end TypedJson
