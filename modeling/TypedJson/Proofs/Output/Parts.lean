import TypedJson.Output.Equality
import TypedJson.Proofs.Value.Parts

/-!
# The parts of an output

What holds of an output whenever it holds of its parts holds of every output (`induction_parts`); the
keys of a map are parts like its values.  In this way equality of outputs is an equivalence: it is
reflexive (`eqv_self`), symmetric (`eqv_comm`) and transitive (`eqv_trans`), and the parts of equal
outputs correspond (`eqvItems_iff`, `eqvPairs_iff`, `eqvNamed_iff`).
-/

namespace TypedJson.Output

/-- Induction on outputs, where a form with parts may use what holds of each of them. -/
theorem induction_parts {P : Output → Prop} (unit : P unit) (bool : ∀ b, P (bool b))
    (int : ∀ n, P (int n)) (float : ∀ x, P (float x)) (text : ∀ s, P (text s))
    (date : ∀ i, P (date i)) (pair : ∀ a b, P a → P b → P (pair a b)) (none : P none)
    (some : ∀ x, P x → P (some x)) (list : ∀ items, (∀ x ∈ items, P x) → P (list items))
    (map : ∀ entries, (∀ entry ∈ entries, P entry.1 ∧ P entry.2) → P (map entries))
    (dict : ∀ entries, (∀ entry ∈ entries, P entry.2) → P (dict entries))
    (record : ∀ name fields, (∀ field ∈ fields, P field.2) → P (record name fields))
    (tag : ∀ name x, P x → P (tag name x)) (json : ∀ v, P (json v)) (x : Output) : P x := by
  refine @Output.rec P (fun items => ∀ x ∈ items, P x)
    (fun entries => ∀ entry ∈ entries, P entry.1 ∧ P entry.2)
    (fun entries => ∀ entry ∈ entries, P entry.2) (fun entry => P entry.1 ∧ P entry.2)
    (fun entry => P entry.2) unit bool int float text date pair none some list map dict record tag
    json ?_ ?_ ?_ ?_ ?_ ?_ ?_ ?_ x
  · simp
  · exact fun x rest hx hrest => List.forall_mem_cons.mpr ⟨hx, hrest⟩
  · simp
  · exact fun entry rest he hrest => List.forall_mem_cons.mpr ⟨he, hrest⟩
  · simp
  · exact fun entry rest he hrest => List.forall_mem_cons.mpr ⟨he, hrest⟩
  · exact fun _ _ hk hx => ⟨hk, hx⟩
  · exact fun _ _ hx => hx

theorem eqvItems_self {xs : List Output} (h : ∀ x ∈ xs, x.eqv x = true) : eqvItems xs xs = true := by
  induction xs with
  | nil => simp [eqvItems]
  | cons x xs ih =>
    obtain ⟨hx, hxs⟩ := List.forall_mem_cons.mp h
    simp [eqvItems, hx, ih hxs]

theorem eqvPairs_self {xs : List (Output × Output)}
    (h : ∀ e ∈ xs, e.1.eqv e.1 = true ∧ e.2.eqv e.2 = true) : eqvPairs xs xs = true := by
  induction xs with
  | nil => simp [eqvPairs]
  | cons e xs ih =>
    obtain ⟨k, x⟩ := e
    obtain ⟨⟨hk, hx⟩, hxs⟩ := List.forall_mem_cons.mp h
    simp [eqvPairs, hk, hx, ih hxs]

theorem eqvNamed_self {xs : List (String × Output)} (h : ∀ e ∈ xs, e.2.eqv e.2 = true) :
    eqvNamed xs xs = true := by
  induction xs with
  | nil => simp [eqvNamed]
  | cons e xs ih =>
    obtain ⟨name, x⟩ := e
    obtain ⟨hx, hxs⟩ := List.forall_mem_cons.mp h
    simp [eqvNamed, hx, ih hxs]

theorem eqv_self (x : Output) : x.eqv x = true := by
  induction x using induction_parts with
  | float x => simp only [eqv, Binary64.eqv_refl]
  | pair a b iha ihb => simp [eqv, iha, ihb]
  | some x ih => simp [eqv, ih]
  | list items ih => simp [eqv, eqvItems_self ih]
  | map entries ih => simp [eqv, eqvPairs_self ih]
  | dict entries ih => simp [eqv, eqvNamed_self ih]
  | record name fields ih => simp [eqv, eqvNamed_self ih]
  | tag name x ih => simp [eqv, ih]
  | json v => simp [eqv, Value.eqv_self]
  | _ => simp [eqv]

theorem eqvItems_comm {xs : List Output} (h : ∀ x ∈ xs, ∀ y : Output, x.eqv y = y.eqv x)
    (ys : List Output) : eqvItems xs ys = eqvItems ys xs := by
  induction xs generalizing ys with
  | nil => cases ys <;> simp only [eqvItems]
  | cons x xs ih =>
    obtain ⟨hx, hxs⟩ := List.forall_mem_cons.mp h
    cases ys with
    | nil => simp only [eqvItems]
    | cons y ys => simp only [eqvItems, hx y, ih hxs ys]

theorem eqvPairs_comm {xs : List (Output × Output)}
    (h : ∀ e ∈ xs, (∀ y : Output, e.1.eqv y = y.eqv e.1) ∧ ∀ y : Output, e.2.eqv y = y.eqv e.2)
    (ys : List (Output × Output)) : eqvPairs xs ys = eqvPairs ys xs := by
  induction xs generalizing ys with
  | nil => cases ys <;> simp only [eqvPairs]
  | cons e xs ih =>
    obtain ⟨k, x⟩ := e
    obtain ⟨⟨hk, hx⟩, hxs⟩ := List.forall_mem_cons.mp h
    rcases ys with _ | ⟨⟨l, y⟩, ys⟩
    · simp only [eqvPairs]
    · simp only [eqvPairs, hk l, hx y, ih hxs ys]

theorem eqvNamed_comm {xs : List (String × Output)}
    (h : ∀ e ∈ xs, ∀ y : Output, e.2.eqv y = y.eqv e.2) (ys : List (String × Output)) :
    eqvNamed xs ys = eqvNamed ys xs := by
  induction xs generalizing ys with
  | nil => cases ys <;> simp only [eqvNamed]
  | cons e xs ih =>
    obtain ⟨name, x⟩ := e
    obtain ⟨hx, hxs⟩ := List.forall_mem_cons.mp h
    rcases ys with _ | ⟨⟨other, y⟩, ys⟩
    · simp only [eqvNamed]
    · simp only [eqvNamed, hx y, ih hxs ys, BEq.comm (a := name)]

theorem eqv_comm (x y : Output) : x.eqv y = y.eqv x := by
  induction x using induction_parts generalizing y with
  | unit => cases y <;> simp only [eqv]
  | bool b => cases y <;> simp only [eqv, BEq.comm (a := b)]
  | int n => cases y <;> simp only [eqv, eq_comm (a := n)]
  | float x => cases y <;> simp only [eqv, Binary64.eqv, eq_comm (a := x.units)]
  | text s => cases y <;> simp only [eqv, BEq.comm (a := s)]
  | date i => cases y <;> simp only [eqv, eq_comm (a := i)]
  | pair a b iha ihb => cases y <;> simp only [eqv, iha, ihb]
  | none => cases y <;> simp only [eqv]
  | some x ih => cases y <;> simp only [eqv, ih]
  | list items ih => cases y <;> simp only [eqv, eqvItems_comm ih]
  | map entries ih => cases y <;> simp only [eqv, eqvPairs_comm ih]
  | dict entries ih => cases y <;> simp only [eqv, eqvNamed_comm ih]
  | record name fields ih => cases y <;> simp only [eqv, eqvNamed_comm ih, BEq.comm (a := name)]
  | tag name x ih => cases y <;> simp only [eqv, ih, BEq.comm (a := name)]
  | json v => cases y <;> simp only [eqv, Value.eqv_comm v]

/-- Lists are equal if their elements correspond. -/
theorem eqvItems_iff {xs ys : List Output} :
    eqvItems xs ys = true ↔ List.Forall₂ (fun x y => x.eqv y = true) xs ys := by
  induction xs generalizing ys with
  | nil => cases ys <;> simp [eqvItems]
  | cons x xs ih => cases ys <;> simp [eqvItems, ih]

/-- Entries are equal if they correspond, keys to keys and values to values. -/
theorem eqvPairs_iff {xs ys : List (Output × Output)} :
    eqvPairs xs ys = true ↔
      Entries.Related (fun k l => k.eqv l = true) (fun x y => x.eqv y = true) xs ys := by
  unfold Entries.Related
  induction xs generalizing ys with
  | nil => cases ys <;> simp [eqvPairs]
  | cons e xs ih =>
    obtain ⟨k, x⟩ := e
    rcases ys with _ | ⟨⟨l, y⟩, ys⟩ <;> simp [eqvPairs, ih]

/-- Named entries are equal if they correspond, names to the same names. -/
theorem eqvNamed_iff {xs ys : List (String × Output)} :
    eqvNamed xs ys = true ↔ Entries.Related Eq (fun x y => x.eqv y = true) xs ys := by
  unfold Entries.Related
  induction xs generalizing ys with
  | nil => cases ys <;> simp [eqvNamed]
  | cons e xs ih =>
    obtain ⟨name, x⟩ := e
    rcases ys with _ | ⟨⟨other, y⟩, ys⟩ <;> simp [eqvNamed, ih]

theorem eqvItems_congr_left {xs ys : List Output}
    (h : ∀ x ∈ xs, ∀ y : Output, x.eqv y = true → ∀ z : Output, x.eqv z = y.eqv z)
    (heq : eqvItems xs ys = true) (zs : List Output) : eqvItems xs zs = eqvItems ys zs := by
  rw [eqvItems_iff] at heq
  induction heq generalizing zs with
  | nil => rfl
  | @cons x y xs ys hxy _ ih =>
    obtain ⟨hx, hxs⟩ := List.forall_mem_cons.mp h
    cases zs <;> simp only [eqvItems, hx y hxy, ih hxs]

theorem eqvPairs_congr_left {xs ys : List (Output × Output)}
    (h : ∀ e ∈ xs, (∀ y : Output, e.1.eqv y = true → ∀ z : Output, e.1.eqv z = y.eqv z) ∧
      ∀ y : Output, e.2.eqv y = true → ∀ z : Output, e.2.eqv z = y.eqv z)
    (heq : eqvPairs xs ys = true) (zs : List (Output × Output)) :
    eqvPairs xs zs = eqvPairs ys zs := by
  rw [eqvPairs_iff] at heq
  induction heq generalizing zs with
  | nil => rfl
  | @cons e f xs ys hef _ ih =>
    obtain ⟨k, x⟩ := e
    obtain ⟨l, y⟩ := f
    obtain ⟨⟨hk, hx⟩, hxs⟩ := List.forall_mem_cons.mp h
    rcases zs with _ | ⟨⟨m, z⟩, zs⟩ <;> simp only [eqvPairs, hk l hef.1, hx y hef.2, ih hxs]

theorem eqvNamed_congr_left {xs ys : List (String × Output)}
    (h : ∀ e ∈ xs, ∀ y : Output, e.2.eqv y = true → ∀ z : Output, e.2.eqv z = y.eqv z)
    (heq : eqvNamed xs ys = true) (zs : List (String × Output)) :
    eqvNamed xs zs = eqvNamed ys zs := by
  rw [eqvNamed_iff] at heq
  induction heq generalizing zs with
  | nil => rfl
  | @cons e f xs ys hef _ ih =>
    obtain ⟨name, x⟩ := e
    obtain ⟨other, y⟩ := f
    obtain ⟨hx, hxs⟩ := List.forall_mem_cons.mp h
    obtain rfl : name = other := hef.1
    rcases zs with _ | ⟨⟨m, z⟩, zs⟩ <;> simp only [eqvNamed, hx y hef.2, ih hxs]

/-- Equal outputs are equal to the same outputs. -/
theorem eqv_congr_left {x y : Output} (h : x.eqv y = true) (z : Output) : x.eqv z = y.eqv z := by
  induction x using induction_parts generalizing y z with
  | unit | none =>
    cases y <;> simp only [eqv, Bool.false_eq_true] at h
    rfl
  | bool | int | text | date =>
    cases y <;> simp only [eqv, Bool.false_eq_true, beq_iff_eq, decide_eq_true_eq] at h
    rw [h]
  | float x =>
    cases y <;> simp only [eqv, Bool.false_eq_true, Binary64.eqv_iff] at h
    cases z <;> simp only [eqv, Binary64.eqv, h]
  | pair a b iha ihb =>
    cases y <;> simp only [eqv, Bool.false_eq_true, Bool.and_eq_true] at h
    cases z <;> simp only [eqv, iha h.1, ihb h.2]
  | some x ih =>
    cases y <;> simp only [eqv, Bool.false_eq_true] at h
    cases z <;> simp only [eqv, ih h]
  | list items ih =>
    cases y <;> simp only [eqv, Bool.false_eq_true] at h
    cases z <;> simp only [eqv, eqvItems_congr_left (fun x hx y hxy z => ih x hx hxy z) h]
  | map entries ih =>
    have hparts : ∀ e ∈ entries,
        (∀ y : Output, e.1.eqv y = true → ∀ z : Output, e.1.eqv z = y.eqv z) ∧
          ∀ y : Output, e.2.eqv y = true → ∀ z : Output, e.2.eqv z = y.eqv z :=
      fun e he => ⟨fun y hxy z => (ih e he).1 hxy z, fun y hxy z => (ih e he).2 hxy z⟩
    cases y <;> simp only [eqv, Bool.false_eq_true] at h
    cases z <;> simp only [eqv, eqvPairs_congr_left hparts h]
  | dict entries ih =>
    cases y <;> simp only [eqv, Bool.false_eq_true] at h
    cases z <;> simp only [eqv, eqvNamed_congr_left (fun e he y hxy z => ih e he hxy z) h]
  | record name fields ih =>
    cases y <;> simp only [eqv, Bool.false_eq_true, Bool.and_eq_true, beq_iff_eq] at h
    cases z <;>
      simp only [eqv, h.1, eqvNamed_congr_left (fun e he y hxy z => ih e he hxy z) h.2]
  | tag name x ih =>
    cases y <;> simp only [eqv, Bool.false_eq_true, Bool.and_eq_true, beq_iff_eq] at h
    cases z <;> simp only [eqv, h.1, ih h.2]
  | json v =>
    cases y <;> simp only [eqv, Bool.false_eq_true] at h
    cases z <;> simp only [eqv, Value.eqv_congr_left h]

theorem eqv_trans {x y z : Output} (h : x.eqv y = true) (h' : y.eqv z = true) : x.eqv z = true :=
  (eqv_congr_left h z).trans h'

end TypedJson.Output
