import TypedJson.Decoder.Choice
import TypedJson.Decoder.Object
import TypedJson.Decoder.Sequence
import TypedJson.Proofs.Entries

/-!
# Two runs of one decoder

Two results *agree* if both are successes with related outputs or both are failures that are related
(`Agree`).  If the results on the parts of two containers agree one by one, so do the results on the
containers: each combinator runs over both in step, and the first fault on the one side is the first on
the other.  Only three things are asked of the relation of failures (`Failure.Congruence`), and of the
relation of outputs that sets and maps do not tell related outputs apart.
-/

namespace TypedJson

/-- A relation of failures that goes along with decoding. -/
structure Failure.Congruence (E : Failure → Failure → Prop) : Prop where
  refl : ∀ e, E e e
  under : ∀ {e f}, E e f → ∀ step, E (e.under step) (f.under step)
  union : ∀ {es fs}, List.Forall₂ E es fs →
    E (.ofCause (.unionExhausted es)) (.ofCause (.unionExhausted fs))

theorem Failure.congruence_eq : Failure.Congruence Eq where
  refl _ := rfl
  under h _ := by rw [h]
  union h := by
    rw [List.forall₂_eq_eq_eq] at h
    rw [h]

/-- Both results are successes related by `R`, or both are failures related by `E`. -/
inductive Agree {ε α β : Type} (E : ε → ε → Prop) (R : α → β → Prop) :
    Except ε α → Except ε β → Prop
  | ok {x : α} {y : β} (h : R x y) : Agree E R (.ok x) (.ok y)
  | error {e f : ε} (h : E e f) : Agree E R (.error e) (.error f)

namespace Agree

variable {ε α β γ δ : Type} {E : ε → ε → Prop} {R : α → β → Prop} {S : γ → δ → Prop}

/-- The results behind an agreement. -/
theorem results {r : Except ε α} {s : Except ε β} (h : Agree E R r s) :
    (∃ x y, r = .ok x ∧ s = .ok y ∧ R x y) ∨ ∃ e f, r = .error e ∧ s = .error f ∧ E e f := by
  cases h with
  | ok hxy => exact Or.inl ⟨_, _, rfl, rfl, hxy⟩
  | error hef => exact Or.inr ⟨_, _, rfl, rfl, hef⟩

theorem bind {r : Except ε α} {s : Except ε β} {k : α → Except ε γ} {l : β → Except ε δ}
    (h : Agree E R r s) (hk : ∀ x y, R x y → Agree E S (k x) (l y)) :
    Agree E S (r >>= k) (s >>= l) := by
  cases h with
  | ok hxy => exact hk _ _ hxy
  | error hef => exact .error hef

theorem imp {R' : α → β → Prop} {r : Except ε α} {s : Except ε β} (h : Agree E R r s)
    (hR : ∀ x y, R x y → R' x y) : Agree E R' r s := by
  cases h with
  | ok hxy => exact .ok (hR _ _ hxy)
  | error hef => exact .error hef

theorem self {R : α → α → Prop} (hE : ∀ e, E e e) (hR : ∀ x, R x x) (r : Except ε α) :
    Agree E R r r := by
  cases r with
  | ok x => exact .ok (hR x)
  | error e => exact .error (hE e)

theorem eq {r s : Except ε α} (h : Agree Eq Eq r s) : r = s := by
  cases h with
  | ok h => rw [h]
  | error h => rw [h]

theorem of_eq {r s : Except ε α} (h : r = s) : Agree Eq Eq r s :=
  h ▸ .self Eq.refl Eq.refl r

end Agree

/-- Related lists have their first hit at one place. -/
theorem findIdx?_of_forall₂ {α β : Type} {R : α → β → Prop} {p : α → Bool} {q : β → Bool}
    (hpq : ∀ x y, R x y → p x = q y) {xs : List α} {ys : List β} (h : List.Forall₂ R xs ys) :
    xs.findIdx? p = ys.findIdx? q := by
  induction h with
  | nil => rfl
  | cons hxy _ ih => rw [List.findIdx?_cons, List.findIdx?_cons, hpq _ _ hxy, ih]

namespace Decoder

variable {α β κ : Type} {E : Failure → Failure → Prop} {R : α → α → Prop}

theorem agree_map {S : β → β → Prop} {d : Decoder α} {f : α → β} {a b : Option Value}
    (h : Agree E R (d a) (d b)) (hf : ∀ x y, R x y → S (f x) (f y)) :
    Agree E S (d.map f a) (d.map f b) := by
  rcases h.results with ⟨x, y, hx, hy, hxy⟩ | ⟨e, f, he, hf', hef⟩
  · simp only [map, hx, hy]
    exact .ok (hf x y hxy)
  · simp only [map, he, hf']
    exact .error hef

theorem agree_under (hE : Failure.Congruence E) {r s : Except Failure α} (h : Agree E R r s)
    (step : Step) : Agree E R (under step r) (under step s) := by
  cases h with
  | ok hxy => exact .ok hxy
  | error hef => exact .error (hE.under hef step)

/-! ### Arrays -/

/-- Values on which the results of `d` agree. -/
def AgreeOn (E : Failure → Failure → Prop) (R : α → α → Prop) (d : Decoder α) (v w : Value) : Prop :=
  Agree E R (d (some v)) (d (some w))

theorem agree_arrayFrom (hE : Failure.Congruence E) {d : Decoder α} {vs ws : List Value}
    (h : List.Forall₂ (AgreeOn E R d) vs ws) (position : Nat) :
    Agree E (List.Forall₂ R) (arrayFrom d position vs) (arrayFrom d position ws) := by
  induction h generalizing position with
  | nil => exact .ok .nil
  | cons hvw _ ih =>
    refine (agree_under hE hvw (.index position)).bind fun x y hxy => ?_
    exact (ih (position + 1)).bind fun xs ys hs => .ok (.cons hxy hs)

theorem agree_setFrom (hE : Failure.Congruence E) {same : α → α → Bool} {d : Decoder α}
    (hsame : ∀ x x' y y', R x x' → R y y' → same x y = same x' y') {vs ws : List Value}
    (h : List.Forall₂ (AgreeOn E R d) vs ws) {seen seen' : List α} (hseen : List.Forall₂ R seen seen')
    (position : Nat) :
    Agree E (List.Forall₂ R) (setFrom same d seen position vs)
      (setFrom same d seen' position ws) := by
  induction h generalizing seen seen' position with
  | nil => exact .ok hseen
  | cons hvw _ ih =>
    refine (agree_under hE hvw (.index position)).bind fun x y hxy => ?_
    have hfind : seen.findIdx? (same · x) = seen'.findIdx? (same · y) :=
      findIdx?_of_forall₂ (fun z z' hz => hsame z z' x y hz hxy) hseen
    rw [hfind]
    split
    · exact .error (hE.refl _)
    · exact ih (List.rel_append hseen (.cons hxy .nil)) (position + 1)

/-- Pairs that are related in both places. -/
def Both (K : κ → κ → Prop) (R : α → α → Prop) (p q : κ × α) : Prop := K p.1 q.1 ∧ R p.2 q.2

theorem agree_tuple (hE : Failure.Congruence E) {K : κ → κ → Prop} {first : Decoder κ}
    {second : Decoder α} {v v' w w' : Value} (hv : AgreeOn E K first v v')
    (hw : AgreeOn E R second w w') :
    AgreeOn E (Both K R) (tuple first second) (.array [v, w]) (.array [v', w']) := by
  refine (agree_under hE hv (.index 0)).bind fun x x' hx => ?_
  exact (agree_under hE hw (.index 1)).bind fun y y' hy => .ok ⟨hx, hy⟩

theorem agree_mapFrom (hE : Failure.Congruence E) {K : κ → κ → Prop} {order : κ → κ → Ordering}
    (hK : Entries.Respects order K) {entry : Decoder (κ × α)} {vs ws : List Value}
    (h : List.Forall₂ (AgreeOn E (Both K R) entry) vs ws) {seen seen' : List (κ × Nat × α)}
    (hseen : Entries.Related K (Both Eq R) seen seen') (position : Nat) :
    Agree E (Entries.Related K (Both Eq R)) (mapFrom order entry seen position vs)
      (mapFrom order entry seen' position ws) := by
  induction h generalizing seen seen' position with
  | nil => exact .ok hseen
  | cons hvw _ ih =>
    refine (agree_under hE hvw (.index position)).bind fun ⟨k, x⟩ ⟨l, y⟩ ⟨hkl, hxy⟩ => ?_
    have hfind := hseen.find? hK hkl
    cases hx : Entries.find? order k seen with
    | none =>
      rw [hx] at hfind
      cases hy : Entries.find? order l seen' with
      | some earlier => rw [hy] at hfind; cases hfind
      | none =>
        simp only [hx, hy]
        have hpair : Both Eq R (position, x) (position, y) := ⟨rfl, hxy⟩
        exact ih (hseen.insert hK hkl hpair) (position + 1)
    | some earlier =>
      rw [hx] at hfind
      cases hy : Entries.find? order l seen' with
      | none => rw [hy] at hfind; cases hfind
      | some earlier' =>
        rw [hy] at hfind
        cases hfind with
        | some hfirst =>
          simp only [hx, hy, hfirst.1]
          exact .error (hE.refl _)

/-! ### Objects -/

theorem agree_field (hE : Failure.Congruence E) (hR : ∀ x, R x x) {d : Decoder α}
    {entries entries' : List (String × Value)} {name : String}
    (h : Option.Rel (AgreeOn E R d) (Value.lookup name entries) (Value.lookup name entries')) :
    Agree E R (field entries name d) (field entries' name d) := by
  unfold field
  generalize Value.lookup name entries = found at h
  generalize Value.lookup name entries' = found' at h
  cases h with
  | some hvw => exact agree_under hE hvw (.field name)
  | none =>
    cases d none with
    | ok x => exact .ok (hR x)
    | error _ => exact .error (hE.refl _)

section Fields
variable {entries entries' : List (String × Value)}

theorem agree_recordFrom {fields : List (String × Decoder α)}
    (h : ∀ f ∈ fields, Agree E R (field entries f.1 f.2) (field entries' f.1 f.2)) :
    ∀ {xs ys : List (String × α)}, Entries.Related Eq R xs ys →
      Agree E (Entries.Related Eq R) (recordFrom entries xs fields) (recordFrom entries' ys fields) := by
  induction fields with
  | nil => exact fun hxs => .ok hxs
  | cons f rest ih =>
    intro xs ys hxs
    refine (h f List.mem_cons_self).bind fun x y hxy => ?_
    exact ih (fun g hg => h g (List.mem_cons_of_mem _ hg))
      (hxs.insert Entries.respects_eq rfl hxy)

theorem agree_structFrom {fields : List (FieldName × Decoder α)}
    (h : ∀ f ∈ fields, Agree E R (field entries f.1.key f.2) (field entries' f.1.key f.2)) :
    Agree E (Entries.Related Eq R) (structFrom entries fields) (structFrom entries' fields) := by
  induction fields with
  | nil => exact .ok .nil
  | cons f rest ih =>
    refine (h f List.mem_cons_self).bind fun x y hxy => ?_
    refine (ih fun g hg => h g (List.mem_cons_of_mem _ hg)).bind fun xs ys hxs => ?_
    exact .ok (.cons ⟨rfl, hxy⟩ hxs)

theorem agree_dictFrom (hE : Failure.Congruence E) {d : Decoder α}
    (h : Entries.Related Eq (AgreeOn E R d) entries entries') :
    Agree E (Entries.Related Eq R) (dictFrom d entries) (dictFrom d entries') := by
  induction h with
  | nil => exact .ok .nil
  | @cons e e' es es' he _ ih =>
    obtain ⟨name, v⟩ := e
    obtain ⟨_, w⟩ := e'
    obtain ⟨rfl, hvw⟩ := he
    refine (agree_under hE hvw (.field name)).bind fun x y hxy => ?_
    exact ih.bind fun xs ys hxs => .ok (.cons ⟨rfl, hxy⟩ hxs)

end Fields

/-! ### Choices -/

theorem agree_firstSuccess {a b : Option Value} {ds : List (Decoder α)}
    (h : ∀ d ∈ ds, Agree E R (d a) (d b)) :
    Agree (List.Forall₂ E) R (firstSuccess a ds) (firstSuccess b ds) := by
  induction ds with
  | nil => exact .error .nil
  | cons d rest ih =>
    have hd := h d List.mem_cons_self
    have hrest := ih fun g hg => h g (List.mem_cons_of_mem _ hg)
    rcases hd.results with ⟨x, y, hx, hy, hxy⟩ | ⟨e, f, he, hf, hef⟩
    · simp only [firstSuccess, hx, hy]
      exact .ok hxy
    · rcases hrest.results with ⟨x, y, hx, hy, hxy⟩ | ⟨es, fs, hes, hfs, hrel⟩
      · simp only [firstSuccess, he, hf, hx, hy]
        exact .ok hxy
      · simp only [firstSuccess, he, hf, hes, hfs]
        exact .error (.cons hef hrel)

theorem agree_union (hE : Failure.Congruence E) {a b : Option Value} {ds : List (Decoder α)}
    (h : ∀ d ∈ ds, Agree E R (d a) (d b)) : Agree E R (union ds a) (union ds b) := by
  rcases (agree_firstSuccess h).results with ⟨x, y, hx, hy, hxy⟩ | ⟨es, fs, hes, hfs, hrel⟩
  · simp only [union, hx, hy]
    exact .ok hxy
  · simp only [union, hes, hfs]
    exact .error (hE.union hrel)

theorem agree_option {d : Decoder α} {a b : Option Value} (h : Option.Rel (AgreeOn E R d) a b) :
    Agree E (Option.Rel R) (option d a) (option d b) := by
  cases h with
  | none => exact .ok .none
  | @some v w hvw =>
    rcases hvw.results with ⟨x, y, hx, hy, hxy⟩ | ⟨e, f, he, hf, hef⟩
    · simp only [option, hx, hy]
      exact .ok (.some hxy)
    · simp only [option, he, hf]
      exact .error hef

end Decoder

end TypedJson
