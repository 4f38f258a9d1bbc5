import TypedJson.Proofs.Output.Order

/-!
# Outputs that can be ordered

Doubles and plain values have no total order that goes with their equality: the two zeros are equal
doubles, and a value has no order of its own.  The outputs without them, at any depth, are ordered
(`Output.Ordered`).  On these, the order finds no two outputs equal but an output and itself
(`Ordered.order_eq_iff`), and neither does equality (`Ordered.eqv_iff`), so a search by order and
a search by equality find the same.
-/

namespace TypedJson.Output

/-- **There is no double and no plain value inside the output.** -/
inductive Ordered : Output → Prop
  | unit : Ordered unit
  | bool (b : Bool) : Ordered (bool b)
  | int (n : Int) : Ordered (int n)
  | text (s : String) : Ordered (text s)
  | date (i : Instant) : Ordered (date i)
  | pair {a b : Output} (ha : Ordered a) (hb : Ordered b) : Ordered (pair a b)
  | none : Ordered none
  | some {x : Output} (h : Ordered x) : Ordered (some x)
  | list {items : List Output} (h : ∀ x ∈ items, Ordered x) : Ordered (list items)
  | map {entries : List (Output × Output)} (hkeys : ∀ e ∈ entries, Ordered e.1)
    (h : ∀ e ∈ entries, Ordered e.2) : Ordered (map entries)
  | dict {entries : List (String × Output)} (h : ∀ e ∈ entries, Ordered e.2) : Ordered (dict entries)
  | record {name : String} {fields : List (String × Output)} (h : ∀ e ∈ fields, Ordered e.2) :
    Ordered (record name fields)
  | tag {name : String} {x : Output} (h : Ordered x) : Ordered (tag name x)

section Parts
variable {xs ys : List Output} {ps qs : List (Output × Output)} {ns ms : List (String × Output)}

theorem eq_of_orderItems (h : ∀ x ∈ xs, ∀ y : Output, x.order y = .eq → x = y)
    (heq : orderItems xs ys = .eq) : xs = ys := by
  induction xs generalizing ys with
  | nil =>
    cases ys with
    | nil => rfl
    | cons y ys => simp only [orderItems, reduceCtorEq] at heq
  | cons x xs ih =>
    obtain ⟨hx, hxs⟩ := List.forall_mem_cons.mp h
    cases ys with
    | nil => simp only [orderItems, reduceCtorEq] at heq
    | cons y ys =>
      simp only [orderItems, Ordering.then_eq_eq] at heq
      rw [hx y heq.1, ih hxs heq.2]

theorem eq_of_orderPairs
    (h : ∀ e ∈ ps, (∀ y : Output, e.1.order y = .eq → e.1 = y) ∧
      ∀ y : Output, e.2.order y = .eq → e.2 = y)
    (heq : orderPairs ps qs = .eq) : ps = qs := by
  induction ps generalizing qs with
  | nil =>
    cases qs with
    | nil => rfl
    | cons q qs => simp only [orderPairs, reduceCtorEq] at heq
  | cons p ps ih =>
    obtain ⟨k, x⟩ := p
    obtain ⟨⟨hk, hx⟩, hps⟩ := List.forall_mem_cons.mp h
    rcases qs with _ | ⟨⟨l, y⟩, qs⟩
    · simp only [orderPairs, reduceCtorEq] at heq
    · simp only [orderPairs, Ordering.then_eq_eq] at heq
      rw [show k = l from hk l heq.1.1, show x = y from hx y heq.1.2, ih hps heq.2]

theorem eq_of_orderNamed (h : ∀ e ∈ ns, ∀ y : Output, e.2.order y = .eq → e.2 = y)
    (heq : orderNamed ns ms = .eq) : ns = ms := by
  induction ns generalizing ms with
  | nil =>
    cases ms with
    | nil => rfl
    | cons m ms => simp only [orderNamed, reduceCtorEq] at heq
  | cons n ns ih =>
    obtain ⟨name, x⟩ := n
    obtain ⟨hx, hns⟩ := List.forall_mem_cons.mp h
    rcases ms with _ | ⟨⟨other, y⟩, ms⟩
    · simp only [orderNamed, reduceCtorEq] at heq
    · simp only [orderNamed, Ordering.then_eq_eq] at heq
      rw [Text.order_eq_iff.mp heq.1.1, show x = y from hx y heq.1.2, ih hns heq.2]

theorem eq_of_eqvItems (h : ∀ x ∈ xs, ∀ y : Output, x.eqv y = true → x = y)
    (heq : eqvItems xs ys = true) : xs = ys := by
  rw [eqvItems_iff] at heq
  induction heq with
  | nil => rfl
  | @cons x y xs ys hxy _ ih =>
    obtain ⟨hx, hxs⟩ := List.forall_mem_cons.mp h
    rw [hx y hxy, ih hxs]

theorem eq_of_eqvPairs
    (h : ∀ e ∈ ps, (∀ y : Output, e.1.eqv y = true → e.1 = y) ∧
      ∀ y : Output, e.2.eqv y = true → e.2 = y)
    (heq : eqvPairs ps qs = true) : ps = qs := by
  rw [eqvPairs_iff] at heq
  induction heq with
  | nil => rfl
  | @cons p q ps qs hpq _ ih =>
    obtain ⟨⟨hkey, hvalue⟩, hps⟩ := List.forall_mem_cons.mp h
    rw [Prod.ext (hkey q.1 hpq.1) (hvalue q.2 hpq.2), ih hps]

theorem eq_of_eqvNamed (h : ∀ e ∈ ns, ∀ y : Output, e.2.eqv y = true → e.2 = y)
    (heq : eqvNamed ns ms = true) : ns = ms := by
  rw [eqvNamed_iff] at heq
  induction heq with
  | nil => rfl
  | @cons n m ns ms hnm _ ih =>
    obtain ⟨hvalue, hns⟩ := List.forall_mem_cons.mp h
    rw [Prod.ext hnm.1 (hvalue m.2 hnm.2), ih hns]

end Parts

theorem order_ne_eq_of_rank_ne {x y : Output} (h : x.rank ≠ y.rank) : x.order y ≠ .eq := by
  rw [order_of_rank_ne h, orderInt_eq_compare, ne_eq, Int.compare_eq_eq, Int.ofNat_inj]
  exact h

theorem eq_of_orderBool {a b : Bool} (h : orderBool a b = .eq) : a = b := by
  cases a <;> cases b <;> simp only [orderBool, reduceCtorEq] at h <;> rfl

theorem eq_of_orderDate {i j : Instant} (h : i.order j = .eq) : i = j := by
  rw [orderDate_eq_compare, Ordering.then_eq_eq, Int.compare_eq_eq, Int.compare_eq_eq,
    Int.ofNat_inj] at h
  exact congrArg₂ Instant.mk h.1 h.2

theorem Ordered.eq_of_order_eq {x y : Output} (hx : x.Ordered) (h : x.order y = .eq) : x = y := by
  induction hx generalizing y with
  | unit =>
    cases y with
    | unit => rfl
    | _ => exact absurd h (order_ne_eq_of_rank_ne (by simp [rank]))
  | bool a =>
    cases y with
    | bool b =>
      rw [order] at h
      rw [eq_of_orderBool h]
    | _ => exact absurd h (order_ne_eq_of_rank_ne (by simp [rank]))
  | int m =>
    cases y with
    | int n =>
      rw [order, orderInt_eq_compare, Int.compare_eq_eq] at h
      rw [h]
    | _ => exact absurd h (order_ne_eq_of_rank_ne (by simp [rank]))
  | text s =>
    cases y with
    | text t =>
      rw [order, Text.order_eq_iff] at h
      rw [h]
    | _ => exact absurd h (order_ne_eq_of_rank_ne (by simp [rank]))
  | date i =>
    cases y with
    | date j =>
      rw [order] at h
      rw [eq_of_orderDate h]
    | _ => exact absurd h (order_ne_eq_of_rank_ne (by simp [rank]))
  | pair _ _ iha ihb =>
    cases y with
    | pair c d =>
      rw [order, Ordering.then_eq_eq] at h
      rw [iha h.1, ihb h.2]
    | _ => exact absurd h (order_ne_eq_of_rank_ne (by simp [rank]))
  | none =>
    cases y with
    | none => rfl
    | some y => simp only [order, reduceCtorEq] at h
    | _ => exact absurd h (order_ne_eq_of_rank_ne (by simp [rank]))
  | some _ ih =>
    cases y with
    | none => simp only [order, reduceCtorEq] at h
    | some y =>
      rw [order] at h
      rw [ih h]
    | _ => exact absurd h (order_ne_eq_of_rank_ne (by simp [rank]))
  | list _ ih =>
    cases y with
    | list ys =>
      rw [order] at h
      rw [eq_of_orderItems (fun x hx y => ih x hx) h]
    | _ => exact absurd h (order_ne_eq_of_rank_ne (by simp [rank]))
  | map _ _ ihk ih =>
    cases y with
    | map ys =>
      rw [order] at h
      rw [eq_of_orderPairs (fun e he => ⟨fun y => ihk e he, fun y => ih e he⟩) h]
    | _ => exact absurd h (order_ne_eq_of_rank_ne (by simp [rank]))
  | dict _ ih =>
    cases y with
    | dict ys =>
      rw [order] at h
      rw [eq_of_orderNamed (fun e he y => ih e he) h]
    | _ => exact absurd h (order_ne_eq_of_rank_ne (by simp [rank]))
  | record _ ih =>
    cases y with
    | record m ys =>
      rw [order, Ordering.then_eq_eq] at h
      rw [Text.order_eq_iff.mp h.1, eq_of_orderNamed (fun e he y => ih e he) h.2]
    | _ => exact absurd h (order_ne_eq_of_rank_ne (by simp [rank]))
  | tag _ ih =>
    cases y with
    | tag m y =>
      rw [order, Ordering.then_eq_eq] at h
      rw [Text.order_eq_iff.mp h.1, ih h.2]
    | _ => exact absurd h (order_ne_eq_of_rank_ne (by simp [rank]))

theorem Ordered.eq_of_eqv {x y : Output} (hx : x.Ordered) (h : x.eqv y = true) : x = y := by
  induction hx generalizing y with
  | unit | none =>
    cases y <;> simp only [eqv, Bool.false_eq_true] at h
    rfl
  | bool | int | text | date =>
    cases y <;> simp only [eqv, Bool.false_eq_true, beq_iff_eq, decide_eq_true_eq] at h
    rw [h]
  | pair _ _ iha ihb =>
    cases y <;> simp only [eqv, Bool.false_eq_true, Bool.and_eq_true] at h
    rw [iha h.1, ihb h.2]
  | some _ ih =>
    cases y <;> simp only [eqv, Bool.false_eq_true] at h
    rw [ih h]
  | list _ ih =>
    cases y <;> simp only [eqv, Bool.false_eq_true] at h
    rw [eq_of_eqvItems (fun x hx y => ih x hx) h]
  | map _ _ ihk ih =>
    cases y <;> simp only [eqv, Bool.false_eq_true] at h
    rw [eq_of_eqvPairs (fun e he => ⟨fun y => ihk e he, fun y => ih e he⟩) h]
  | dict _ ih =>
    cases y <;> simp only [eqv, Bool.false_eq_true] at h
    rw [eq_of_eqvNamed (fun e he y => ih e he) h]
  | record _ ih =>
    cases y <;> simp only [eqv, Bool.false_eq_true, Bool.and_eq_true, beq_iff_eq] at h
    rw [h.1, eq_of_eqvNamed (fun e he y => ih e he) h.2]
  | tag _ ih =>
    cases y <;> simp only [eqv, Bool.false_eq_true, Bool.and_eq_true, beq_iff_eq] at h
    rw [h.1, ih h.2]

/-- **The order finds nothing equal to an ordered output but the output itself.** -/
theorem Ordered.order_eq_iff {x y : Output} (hx : x.Ordered) : x.order y = .eq ↔ x = y :=
  ⟨hx.eq_of_order_eq, fun h => h ▸ Std.ReflCmp.compare_self⟩

/-- **Nothing is equal to an ordered output but the output itself.** -/
theorem Ordered.eqv_iff {x y : Output} (hx : x.Ordered) : x.eqv y = true ↔ x = y :=
  ⟨hx.eq_of_eqv, fun h => h ▸ eqv_self x⟩

end TypedJson.Output
