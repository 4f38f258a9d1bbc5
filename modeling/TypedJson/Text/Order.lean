/-!
# The order of texts

Texts are ordered by their code points, the first difference deciding and an initial part coming
first.  Object keys are kept in this order, which is also that of the UTF-8 bytes.
-/

namespace TypedJson.Text

/-- The order of two lists of characters. -/
def orderChars : List Char → List Char → Ordering
  | [], [] => .eq
  | [], _ :: _ => .lt
  | _ :: _, [] => .gt
  | c :: cs, d :: ds =>
    if c.toNat < d.toNat then .lt else if d.toNat < c.toNat then .gt else orderChars cs ds

/-- The order of two texts. -/
def order (a b : String) : Ordering := orderChars a.toList b.toList

theorem orderChars_eq_iff (cs ds : List Char) : orderChars cs ds = .eq ↔ cs = ds := by
  fun_induction orderChars cs ds with
  | case1 => simp
  | case2 => simp
  | case3 => simp
  | case4 c cs d ds h =>
    simp only [reduceCtorEq, List.cons.injEq, false_iff]
    rintro ⟨rfl, -⟩
    omega
  | case5 c cs d ds _ h =>
    simp only [reduceCtorEq, List.cons.injEq, false_iff]
    rintro ⟨rfl, -⟩
    omega
  | case6 c cs d ds h h' ih =>
    have hcd : c = d := Char.toNat_inj.mp (by omega)
    simp [ih, hcd]

theorem orderChars_swap (cs ds : List Char) : (orderChars cs ds).swap = orderChars ds cs := by
  fun_induction orderChars cs ds with
  | case1 => rfl
  | case2 => rfl
  | case3 => rfl
  | case4 c cs d ds h =>
    rw [orderChars, if_neg (by omega), if_pos h]
    rfl
  | case5 c cs d ds h h' => rw [orderChars, if_pos h']; rfl
  | case6 c cs d ds h h' ih => rw [orderChars, if_neg h', if_neg h, ih]

theorem orderChars_trans {cs ds es : List Char} (h : orderChars cs ds = .lt)
    (h' : orderChars ds es = .lt) : orderChars cs es = .lt := by
  induction cs generalizing ds es with
  | nil =>
    cases es with
    | nil => cases ds <;> simp [orderChars] at h h'
    | cons e es => rfl
  | cons c cs ih =>
    cases ds with
    | nil => simp [orderChars] at h
    | cons d ds =>
      cases es with
      | nil => simp [orderChars] at h'
      | cons e es =>
        simp only [orderChars] at h h' ⊢
        split at h
        · split at h'
          · rw [if_pos (by omega)]
          · split at h'
            · simp at h'
            · rw [if_pos (by omega)]
        · split at h
          · simp at h
          · split at h'
            · rw [if_pos (by omega)]
            · split at h'
              · simp at h'
              · rw [if_neg (by omega), if_neg (by omega)]
                exact ih h h'

/-- **Only equal texts stand together in the order.** -/
theorem order_eq_iff {a b : String} : order a b = .eq ↔ a = b := by
  rw [order, orderChars_eq_iff, String.toList_inj]

@[simp] theorem order_self (a : String) : order a a = .eq := order_eq_iff.mpr rfl

theorem order_swap (a b : String) : (order a b).swap = order b a := orderChars_swap _ _

theorem order_trans {a b c : String} (h : order a b = .lt) (h' : order b c = .lt) :
    order a c = .lt :=
  orderChars_trans h h'

/-- The order of texts is a linear order. -/
instance : Std.TransCmp order where
  eq_swap := (order_swap _ _).symm
  isLE_trans {a b c} h h' := by
    cases hab : order a b with
    | lt =>
      cases hbc : order b c with
      | lt => rw [order_trans hab hbc]; rfl
      | eq => rw [← order_eq_iff.mp hbc, hab]; rfl
      | gt => rw [hbc] at h'; exact absurd h' (by decide)
    | eq => rw [order_eq_iff.mp hab]; exact h'
    | gt => rw [hab] at h; exact absurd h (by decide)

instance : Std.LawfulEqCmp order where
  compare_self := order_self _
  eq_of_compare := order_eq_iff.mp

end TypedJson.Text
