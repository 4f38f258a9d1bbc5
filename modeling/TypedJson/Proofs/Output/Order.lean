import TypedJson.Output.Order
import TypedJson.Proofs.Output.Parts
import Mathlib.Data.Int.Order.Basic

/-!
# The order of outputs is transitive

Every output has a *code*, a list of integers: the rank of its form, and then the codes of its parts.  A
list goes on with a one before each element and ends with a zero, so that no code is the beginning of
another one.  Outputs are ordered as their codes are, first difference first (`order_eq_orderCodes`).
So the order of outputs inherits the laws of the order of lists of integers: it is oriented and
transitive, on outputs of all forms and at every depth.
-/

namespace TypedJson

/-- The order of codes: the first difference decides. -/
def orderCodes : List Int → List Int → Ordering := List.compareLex compare

instance : Std.TransCmp orderCodes := by
  unfold orderCodes
  infer_instance

theorem orderCodes_cons (m n : Int) (c d : List Int) :
    orderCodes (m :: c) (n :: d) = (compare m n).then (orderCodes c d) :=
  List.compareLex_cons_cons

namespace Text

/-- The code of characters: each counted from one, and a zero at the end. -/
def codeChars : List Char → List Int
  | [] => [0]
  | c :: cs => (c.toNat + 1) :: codeChars cs

/-- The code of a text. -/
def code (s : String) : List Int := codeChars s.toList

theorem orderCodes_codeChars (cs ds : List Char) (r s : List Int) :
    orderCodes (codeChars cs ++ r) (codeChars ds ++ s) =
      (orderChars cs ds).then (orderCodes r s) := by
  have hsucc : ∀ c d : Char, compare (c.toNat + 1 : Int) (d.toNat + 1) = compare c.toNat d.toNat := by
    intro c d
    rcases Nat.lt_trichotomy c.toNat d.toNat with h | h | h
    · rw [Nat.compare_eq_lt.mpr h, Int.compare_eq_lt]
      omega
    · rw [h, Nat.compare_eq_eq.mpr rfl, Int.compare_eq_eq]
    · rw [Nat.compare_eq_gt.mpr h, Int.compare_eq_gt]
      omega
  fun_induction orderChars cs ds with
  | case1 => simp [codeChars, orderCodes_cons]
  | case2 d ds =>
    have hlt : compare (0 : Int) (d.toNat + 1) = .lt := Int.compare_eq_lt.mpr (by omega)
    simp [codeChars, orderCodes_cons, hlt]
  | case3 c cs =>
    have hgt : compare (c.toNat + 1 : Int) 0 = .gt := Int.compare_eq_gt.mpr (by omega)
    simp [codeChars, orderCodes_cons, hgt]
  | case4 c cs d ds h => simp [codeChars, orderCodes_cons, hsucc, Nat.compare_eq_lt.mpr h]
  | case5 c cs d ds _ h => simp [codeChars, orderCodes_cons, hsucc, Nat.compare_eq_gt.mpr h]
  | case6 c cs d ds h h' ih =>
    have heq : compare c.toNat d.toNat = .eq := Nat.compare_eq_eq.mpr (by omega)
    simp [codeChars, orderCodes_cons, hsucc, heq, ih]

theorem orderCodes_code (a b : String) (r s : List Int) :
    orderCodes (code a ++ r) (code b ++ s) = (order a b).then (orderCodes r s) :=
  orderCodes_codeChars a.toList b.toList r s

end Text

namespace Output

mutual

/-- **The code of an output**, its rank in front. -/
def code : Output → List Int
  | unit => [0]
  | bool b => [1, b.toInt]
  | int n => [2, n]
  | float x => [3, x.units]
  | text s => 4 :: Text.code s
  | date i => [5, i.seconds, i.nanos]
  | pair a b => 6 :: (code a ++ code b)
  | none => [7, 0]
  | some x => 7 :: 1 :: code x
  | list items => 8 :: codeItems items
  | map entries => 9 :: codePairs entries
  | dict entries => 10 :: codeNamed entries
  | record name fields => 11 :: (Text.code name ++ codeNamed fields)
  | tag name x => 12 :: (Text.code name ++ code x)
  | json v => 13 :: Text.code v.text

/-- The code of elements. -/
def codeItems : List Output → List Int
  | [] => [0]
  | x :: rest => 1 :: (code x ++ codeItems rest)

/-- The code of entries, keys before values. -/
def codePairs : List (Output × Output) → List Int
  | [] => [0]
  | (k, x) :: rest => 1 :: (code k ++ (code x ++ codePairs rest))

/-- The code of entries, names before values. -/
def codeNamed : List (String × Output) → List Int
  | [] => [0]
  | (name, x) :: rest => 1 :: (Text.code name ++ (code x ++ codeNamed rest))

end

/-! ### Single values -/

theorem orderInt_eq_compare (a b : Int) : orderInt a b = compare a b := by
  unfold orderInt
  rcases Int.lt_trichotomy a b with h | h | h
  · rw [if_pos h, Int.compare_eq_lt.mpr h]
  · rw [if_neg (by omega), if_neg (by omega), Int.compare_eq_eq.mpr h]
  · rw [if_neg (by omega), if_pos h, Int.compare_eq_gt.mpr h]

theorem orderBool_eq_compare (a b : Bool) : orderBool a b = compare a.toInt b.toInt := by
  cases a <;> cases b <;> rfl

theorem orderFloat_eq_compare (x y : Binary64) : x.order y = compare x.units y.units :=
  orderInt_eq_compare x.units y.units

theorem orderDate_eq_compare (a b : Instant) :
    a.order b = (compare a.seconds b.seconds).then (compare (a.nanos : Int) b.nanos) := by
  unfold Instant.order
  simp only [← orderInt_eq_compare, orderInt, Int.ofNat_lt]
  split_ifs <;> rfl

/-! ### Forms with parts -/

/-- The code of `x` stands to other codes as `x` to their outputs, whatever follows the codes. -/
def OrderedByCode (x : Output) : Prop := ∀ (y : Output) (r s : List Int),
  orderCodes (x.code ++ r) (y.code ++ s) = (x.order y).then (orderCodes r s)

section Parts
variable {r s : List Int}

theorem orderCodes_codeItems {xs : List Output} (h : ∀ x ∈ xs, OrderedByCode x) (ys : List Output) :
    orderCodes (codeItems xs ++ r) (codeItems ys ++ s) =
      (orderItems xs ys).then (orderCodes r s) := by
  induction xs generalizing ys with
  | nil => cases ys <;> simp [codeItems, orderItems, orderCodes_cons, Int.compare_eq_lt.mpr]
  | cons x xs ih =>
    obtain ⟨hx, hxs⟩ := List.forall_mem_cons.mp h
    cases ys with
    | nil => simp [codeItems, orderItems, orderCodes_cons, Int.compare_eq_gt.mpr]
    | cons y ys => simp [codeItems, orderItems, orderCodes_cons, hx y, ih hxs, Ordering.then_assoc]

theorem orderCodes_codePairs {xs : List (Output × Output)}
    (h : ∀ e ∈ xs, OrderedByCode e.1 ∧ OrderedByCode e.2) (ys : List (Output × Output)) :
    orderCodes (codePairs xs ++ r) (codePairs ys ++ s) =
      (orderPairs xs ys).then (orderCodes r s) := by
  induction xs generalizing ys with
  | nil => cases ys <;> simp [codePairs, orderPairs, orderCodes_cons, Int.compare_eq_lt.mpr]
  | cons e xs ih =>
    obtain ⟨k, x⟩ := e
    obtain ⟨⟨hk, hx⟩, hxs⟩ := List.forall_mem_cons.mp h
    rcases ys with _ | ⟨⟨l, y⟩, ys⟩
    · simp [codePairs, orderPairs, orderCodes_cons, Int.compare_eq_gt.mpr]
    · simp [codePairs, orderPairs, orderCodes_cons, hk l, hx y, ih hxs, Ordering.then_assoc]

theorem orderCodes_codeNamed {xs : List (String × Output)} (h : ∀ e ∈ xs, OrderedByCode e.2)
    (ys : List (String × Output)) :
    orderCodes (codeNamed xs ++ r) (codeNamed ys ++ s) =
      (orderNamed xs ys).then (orderCodes r s) := by
  induction xs generalizing ys with
  | nil => cases ys <;> simp [codeNamed, orderNamed, orderCodes_cons, Int.compare_eq_lt.mpr]
  | cons e xs ih =>
    obtain ⟨n, x⟩ := e
    obtain ⟨hx, hxs⟩ := List.forall_mem_cons.mp h
    rcases ys with _ | ⟨⟨m, y⟩, ys⟩
    · simp [codeNamed, orderNamed, orderCodes_cons, Int.compare_eq_gt.mpr]
    · simp [codeNamed, orderNamed, orderCodes_cons, Text.orderCodes_code, hx y, ih hxs, Ordering.then_assoc]

end Parts

theorem code_eq_rank_cons (x : Output) : ∃ rest : List Int, x.code = (x.rank : Int) :: rest := by
  cases x <;> exact ⟨_, rfl⟩

theorem order_of_rank_ne {x y : Output} (h : x.rank ≠ y.rank) :
    x.order y = orderInt x.rank y.rank := by
  cases x <;> cases y <;> first | exact absurd rfl h | simp only [order]

/-- Outputs of two forms are told apart by the rank in front of their codes. -/
theorem orderCodes_of_rank_ne {x y : Output} (h : x.rank ≠ y.rank) (r s : List Int) :
    orderCodes (x.code ++ r) (y.code ++ s) = (x.order y).then (orderCodes r s) := by
  obtain ⟨c, hc⟩ := code_eq_rank_cons x
  obtain ⟨d, hd⟩ := code_eq_rank_cons y
  rw [hc, hd, List.cons_append, List.cons_append, orderCodes_cons, order_of_rank_ne h,
    orderInt_eq_compare]
  have hne : compare (x.rank : Int) y.rank ≠ .eq := by
    rw [ne_eq, Int.compare_eq_eq]
    omega
  cases hcmp : compare (x.rank : Int) y.rank with
  | lt => rfl
  | eq => exact absurd hcmp hne
  | gt => rfl

theorem orderedByCode (x : Output) : OrderedByCode x := by
  induction x using induction_parts <;> intro y r s
  case unit =>
    cases y with
    | unit => simp [code, order, orderCodes_cons, rank, orderInt]
    | _ => exact orderCodes_of_rank_ne (by simp [rank]) r s
  case bool b =>
    cases y with
    | bool c => simp [code, order, orderCodes_cons, orderBool_eq_compare]
    | _ => exact orderCodes_of_rank_ne (by simp [rank]) r s
  case int m =>
    cases y with
    | int n => simp [code, order, orderCodes_cons, orderInt_eq_compare]
    | _ => exact orderCodes_of_rank_ne (by simp [rank]) r s
  case float a =>
    cases y with
    | float b => simp [code, order, orderCodes_cons, orderFloat_eq_compare]
    | _ => exact orderCodes_of_rank_ne (by simp [rank]) r s
  case text a =>
    cases y with
    | text b => simp [code, order, orderCodes_cons, Text.orderCodes_code]
    | _ => exact orderCodes_of_rank_ne (by simp [rank]) r s
  case date a =>
    cases y with
    | date b => simp [code, order, orderCodes_cons, orderDate_eq_compare, Ordering.then_assoc]
    | _ => exact orderCodes_of_rank_ne (by simp [rank]) r s
  case pair a b iha ihb =>
    cases y with
    | pair a' b' => simp [code, order, orderCodes_cons, iha a', ihb b', Ordering.then_assoc]
    | _ => exact orderCodes_of_rank_ne (by simp [rank]) r s
  case none =>
    cases y with
    | none => simp [code, order, rank, orderInt, orderCodes_cons]
    | some y => simp [code, order, orderCodes_cons, Int.compare_eq_lt.mpr]
    | _ => exact orderCodes_of_rank_ne (by simp [rank]) r s
  case some x ih =>
    cases y with
    | none => simp [code, order, orderCodes_cons, Int.compare_eq_gt.mpr]
    | some y => simp [code, order, orderCodes_cons, ih y]
    | _ => exact orderCodes_of_rank_ne (by simp [rank]) r s
  case list xs ih =>
    cases y with
    | list ys => simp [code, order, orderCodes_cons, orderCodes_codeItems ih]
    | _ => exact orderCodes_of_rank_ne (by simp [rank]) r s
  case map xs ih =>
    cases y with
    | map ys => simp [code, order, orderCodes_cons, orderCodes_codePairs ih]
    | _ => exact orderCodes_of_rank_ne (by simp [rank]) r s
  case dict xs ih =>
    cases y with
    | dict ys => simp [code, order, orderCodes_cons, orderCodes_codeNamed ih]
    | _ => exact orderCodes_of_rank_ne (by simp [rank]) r s
  case record n xs ih =>
    cases y with
    | record m ys => simp [code, order, orderCodes_cons, Text.orderCodes_code, orderCodes_codeNamed ih, Ordering.then_assoc]
    | _ => exact orderCodes_of_rank_ne (by simp [rank]) r s
  case tag n x ih =>
    cases y with
    | tag m y => simp [code, order, orderCodes_cons, Text.orderCodes_code, ih y, Ordering.then_assoc]
    | _ => exact orderCodes_of_rank_ne (by simp [rank]) r s
  case json v =>
    cases y with
    | json w => simp [code, order, orderCodes_cons, Text.orderCodes_code]
    | _ => exact orderCodes_of_rank_ne (by simp [rank]) r s

/-- **Outputs are ordered as their codes are.** -/
theorem order_eq_orderCodes (x y : Output) : x.order y = orderCodes x.code y.code := by
  have h := orderedByCode x y [] []
  rw [List.append_nil, List.append_nil] at h
  rw [h]
  exact Ordering.then_eq.symm

/-- **The order of outputs is oriented and transitive**, so that it sorts the keys of maps. -/
instance : Std.TransCmp order where
  eq_swap {x y} := by
    rw [order_eq_orderCodes, order_eq_orderCodes]
    exact Std.OrientedCmp.eq_swap
  isLE_trans {x y z} h h' := by
    rw [order_eq_orderCodes] at h h' ⊢
    exact Std.TransCmp.isLE_trans h h'

end Output

end TypedJson
