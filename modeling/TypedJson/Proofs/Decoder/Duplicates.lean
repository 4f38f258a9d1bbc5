import TypedJson.Proofs.Decoder.Agreement
import TypedJson.Proofs.Decoder.Successes
import Mathlib.Data.Set.List
import Mathlib.Order.Nat

/-!
# The first fault among elements

Sets and maps read elements from left to right.  An element is at fault (`FaultAt`) if it fails, or if its
output counts as the same as that of an earlier one, and the first fault (`FirstFaultAt`) decides about
the run.  Both are said here of the results that the elements have each on its own, and three cases
cover every run:

* without fault, `set_of_no_fault` and `mapping_of_no_fault`: all elements have outputs, and the outputs
  stand apart;
* a first fault that is a failure, `array_of_own_fault`, `set_of_own_fault` and `mapping_of_own_fault`:
  the failure is handed on;
* a first fault that repeats an element, `set_of_duplicate` and `mapping_of_duplicate`: it is reported with
  the index of that element in the input, which is the only one (`eq_of_repeats`).

Two lists of results that agree one by one have the same faults (`faultAt_iff_of_agree`).
-/

namespace TypedJson.Decoder

variable {α β κ : Type}

/-- The results of the elements, each on its own. -/
def results (d : Decoder α) (items : List Value) : List (Except Failure α) :=
  items.map fun v => d (some v)

theorem results_eq_ok_iff {d : Decoder α} {items : List Value} {outputs : List α} :
    results d items = outputs.map .ok ↔ List.Forall₂ d.Decodes items outputs := by
  rw [results, ← List.forall₂_eq_eq_eq, List.forall₂_map_left_iff, List.forall₂_map_right_iff]
  rfl

/-- Two of the results are outputs that count as the same. -/
def Repeats (same : α → α → Prop) (rs : List (Except Failure α)) (j i : Nat) : Prop :=
  ∃ y x, rs[j]? = some (.ok y) ∧ rs[i]? = some (.ok x) ∧ same y x

/-- **The element is at fault**: it fails, or it repeats an earlier one. -/
def FaultAt (same : α → α → Prop) (rs : List (Except Failure α)) (i : Nat) : Prop :=
  (∃ e, rs[i]? = some (.error e)) ∨ ∃ j < i, Repeats same rs j i

/-- **The element is the first one at fault.** -/
def FirstFaultAt (same : α → α → Prop) (rs : List (Except Failure α)) (i : Nat) : Prop :=
  IsLeast {i | FaultAt same rs i} i

section Faults
variable {same : α → α → Prop} {rs : List (Except Failure α)} {i : Nat}

theorem FaultAt.lt_length (h : FaultAt same rs i) : i < rs.length := by
  rcases h with ⟨e, h⟩ | ⟨j, -, y, x, -, h, -⟩
  · exact (List.getElem?_eq_some_iff.mp h).1
  · exact (List.getElem?_eq_some_iff.mp h).1

/-- An element at fault that has an output repeats an earlier one. -/
theorem FaultAt.repeats {x : α} (h : FaultAt same rs i) (hx : rs[i]? = some (.ok x)) :
    ∃ j < i, ∃ y, rs[j]? = some (.ok y) ∧ same y x := by
  rcases h with ⟨e, he⟩ | ⟨j, hj, y, x', hy, hx', hsame⟩
  · cases hx.symm.trans he
  · obtain rfl : x' = x := Except.ok.inj (Option.some.inj (hx'.symm.trans hx))
    exact ⟨j, hj, y, hy, hsame⟩

theorem exists_firstFaultAt (h : ¬ ∀ i, ¬ FaultAt same rs i) : ∃ i, FirstFaultAt same rs i := by
  classical
  have hex : ∃ i, FaultAt same rs i := not_forall_not.mp h
  exact ⟨Nat.find hex, Nat.isLeast_find hex⟩

/-- The first fault repeats only one element, if outputs that are the same as a third one are the same:
otherwise the later of two such elements would be at fault before. -/
theorem eq_of_repeats {j k : Nat} (h : FirstFaultAt same rs i)
    (heuclid : ∀ x y z, same x z → same y z → same x y)
    (hj : j < i) (hji : Repeats same rs j i) (hk : k < i) (hki : Repeats same rs k i) : j = k := by
  have hno : ∀ {j k}, j < k → k < i → Repeats same rs j i → Repeats same rs k i → False := by
    rintro j k hjk hki' ⟨y, x, hy, hx, hyx⟩ ⟨z, x', hz, hx', hzx⟩
    obtain rfl : x' = x := Except.ok.inj (Option.some.inj (hx'.symm.trans hx))
    have hle := h.2 (Or.inr ⟨j, hjk, y, z, hy, hz, heuclid y z x' hyx hzx⟩)
    omega
  rcases Nat.lt_trichotomy j k with hlt | heq | hgt
  · exact (hno hlt hk hji hki).elim
  · exact heq
  · exact (hno hgt hj hki hji).elim

/-- Without fault every element has an output, and no two are the same. -/
theorem exists_outputs_of_no_fault (h : ∀ i, ¬ FaultAt same rs i) :
    ∃ outputs : List α, rs = outputs.map .ok ∧ outputs.Pairwise fun y x => ¬ same y x := by
  have hok : ∀ r ∈ rs, r ∈ Set.range (Except.ok : α → Except Failure α) := by
    intro r hr
    obtain ⟨i, hi⟩ := List.mem_iff_getElem?.mp hr
    cases r with
    | error e => exact absurd (Or.inl ⟨e, hi⟩) (h i)
    | ok x => exact ⟨x, rfl⟩
  obtain ⟨outputs, rfl⟩ : rs ∈ Set.range (List.map Except.ok) := by
    rw [Set.range_list_map]
    exact hok
  refine ⟨outputs, rfl, List.pairwise_iff_getElem.mpr fun j i hj hi hji hsame => ?_⟩
  exact h i (Or.inr ⟨j, hji, _, _, by simp [hj], by simp [hi], hsame⟩)

/-- A fault among the first elements is a fault among all. -/
theorem faultAt_of_take {j : Nat} (h : FaultAt same (rs.take i) j) : j < i ∧ FaultAt same rs j := by
  have hj : j < i := (List.length_take ▸ h.lt_length).trans_le (Nat.min_le_left _ _)
  refine ⟨hj, ?_⟩
  rcases h with ⟨e, h⟩ | ⟨k, hk, y, x, hy, hx, hsame⟩
  · rw [List.getElem?_take_of_lt hj] at h
    exact Or.inl ⟨e, h⟩
  · rw [List.getElem?_take_of_lt (by omega)] at hy hx
    exact Or.inr ⟨k, hk, y, x, hy, hx, hsame⟩

/-- **Before the first fault** every element has an output, and no two are the same. -/
theorem FirstFaultAt.split {d : Decoder α} {items : List Value}
    (h : FirstFaultAt same (results d items) i) :
    ∃ before v after, items = before ++ v :: after ∧ before.length = i ∧
      (results d items)[i]? = some (d (some v)) ∧
      ∃ outputs, List.Forall₂ d.Decodes before outputs ∧
        (∀ j < i, (results d items)[j]? = outputs[j]?.map .ok) ∧
        outputs.Pairwise fun y x => ¬ same y x := by
  have hi : i < items.length := by simpa [results] using h.1.lt_length
  have htake : ∀ j, ¬ FaultAt same ((results d items).take i) j := fun j hj => by
    obtain ⟨hlt, hfault⟩ := faultAt_of_take hj
    exact Nat.not_lt.mpr (h.2 hfault) hlt
  obtain ⟨outputs, hout, hdiff⟩ := exists_outputs_of_no_fault htake
  refine ⟨items.take i, items[i], items.drop (i + 1), ?_, ?_, ?_, outputs, ?_, fun j hj => ?_, hdiff⟩
  · rw [List.getElem_cons_drop, List.take_append_drop]
  · exact List.length_take_of_le hi.le
  · simp [results, hi]
  · rw [← results_eq_ok_iff, ← hout, results, results, List.map_take]
  · rw [← List.getElem?_map, ← hout, List.getElem?_take_of_lt hj]

/-- What a result before the first fault is, it is among the outputs. -/
theorem mem_of_getElem?_eq_map {outputs : List α} {j : Nat} {y : α}
    (h : rs[j]? = outputs[j]?.map .ok) (hy : rs[j]? = some (.ok y)) : y ∈ outputs := by
  obtain ⟨_, hmem, heq⟩ := Option.map_eq_some_iff.mp (h.symm.trans hy)
  exact Except.ok.inj heq ▸ List.mem_of_getElem? hmem

end Faults

/-! ### Results that agree -/

section Agreement
variable {E : Failure → Failure → Prop} {R : α → β → Prop} {rs : List (Except Failure α)}
  {ss : List (Except Failure β)}

theorem getElem?_of_agree (h : List.Forall₂ (Agree E R) rs ss) (i : Nat) :
    rs[i]? = none ∧ ss[i]? = none ∨
      (∃ e f, rs[i]? = some (.error e) ∧ ss[i]? = some (.error f) ∧ E e f) ∨
      ∃ x y, rs[i]? = some (.ok x) ∧ ss[i]? = some (.ok y) ∧ R x y := by
  induction h generalizing i with
  | nil => exact Or.inl ⟨rfl, rfl⟩
  | cons hrs _ ih =>
    cases i with
    | succ i => exact ih i
    | zero =>
      cases hrs with
      | ok hxy => exact Or.inr (Or.inr ⟨_, _, rfl, rfl, hxy⟩)
      | error hef => exact Or.inr (Or.inl ⟨_, _, rfl, rfl, hef⟩)

variable {same : α → α → Prop} {same' : β → β → Prop} (h : List.Forall₂ (Agree E R) rs ss)
  (hsame : ∀ x x' y y', R x x' → R y y' → (same y x ↔ same' y' x'))
include h hsame

theorem repeats_iff_of_agree {j i : Nat} : Repeats same rs j i ↔ Repeats same' ss j i := by
  unfold Repeats
  rcases getElem?_of_agree h j with ⟨hj, hj'⟩ | ⟨_, _, hj, hj', -⟩ | ⟨y, y', hj, hj', hy⟩
  · simp [hj, hj']
  · simp [hj, hj']
  · rcases getElem?_of_agree h i with ⟨hi, hi'⟩ | ⟨_, _, hi, hi', -⟩ | ⟨x, x', hi, hi', hx⟩
    · simp [hi, hi']
    · simp [hi, hi']
    · simp [hj, hj', hi, hi', hsame x x' y y' hx hy]

theorem faultAt_iff_of_agree {i : Nat} : FaultAt same rs i ↔ FaultAt same' ss i := by
  have herror : (∃ e, rs[i]? = some (.error e)) ↔ ∃ f, ss[i]? = some (.error f) := by
    rcases getElem?_of_agree h i with ⟨hi, hi'⟩ | ⟨_, _, hi, hi', -⟩ | ⟨_, _, hi, hi', -⟩ <;>
      simp [hi, hi']
  simp only [FaultAt, herror, repeats_iff_of_agree h hsame]

theorem firstFaultAt_iff_of_agree {i : Nat} : FirstFaultAt same rs i ↔ FirstFaultAt same' ss i := by
  simp only [FirstFaultAt, faultAt_iff_of_agree h hsame]

end Agreement

/-! ### Arrays and sets -/

section Sets
variable {d : Decoder α} {items : List Value} {i : Nat}

theorem array_of_own_fault {same : α → α → Prop} {e : Failure}
    (h : FirstFaultAt same (results d items) i) (he : (results d items)[i]? = some (.error e)) :
    array d (some (.array items)) = .error (e.under (.index i)) := by
  obtain ⟨before, v, after, rfl, rfl, hv, outputs, hout, -, -⟩ := h.split
  refine array_eq_error_iff.mpr (Or.inr ⟨_, rfl, arrayFrom_eq_error_iff.mpr ?_⟩)
  refine ⟨before, v, after, rfl, ⟨outputs, arrayFrom_eq_ok_iff_forall₂.mpr hout⟩, e, ?_, ?_⟩
  · exact Option.some.inj (hv.symm.trans he)
  · rw [Nat.zero_add]

variable {same : α → α → Bool}

theorem distinct_iff {outputs : List α} :
    Distinct same outputs ↔ outputs.Pairwise fun y x => ¬ same y x = true := by
  simp only [Distinct, Bool.not_eq_true]

theorem set_of_no_fault (h : ∀ i, ¬ FaultAt (same · ·) (results d items) i) :
    ∃ outputs, List.Forall₂ d.Decodes items outputs ∧ Distinct same outputs ∧
      set same d (some (.array items)) = .ok outputs := by
  obtain ⟨outputs, hout, hdiff⟩ := exists_outputs_of_no_fault h
  have hdecodes := results_eq_ok_iff.mp hout
  have hdistinct := distinct_iff.mpr hdiff
  exact ⟨outputs, hdecodes, hdistinct, set_eq_ok_iff.mpr ⟨items, rfl, hdecodes, hdistinct⟩⟩

variable (h : FirstFaultAt (same · ·) (results d items) i)
include h

theorem set_of_own_fault {e : Failure} (he : (results d items)[i]? = some (.error e)) :
    set same d (some (.array items)) = .error (e.under (.index i)) := by
  obtain ⟨before, v, after, rfl, rfl, hv, outputs, hout, -, hdiff⟩ := h.split
  refine set_eq_error_iff.mpr (Or.inr ⟨_, rfl, setFrom_eq_error_iff.mpr ?_⟩)
  refine ⟨before, v, after, rfl, outputs, ?_, Or.inl ⟨e, ?_, ?_⟩⟩
  · exact (setFrom_eq_ok_iff .nil).mpr ⟨outputs, hout, rfl, distinct_iff.mpr hdiff⟩
  · exact Option.some.inj (hv.symm.trans he)
  · rw [Nat.zero_add]

theorem set_of_duplicate {x : α} (hx : (results d items)[i]? = some (.ok x)) :
    ∃ first < i, Repeats (same · ·) (results d items) first i ∧
      set same d (some (.array items)) = .error ⟨[.index i], .duplicateValue first⟩ := by
  obtain ⟨j, hj, y, hy, hsame⟩ := h.1.repeats hx
  obtain ⟨before, v, after, rfl, rfl, hv, outputs, hout, houtputs, hdiff⟩ := h.split
  have hlength : before.length = outputs.length := hout.length_eq
  have hmem : y ∈ outputs := mem_of_getElem?_eq_map (houtputs j hj) hy
  obtain ⟨first, hfirst⟩ : ∃ first, outputs.findIdx? (same · x) = some first :=
    Option.isSome_iff_exists.mp (List.findIdx?_isSome.trans (List.any_eq_true.mpr ⟨y, hmem, hsame⟩))
  obtain ⟨hlt, hfound, -⟩ := List.findIdx?_eq_some_iff_getElem.mp hfirst
  refine ⟨first, by omega, ⟨outputs[first], x, ?_, hx, hfound⟩, ?_⟩
  · rw [houtputs first (by omega), List.getElem?_eq_getElem hlt, Option.map_some]
  · refine set_eq_error_iff.mpr (Or.inr ⟨_, rfl, setFrom_eq_error_iff.mpr ?_⟩)
    refine ⟨before, v, after, rfl, outputs, ?_, Or.inr ⟨x, first, ?_, hfirst, ?_⟩⟩
    · exact (setFrom_eq_ok_iff .nil).mpr ⟨outputs, hout, rfl, distinct_iff.mpr hdiff⟩
    · exact Option.some.inj (hv.symm.trans hx)
    · rw [Nat.zero_add]

end Sets

/-! ### Maps -/

/-- The key of the later pair equals that of the earlier one. -/
def EqualKeys (order : κ → κ → Ordering) (earlier later : κ × α) : Prop :=
  order later.1 earlier.1 = .eq

section Maps
variable {order : κ → κ → Ordering} [Std.TransCmp order] {key : Decoder κ} {value : Decoder α}
  {items : List Value} {i : Nat}

theorem mapping_of_no_fault
    (h : ∀ i, ¬ FaultAt (EqualKeys order) (results (tuple key value) items) i) :
    ∃ pairs, List.Forall₂ (tuple key value).Decodes items pairs ∧ Entries.Apart order pairs ∧
      mapping order key value (some (.array items)) = .ok (Entries.ofList order pairs) := by
  obtain ⟨pairs, hout, hapart⟩ := exists_outputs_of_no_fault h
  have hdecodes := results_eq_ok_iff.mp hout
  exact ⟨pairs, hdecodes, hapart, mapping_eq_ok_iff.mpr ⟨items, rfl, pairs, hdecodes, hapart, rfl⟩⟩

variable (h : FirstFaultAt (EqualKeys order) (results (tuple key value) items) i)
include h

theorem mapping_of_own_fault {e : Failure}
    (he : (results (tuple key value) items)[i]? = some (.error e)) :
    mapping order key value (some (.array items)) = .error (e.under (.index i)) := by
  obtain ⟨before, v, after, rfl, rfl, hv, pairs, hout, -, hapart⟩ := h.split
  have hrun := mapFrom_nil_eq_ok_iff.mpr ⟨pairs, hout, hapart, rfl⟩
  refine mapping_eq_error_iff.mpr (Or.inr ⟨_, rfl, mapFrom_eq_error_iff.mpr ?_⟩)
  refine ⟨before, v, after, rfl, _, hrun, Or.inl ⟨e, ?_, ?_⟩⟩
  · exact Option.some.inj (hv.symm.trans he)
  · rw [Nat.zero_add]

theorem mapping_of_duplicate {p : κ × α}
    (hp : (results (tuple key value) items)[i]? = some (.ok p)) :
    ∃ first < i, Repeats (EqualKeys order) (results (tuple key value) items) first i ∧
      mapping order key value (some (.array items)) = .error ⟨[.index i], .duplicateKey first⟩ := by
  obtain ⟨j, hj, q, hq, hsame⟩ := h.1.repeats hp
  obtain ⟨before, v, after, rfl, rfl, hv, pairs, hout, hpairs, hapart⟩ := h.split
  have hlength : before.length = pairs.length := hout.length_eq
  have hmem : q ∈ pairs := mem_of_getElem?_eq_map (hpairs j hj) hq
  obtain ⟨first, x, hfirst⟩ := exists_find?_placed hmem hsame
  obtain ⟨k, hfound, hk⟩ := getElem?_of_find?_placed hfirst
  have hlt := (List.getElem?_eq_some_iff.mp hfound).1
  refine ⟨first, by omega, ⟨(k, x), p, ?_, hp, hk⟩, ?_⟩
  · rw [hpairs first (by omega), hfound, Option.map_some]
  · have hrun := mapFrom_nil_eq_ok_iff.mpr ⟨pairs, hout, hapart, rfl⟩
    refine mapping_eq_error_iff.mpr (Or.inr ⟨_, rfl, mapFrom_eq_error_iff.mpr ?_⟩)
    refine ⟨before, v, after, rfl, _, hrun, Or.inr ⟨p.1, p.2, first, x, ?_, hfirst, ?_⟩⟩
    · exact Option.some.inj (hv.symm.trans hp)
    · rw [Nat.zero_add]

end Maps

end TypedJson.Decoder
