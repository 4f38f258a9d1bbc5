/-!
# Key-ordered entries

A finite map is the list of its entries by increasing key, under an order that the caller passes.
Insertion keeps the order, and an entry with an equal key gives way to the new value.  Keys that the
order finds equal are one key, so that the laws hold of every transitive order, linear or not:

* what is found after an insertion (`find?_insert`);
* insertion keeps keys strictly increasing (`sorted_insert`), so any list of pairs turns into such
  entries (`sorted_ofList`).
-/

namespace TypedJson.Entries

variable {κ α : Type}

/-- The value stored under a key that `order` finds equal to `key`. -/
def find? (order : κ → κ → Ordering) (key : κ) : List (κ × α) → Option α
  | [] => none
  | (k, a) :: rest => if order key k = .eq then some a else find? order key rest

/-- Stores a value under a key, in place of the one that was there. -/
def insert (order : κ → κ → Ordering) (key : κ) (value : α) : List (κ × α) → List (κ × α)
  | [] => [(key, value)]
  | (k, a) :: rest =>
    match order key k with
    | .lt => (key, value) :: (k, a) :: rest
    | .eq => (k, value) :: rest
    | .gt => (k, a) :: insert order key value rest

/-- The entries of a list of pairs; of equal keys the last value stays. -/
def ofList (order : κ → κ → Ordering) (pairs : List (κ × α)) : List (κ × α) :=
  pairs.foldl (fun entries pair => insert order pair.1 pair.2 entries) []

/-- Keys strictly increase. -/
def Sorted (order : κ → κ → Ordering) (entries : List (κ × α)) : Prop :=
  entries.Pairwise fun a b => order a.1 b.1 = .lt

/-! ### Laws -/

variable {order : κ → κ → Ordering}

theorem sorted_nil : Sorted order ([] : List (κ × α)) := List.Pairwise.nil

theorem sorted_cons {entry : κ × α} {rest : List (κ × α)} :
    Sorted order (entry :: rest) ↔
      (∀ other ∈ rest, order entry.1 other.1 = .lt) ∧ Sorted order rest :=
  List.pairwise_cons

variable [Std.TransCmp order]

/-- An insertion shows under the inserted key and nowhere else. -/
theorem find?_insert (key : κ) (value : α) (entries : List (κ × α)) (k : κ) :
    find? order k (insert order key value entries) =
      if order k key = .eq then some value else find? order k entries := by
  induction entries with
  | nil => rfl
  | cons entry rest ih =>
    obtain ⟨l, a⟩ := entry
    cases h : order key l with
    | lt => simp [insert, h, find?]
    | eq =>
      have hl : order k key = order k l := Std.TransCmp.congr_right h
      simp only [insert, h, find?, hl]
      split <;> rfl
    | gt =>
      simp only [insert, h, find?, ih]
      by_cases hk : order k l = .eq
      · have hne : order k key ≠ .eq := by
          intro he
          have h' : order l key = order k key := (Std.TransCmp.congr_left hk).symm
          rw [he] at h'
          have hs : order key l = (order l key).swap := Std.OrientedCmp.eq_swap
          rw [hs, h'] at h
          exact absurd h (by decide)
        rw [if_pos hk, if_pos hk, if_neg hne]
      · rw [if_neg hk, if_neg hk]

/-- Insertion adds no other key. -/
theorem mem_insert {key : κ} {value : α} {entries : List (κ × α)} {entry : κ × α}
    (h : entry ∈ insert order key value entries) :
    order key entry.1 = .eq ∨ entry ∈ entries := by
  induction entries with
  | nil =>
    obtain rfl := List.mem_singleton.mp h
    exact Or.inl Std.ReflCmp.compare_self
  | cons first rest ih =>
    obtain ⟨l, a⟩ := first
    cases hl : order key l with
    | lt =>
      rw [insert, hl] at h
      rcases List.mem_cons.mp h with rfl | h
      · exact Or.inl Std.ReflCmp.compare_self
      · exact Or.inr h
    | eq =>
      rw [insert, hl] at h
      rcases List.mem_cons.mp h with rfl | h
      · exact Or.inl hl
      · exact Or.inr (List.mem_cons_of_mem _ h)
    | gt =>
      rw [insert, hl] at h
      rcases List.mem_cons.mp h with rfl | h
      · exact Or.inr List.mem_cons_self
      · exact (ih h).imp id (List.mem_cons_of_mem _)

/-- **Insertion keeps keys strictly increasing.** -/
theorem sorted_insert (key : κ) (value : α) {entries : List (κ × α)}
    (hs : Sorted order entries) : Sorted order (insert order key value entries) := by
  induction entries with
  | nil => exact sorted_cons.mpr ⟨by simp, sorted_nil⟩
  | cons entry rest ih =>
    obtain ⟨l, a⟩ := entry
    obtain ⟨hlt, hrest⟩ := sorted_cons.mp hs
    cases h : order key l with
    | lt =>
      rw [insert, h]
      refine sorted_cons.mpr ⟨fun other ho => ?_, hs⟩
      rcases List.mem_cons.mp ho with rfl | ho
      · exact h
      · exact Std.TransCmp.lt_trans h (hlt other ho)
    | eq =>
      rw [insert, h]
      exact sorted_cons.mpr ⟨hlt, hrest⟩
    | gt =>
      rw [insert, h]
      refine sorted_cons.mpr ⟨fun other ho => ?_, ih hrest⟩
      have hl : order l key = .lt := Std.OrientedCmp.gt_iff_lt.mp h
      rcases mem_insert ho with he | ho
      · exact Std.TransCmp.lt_of_lt_of_eq hl he
      · exact hlt other ho

theorem sorted_ofList (pairs : List (κ × α)) : Sorted order (ofList order pairs) := by
  suffices h : ∀ entries : List (κ × α), Sorted order entries →
      Sorted order (pairs.foldl (fun es pair => insert order pair.1 pair.2 es) entries) from
    h [] sorted_nil
  induction pairs with
  | nil => exact fun _ hs => hs
  | cons pair rest ih => exact fun entries hs => ih _ (sorted_insert pair.1 pair.2 hs)

end TypedJson.Entries
