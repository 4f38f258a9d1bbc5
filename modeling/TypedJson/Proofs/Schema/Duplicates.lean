import TypedJson.Proofs.Decoder.Duplicates
import TypedJson.Proofs.Output.Ordered
import TypedJson.Schema.Decoding

/-!
# Sets and maps are arrays without duplicates

A set decodes what the array of the same elements decodes, and a map what the array of the same pairs
decodes, but for duplicates.  The first fault decides (`Decoder.FirstFaultAt`): if there is none, the outputs
are those of the array; if the element fails by itself, set and array fail alike; and if it repeats an
earlier element, the set fails with the index of that element.

Outputs of a set are the same if they are equal, which is an equivalence (`eqv_euclid`).  Keys of a map are
compared by their order, which finds no more keys equal than there are if the outputs of the key schema can
be ordered (`OrderedOutputs`); so there the same keys are meant literally (`SameKey`).
-/

namespace TypedJson.Schema

open Decoder

/-! ### Sets -/

theorem eqv_euclid (x y z : Output) (h : x.eqv z = true) (h' : y.eqv z = true) : x.eqv y = true :=
  Output.eqv_trans h (Output.eqv_comm y z ▸ h')

/-- **A set is an array without duplicates.**  Without fault both have the same pairwise unequal outputs.  Of
a first fault at `i`, a failure of the element is the failure of both; if the element has an output, it is
the same as that of one element before, and the set reports the index of that element.  What is no array is
of the wrong shape for both. -/
theorem set_is_array_without_duplicates (s : Schema) :
    (∀ items : List Value,
      let rs := results s.decoder items
      let input := some (Value.array items)
      ((∀ i, ¬ FaultAt (Output.eqv · ·) rs i) → ∃ outputs,
        (array s).decoder input = .ok (.list outputs) ∧
        (set s).decoder input = .ok (.list outputs) ∧
        outputs.Pairwise fun y x => y.eqv x = false) ∧
      ∀ i, FirstFaultAt (Output.eqv · ·) rs i →
        (∀ e, rs[i]? = some (.error e) →
          (array s).decoder input = .error (e.under (.index i)) ∧
          (set s).decoder input = .error (e.under (.index i))) ∧
        ∀ x, rs[i]? = some (.ok x) → ∃ first < i, Repeats (Output.eqv · ·) rs first i ∧
          (∀ j < i, Repeats (Output.eqv · ·) rs j i → j = first) ∧
          (set s).decoder input = .error ⟨[.index i], .duplicateValue first⟩) ∧
    ∀ input, (∀ items, input ≠ some (Value.array items)) →
      (array s).decoder input = .error (.shapeMismatch .array input) ∧
      (set s).decoder input = .error (.shapeMismatch .array input) := by
  refine ⟨fun items => ⟨fun h => ?_, fun i h => ⟨fun e he => ?_, fun x hx => ?_⟩⟩, fun input h => ?_⟩
  · obtain ⟨outputs, hdecodes, hdistinct, hset⟩ := set_of_no_fault h
    have harray := array_eq_ok_iff.mpr ⟨items, rfl, hdecodes⟩
    exact ⟨outputs, map_eq_ok_iff.mpr ⟨_, harray, rfl⟩, map_eq_ok_iff.mpr ⟨_, hset, rfl⟩, hdistinct⟩
  · exact ⟨map_eq_error_iff.mpr (array_of_own_fault h he), map_eq_error_iff.mpr (set_of_own_fault h he)⟩
  · obtain ⟨first, hlt, hfirst, hset⟩ := set_of_duplicate h hx
    refine ⟨first, hlt, hfirst, fun j hj hrepeats => ?_, map_eq_error_iff.mpr hset⟩
    exact eq_of_repeats h eqv_euclid hj hrepeats hlt hfirst
  · have hshape := expectArray_of_not_array h
    exact ⟨map_eq_error_iff.mpr (array_eq_error_iff.mpr (Or.inl hshape)),
      map_eq_error_iff.mpr (set_eq_error_iff.mpr (Or.inl hshape))⟩

/-- The two zeros are duplicates of each other. -/
theorem set_is_array_without_duplicates_zeros :
    (set number).decoder (some (.array [.number (.int 0), .number (.float (.zero true))])) =
      .error ⟨[.index 1], .duplicateValue 0⟩ := by
  let items : List Value := [.number (.int 0), .number (.float (.zero true))]
  have hrs : results number.decoder items =
      [.ok (.float (Number.int 0).toBinary64), .ok (.float (.zero true))] := rfl
  have heqv : (Output.float (Number.int 0).toBinary64).eqv (.float (.zero true)) = true := by
    rw [Output.eqv]
    decide +kernel
  have hfirst : FirstFaultAt (Output.eqv · ·) (results number.decoder items) 1 := by
    rw [hrs]
    refine ⟨Or.inr ⟨0, by decide, _, _, rfl, rfl, heqv⟩, ?_⟩
    rintro (_ | i) h
    · simp [FaultAt] at h
    · omega
  have hzero : (results number.decoder items)[1]? = some (.ok (.float (.zero true))) := rfl
  obtain ⟨first, hlt, -, -, hset⟩ :=
    (((set_is_array_without_duplicates number).1 items).2 1 hfirst).2 _ hzero
  obtain rfl : first = 0 := by omega
  exact hset

/-! ### Maps -/

/-- Every output of the schema is one that can be ordered. -/
def OrderedOutputs (s : Schema) : Prop := ∀ input x, s.decoder input = .ok x → x.Ordered

theorem orderedOutputs_string : string.OrderedOutputs := by
  intro input x h
  obtain ⟨text, -, rfl⟩ := map_eq_ok_iff.mp h
  exact .text text

/-- Two pairs with one key. -/
def SameKey (p q : Output) : Prop := ∃ k x y, p = .pair k x ∧ q = .pair k y

theorem sameKey_euclid (x y z : Output) (h : SameKey x z) (h' : SameKey y z) : SameKey x y := by
  obtain ⟨k, a, b, rfl, hz⟩ := h
  obtain ⟨l, c, d, rfl, hz'⟩ := h'
  exact ⟨k, a, c, rfl, by rw [(Output.pair.inj (hz.symm.trans hz')).1]⟩

theorem sameKey_pair_iff {k l x y : Output} : SameKey (.pair k x) (.pair l y) ↔ k = l := by
  constructor
  · rintro ⟨_, _, _, hp, hq⟩
    rw [(Output.pair.inj hp).1, (Output.pair.inj hq).1]
  · rintro rfl
    exact ⟨k, x, y, rfl, rfl⟩

/-- The results of pairs as outputs of the schema, and as pairs. -/
theorem agree_tuple {key : Schema} (hkey : key.OrderedOutputs) (value : Schema) (items : List Value) :
    List.Forall₂ (Agree Eq fun p x => .pair p.1 p.2 = x ∧ p.1.Ordered)
      (results (Decoder.tuple key.decoder value.decoder) items)
      (results (tuple key value).decoder items) := by
  rw [results, results, List.forall₂_map_left_iff, List.forall₂_map_right_iff, List.forall₂_same]
  intro v _
  cases hv : Decoder.tuple key.decoder value.decoder (some v) with
  | error e =>
    rw [show (tuple key value).decoder (some v) = .error e from map_eq_error_iff.mpr hv]
    exact .error rfl
  | ok p =>
    obtain ⟨_, _, -, hk, -⟩ := tuple_eq_ok_iff.mp hv
    rw [show (tuple key value).decoder (some v) = .ok (.pair p.1 p.2) from
      map_eq_ok_iff.mpr ⟨p, hv, rfl⟩]
    exact .ok ⟨rfl, hkey _ _ hk⟩

/-- Keys that can be ordered are equal under the order only if they are the same. -/
theorem equalKeys_iff_sameKey (p : Output × Output) (x : Output) (q : Output × Output) (y : Output)
    (hx : .pair p.1 p.2 = x ∧ p.1.Ordered) (hy : .pair q.1 q.2 = y ∧ q.1.Ordered) :
    EqualKeys Output.order q p ↔ SameKey y x := by
  rw [← hx.1, ← hy.1, EqualKeys, hx.2.order_eq_iff, sameKey_pair_iff, eq_comm]

section Maps
variable {key value : Schema} (hkey : key.OrderedOutputs) {items : List Value}
include hkey

theorem map_of_no_fault (h : ∀ i, ¬ FaultAt SameKey (results (tuple key value).decoder items) i) :
    ∃ pairs : List (Output × Output),
      List.Forall₂ (tuple key value).decoder.Decodes items (pairs.map fun p => .pair p.1 p.2) ∧
      Entries.Apart Output.order pairs ∧
      (map key value).decoder (some (.array items)) = .ok (.map (Entries.ofList Output.order pairs)) := by
  have hagree := agree_tuple hkey value items
  obtain ⟨pairs, hdecodes, hapart, hmap⟩ := mapping_of_no_fault fun i =>
    (faultAt_iff_of_agree hagree equalKeys_iff_sameKey).not.mpr (h i)
  refine ⟨pairs, List.forall₂_map_right_iff.mpr (hdecodes.imp fun v p hp => ?_), hapart,
    map_eq_ok_iff.mpr ⟨_, hmap, rfl⟩⟩
  exact map_eq_ok_iff.mpr ⟨p, hp, rfl⟩

variable {i : Nat} (h : FirstFaultAt SameKey (results (tuple key value).decoder items) i)
include h

theorem map_of_own_fault {e : Failure}
    (he : (results (tuple key value).decoder items)[i]? = some (.error e)) :
    (map key value).decoder (some (.array items)) = .error (e.under (.index i)) := by
  have hagree := agree_tuple hkey value items
  have hfirst := (firstFaultAt_iff_of_agree hagree equalKeys_iff_sameKey).mpr h
  rcases getElem?_of_agree hagree i with ⟨-, hi⟩ | ⟨_, _, hi, hi', rfl⟩ | ⟨_, _, -, hi, -⟩
  · cases hi.symm.trans he
  · obtain rfl := Except.error.inj (Option.some.inj (hi'.symm.trans he))
    exact map_eq_error_iff.mpr (mapping_of_own_fault hfirst hi)
  · cases hi.symm.trans he

theorem map_of_duplicate {x : Output}
    (hx : (results (tuple key value).decoder items)[i]? = some (.ok x)) :
    ∃ first < i, Repeats SameKey (results (tuple key value).decoder items) first i ∧
      (map key value).decoder (some (.array items)) =
        .error ⟨[.index i], .duplicateKey first⟩ := by
  have hagree := agree_tuple hkey value items
  have hfirst := (firstFaultAt_iff_of_agree hagree equalKeys_iff_sameKey).mpr h
  rcases getElem?_of_agree hagree i with ⟨-, hi⟩ | ⟨_, _, -, hi, -⟩ | ⟨p, _, hi, -, -⟩
  · cases hi.symm.trans hx
  · cases hi.symm.trans hx
  · obtain ⟨first, hlt, hrepeats, hmap⟩ := mapping_of_duplicate hfirst hi
    exact ⟨first, hlt, (repeats_iff_of_agree hagree equalKeys_iff_sameKey).mp hrepeats,
      map_eq_error_iff.mpr hmap⟩

end Maps

/-- **A map is an array of pairs without duplicate keys.**  Without fault the entries are the pairs that the
array decodes, in the order of their keys, one for each element.  Of a first fault at `i`, a failure of the
pair is the failure of both; if the pair has an output, its key is that of one pair before, and the map
reports the index of that pair.  So a value that fails is reported even if its key is a duplicate. -/
theorem map_is_array_of_pairs_without_duplicates {key value : Schema} (hkey : key.OrderedOutputs)
    (items : List Value) :
    let rs := results (tuple key value).decoder items
    let input := some (Value.array items)
    ((∀ i, ¬ FaultAt SameKey rs i) → ∃ outputs entries,
      (array (tuple key value)).decoder input = .ok (.list outputs) ∧
      (map key value).decoder input = .ok (.map entries) ∧
      entries.length = items.length ∧
      (∀ k x, (k, x) ∈ entries ↔ .pair k x ∈ outputs) ∧
      Entries.Sorted Output.order entries) ∧
    ∀ i, FirstFaultAt SameKey rs i →
      (∀ e, rs[i]? = some (.error e) →
        (array (tuple key value)).decoder input = .error (e.under (.index i)) ∧
        (map key value).decoder input = .error (e.under (.index i))) ∧
      (∀ x, rs[i]? = some (.ok x) → ∃ first < i, Repeats SameKey rs first i ∧
        (∀ j < i, Repeats SameKey rs j i → j = first) ∧
        (map key value).decoder input = .error ⟨[.index i], .duplicateKey first⟩) ∧
      ∀ v w k e, items[i]? = some (.array [v, w]) → key.decoder (some v) = .ok k →
        value.decoder (some w) = .error e →
        (map key value).decoder input = .error ((e.under (.index 1)).under (.index i)) := by
  intro rs input
  refine ⟨fun h => ?_, fun i h => ⟨fun e he => ?_, fun x hx => ?_, fun v w k e hi hk he => ?_⟩⟩
  · obtain ⟨pairs, hdecodes, hapart, hmap⟩ := map_of_no_fault hkey h
    have hperm := Entries.perm_ofList hapart
    refine ⟨pairs.map fun p => .pair p.1 p.2, _, ?_, hmap, ?_, fun k x => ?_,
      Entries.sorted_ofList pairs⟩
    · exact map_eq_ok_iff.mpr ⟨_, array_eq_ok_iff.mpr ⟨items, rfl, hdecodes⟩, rfl⟩
    · rw [hperm.length_eq, hdecodes.length_eq, List.length_map]
    · simp [hperm.mem_iff]
  · exact ⟨map_eq_error_iff.mpr (array_of_own_fault h he), map_of_own_fault hkey h he⟩
  · obtain ⟨first, hlt, hfirst, hmap⟩ := map_of_duplicate hkey h hx
    refine ⟨first, hlt, hfirst, fun j hj hrepeats => ?_, hmap⟩
    exact eq_of_repeats h sameKey_euclid hj hrepeats hlt hfirst
  · have hpair : (tuple key value).decoder (some (.array [v, w])) = .error (e.under (.index 1)) :=
      map_eq_error_iff.mpr (tuple_array_eq_error_iff.mpr (Or.inr ⟨⟨k, hk⟩, e, he, rfl⟩))
    refine map_of_own_fault hkey h ?_
    rw [results, List.getElem?_map, hi, Option.map_some, hpair]

/-- A key that stands twice. -/
theorem map_is_array_of_pairs_repeated_key :
    string.OrderedOutputs ∧
      (map string null).decoder (some (.array
        [.array [.string "a", .null], .array [.string "a", .null]])) =
        .error ⟨[.index 1], .duplicateKey 0⟩ := by
  let items : List Value := [.array [.string "a", .null], .array [.string "a", .null]]
  have hrs : results (tuple string null).decoder items =
      [.ok (.pair (.text "a") .unit), .ok (.pair (.text "a") .unit)] := rfl
  have hfirst : FirstFaultAt SameKey (results (tuple string null).decoder items) 1 := by
    rw [hrs]
    refine ⟨Or.inr ⟨0, by decide, _, _, rfl, rfl, sameKey_pair_iff.mpr rfl⟩, ?_⟩
    rintro (_ | i) h
    · simp [FaultAt] at h
    · omega
  have hsecond : (results (tuple string null).decoder items)[1]? =
      some (.ok (.pair (.text "a") .unit)) := rfl
  obtain ⟨first, hlt, -, -, hmap⟩ :=
    ((map_is_array_of_pairs_without_duplicates orderedOutputs_string items).2 1 hfirst).2.1 _ hsecond
  obtain rfl : first = 0 := by omega
  exact ⟨orderedOutputs_string, hmap⟩

end TypedJson.Schema
