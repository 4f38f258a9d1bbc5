import TypedJson.Proofs.Failure.Inherited
import TypedJson.Proofs.Schema.Duplicates

/-!
# Sets and maps agree about duplicates

A set finds an earlier equal element by going through the elements, a map an earlier equal key by searching
ordered entries.  On pairs whose values all decode, the map of the pairs and the set of their firsts still go
the same way (`setAndMap`): a pair has the result of its first (`agree_keys`), equality and order find the
same keys equal as the keys can be ordered, and so both have the same first fault, for the same reason.

Only the failures differ: that of a key lies one step deeper in the map, and a duplicate is a duplicate value
of the set and a duplicate key of the map (`SetAndMap`).  From outside the two sorts of failures can be told
apart unless the keys make up duplicates of their own (`NoRootDuplicate`, `set_reports_made_up_duplicate`).
-/

namespace TypedJson.Schema

open Decoder

/-- **What the set of the keys and the map of the pairs come to, together.** -/
inductive SetAndMap (key : Schema) (pairs : List (Value × Value)) :
    (onSet onMap : Except Failure Output) → Prop
  /-- No key equals another one. -/
  | distinct {keys : List Output} {entries : List (Output × Output)}
    (hperm : (entries.map Prod.fst).Perm keys) (hsorted : Entries.Sorted Output.order entries) :
    SetAndMap key pairs (.ok (.list keys)) (.ok (.map entries))
  /-- There is no key at the position. -/
  | keyFails {p : Value × Value} {e : Failure} (hp : p ∈ pairs)
    (he : key.decoder (some p.1) = .error e) (i : Nat) :
    SetAndMap key pairs (.error (e.under (.index i))) (.error ((e.under (.index 0)).under (.index i)))
  | duplicate (first i : Nat) :
    SetAndMap key pairs (.error ⟨[.index i], .duplicateValue first⟩)
      (.error ⟨[.index i], .duplicateKey first⟩)

section SetsAndMaps
variable {key value : Schema} {pairs : List (Value × Value)}

/-- Given the values, a pair decodes as its key does. -/
theorem agree_keys (hkey : key.OrderedOutputs)
    (hvalues : ∀ p ∈ pairs, ∃ y, value.decoder (some p.2) = .ok y) :
    List.Forall₂ (Agree (fun e f => e.under (.index 0) = f) fun k x => (∃ y, .pair k y = x) ∧ k.Ordered)
      (results key.decoder (pairs.map Prod.fst))
      (results (tuple key value).decoder (pairs.map fun p => .array [p.1, p.2])) := by
  rw [results, results, List.forall₂_map_left_iff, List.forall₂_map_left_iff,
    List.forall₂_map_right_iff, List.forall₂_map_right_iff, List.forall₂_same]
  intro p hp
  obtain ⟨y, hy⟩ := hvalues p hp
  cases hk : key.decoder (some p.1) with
  | error e =>
    rw [show (tuple key value).decoder (some (.array [p.1, p.2])) = .error (e.under (.index 0)) from
      map_eq_error_iff.mpr (tuple_array_eq_error_iff.mpr (Or.inl ⟨e, hk, rfl⟩))]
    exact .error rfl
  | ok k =>
    rw [show (tuple key value).decoder (some (.array [p.1, p.2])) = .ok (.pair k y) from
      map_eq_ok_iff.mpr ⟨(k, y), tuple_eq_ok_iff.mpr ⟨_, _, rfl, hk, hy⟩, rfl⟩]
    exact .ok ⟨⟨y, rfl⟩, hkey _ _ hk⟩

theorem eqv_iff_sameKey (k x l y : Output) (hx : (∃ a, .pair k a = x) ∧ k.Ordered)
    (hy : (∃ b, .pair l b = y) ∧ l.Ordered) : l.eqv k = true ↔ SameKey y x := by
  obtain ⟨⟨a, rfl⟩, -⟩ := hx
  obtain ⟨⟨b, rfl⟩, hl⟩ := hy
  rw [hl.eqv_iff, sameKey_pair_iff]

/-- The keys of pairs that decode are the outputs of their firsts. -/
theorem keys_eq_of_decodes {keys : List Output} {outputs : List (Output × Output)}
    (hkey : key.OrderedOutputs) (hvalues : ∀ p ∈ pairs, ∃ y, value.decoder (some p.2) = .ok y)
    (hkeys : List.Forall₂ key.decoder.Decodes (pairs.map Prod.fst) keys)
    (houtputs : List.Forall₂ (tuple key value).decoder.Decodes
      (pairs.map fun p => .array [p.1, p.2]) (outputs.map fun p => .pair p.1 p.2)) :
    outputs.map Prod.fst = keys := by
  have hagree := agree_keys hkey hvalues
  rw [results_eq_ok_iff.mpr hkeys, results_eq_ok_iff.mpr houtputs, List.map_map,
    List.forall₂_map_left_iff, List.forall₂_map_right_iff] at hagree
  refine (List.forall₂_eq_eq_eq ▸ List.forall₂_map_right_iff.mpr (hagree.imp fun k p h => ?_)).symm
  cases h with
  | ok hk =>
    obtain ⟨⟨_, h⟩, -⟩ := hk
    exact (Output.pair.inj h).1

/-- **The set and the map go the same way.** -/
theorem setAndMap (hkey : key.OrderedOutputs)
    (hvalues : ∀ p ∈ pairs, ∃ y, value.decoder (some p.2) = .ok y) :
    SetAndMap key pairs ((set key).decoder (some (.array (pairs.map Prod.fst))))
      ((map key value).decoder (some (.array (pairs.map fun p => .array [p.1, p.2])))) := by
  have hagree := agree_keys hkey hvalues
  by_cases hnone : ∀ i, ¬ FaultAt (Output.eqv · ·) (results key.decoder (pairs.map Prod.fst)) i
  · have hnone' := fun i => (faultAt_iff_of_agree hagree eqv_iff_sameKey).not.mp (hnone i)
    obtain ⟨keys, hkeys, -, hset⟩ := set_of_no_fault hnone
    obtain ⟨outputs, houtputs, hapart, hmap⟩ := map_of_no_fault hkey hnone'
    have hset' : (set key).decoder (some (.array (pairs.map Prod.fst))) = .ok (.list keys) :=
      map_eq_ok_iff.mpr ⟨keys, hset, rfl⟩
    rw [hset', hmap]
    refine .distinct ?_ (Entries.sorted_ofList outputs)
    rw [← keys_eq_of_decodes hkey hvalues hkeys houtputs]
    exact (Entries.perm_ofList hapart).map Prod.fst
  · obtain ⟨i, hfault⟩ := exists_firstFaultAt hnone
    have hfault' := (firstFaultAt_iff_of_agree hagree eqv_iff_sameKey).mp hfault
    rcases getElem?_of_agree hagree i with ⟨hi, -⟩ | ⟨e, _, hi, hi', rfl⟩ | ⟨k, x, hi, hi', -⟩
    · exact absurd hfault.1.lt_length (Nat.not_lt.mpr (List.getElem?_eq_none_iff.mp hi))
    · obtain ⟨_, hv, he⟩ := List.mem_map.mp (List.mem_of_getElem? hi)
      obtain ⟨p, hp, rfl⟩ := List.mem_map.mp hv
      have hset : (set key).decoder (some (.array (pairs.map Prod.fst))) = .error (e.under (.index i)) :=
        map_eq_error_iff.mpr (set_of_own_fault hfault hi)
      rw [hset, map_of_own_fault hkey hfault' hi']
      exact .keyFails hp he i
    · obtain ⟨first, hlt, hrepeats, hset⟩ := set_of_duplicate hfault hi
      obtain ⟨first', hlt', hrepeats', hmap⟩ := map_of_duplicate hkey hfault' hi'
      obtain rfl : first = first' := eq_of_repeats hfault' sameKey_euclid hlt
        ((repeats_iff_of_agree hagree eqv_iff_sameKey).mp hrepeats) hlt' hrepeats'
      have hset' : (set key).decoder (some (.array (pairs.map Prod.fst))) =
          .error ⟨[.index i], .duplicateValue first⟩ := map_eq_error_iff.mpr hset
      rw [hset', hmap]
      exact .duplicate first i

namespace SetAndMap

variable {onSet onMap : Except Failure Output} (h : SetAndMap key pairs onSet onMap)
include h

theorem succeeds_iff : (∃ x, onMap = .ok x) ↔ ∃ x, onSet = .ok x := by
  cases h <;> simp

theorem keys_of_ok {x y : Output} (hx : onMap = .ok x) (hy : onSet = .ok y) :
    ∃ entries keys, x = .map entries ∧ y = .list keys ∧ (entries.map Prod.fst).Perm keys ∧
      Entries.Sorted Output.order entries := by
  cases h with
  | distinct hperm hsorted =>
    cases hx
    cases hy
    exact ⟨_, _, rfl, rfl, hperm, hsorted⟩
  | keyFails => cases hx
  | duplicate => cases hx

theorem set_fails_iff {i : Nat} {rest : List Step} {cause : Cause Failure} :
    onSet = .error ⟨.index i :: rest, cause⟩ ↔
      onMap = .error ⟨.index i :: .index 0 :: rest, cause⟩ ∨
      ∃ first, rest = [] ∧ cause = .duplicateValue first ∧
        onMap = .error ⟨[.index i], .duplicateKey first⟩ := by
  cases h with
  | distinct => simp
  | keyFails => simp [Failure.under]
  | duplicate first j =>
    simp only [Except.error.injEq, Failure.mk.injEq, List.cons.injEq, Step.index.injEq,
      Cause.duplicateKey.injEq, reduceCtorEq, false_and, and_false, false_or, and_true]
    constructor
    · rintro ⟨⟨rfl, rfl⟩, rfl⟩
      exact ⟨first, rfl, rfl, rfl, rfl⟩
    · rintro ⟨_, rfl, rfl, rfl, rfl⟩
      exact ⟨⟨rfl, rfl⟩, rfl⟩

/-- A failure of the map at a key is one of the key schema. -/
theorem key_fails_of_map {i : Nat} {rest : List Step} {cause : Cause Failure}
    (hmap : onMap = .error ⟨.index i :: .index 0 :: rest, cause⟩) :
    ∃ p ∈ pairs, key.decoder (some p.1) = .error ⟨rest, cause⟩ := by
  cases h with
  | distinct => cases hmap
  | @keyFails p e hp he j =>
    obtain ⟨path, cause⟩ := e
    cases hmap
    exact ⟨p, hp, he⟩
  | duplicate => cases hmap

variable (hroot : ∀ p ∈ pairs, ∀ first, key.decoder (some p.1) ≠ .error ⟨[], .duplicateValue first⟩)
include hroot

theorem duplicate_iff {i first : Nat} :
    onMap = .error ⟨[.index i], .duplicateKey first⟩ ↔
      onSet = .error ⟨[.index i], .duplicateValue first⟩ := by
  rw [h.set_fails_iff]
  constructor
  · exact fun hmap => Or.inr ⟨first, rfl, rfl, hmap⟩
  · rintro (hmap | ⟨_, -, heq, hmap⟩)
    · obtain ⟨p, hp, he⟩ := h.key_fails_of_map hmap
      exact absurd he (hroot p hp first)
    · rw [hmap, Cause.duplicateValue.inj heq]

theorem key_fails_iff {i : Nat} {rest : List Step} {cause : Cause Failure} :
    onMap = .error ⟨.index i :: .index 0 :: rest, cause⟩ ↔
      onSet = .error ⟨.index i :: rest, cause⟩ ∧
        ¬ (rest = [] ∧ ∃ first, cause = .duplicateValue first) := by
  rw [h.set_fails_iff]
  constructor
  · refine fun hmap => ⟨Or.inl hmap, ?_⟩
    rintro ⟨rfl, first, rfl⟩
    obtain ⟨p, hp, he⟩ := h.key_fails_of_map hmap
    exact hroot p hp first he
  · rintro ⟨hmap | ⟨first, hrest, hcause, -⟩, hne⟩
    · exact hmap
    · exact absurd ⟨hrest, first, hcause⟩ hne

end SetAndMap

/-- The failure is not that of a duplicate at the root of the input. -/
def NoRootDuplicate (_ : Option Value) (e : Failure) : Prop :=
  ∀ first, e ≠ ⟨[], .duplicateValue first⟩

/-- Only plain functions make such a failure. -/
theorem noRootDuplicate_inherited : Failure.Inherited NoRootDuplicate :=
  Failure.inherited_not_root fun _ => trivial

/-- **The map of pairs and the set of their firsts agree about duplicates**, if the values decode.  One
succeeds if the other does, and then the keys of the map are the elements of the set in order.  The set fails
under an element if the map fails at the key of that pair, in the same place and for the same reason, or if
the pair has a duplicate key.

The key schema may itself fail at its root for a duplicate, but only if it holds a plain function that makes
such a failure up.  If it holds none, a duplicate key of the map is a duplicate value of the set, with the
same two indices, and the other failures of the set are those of the map at a key. -/
theorem map_agrees_with_set (hkey : key.OrderedOutputs)
    (hvalues : ∀ p ∈ pairs, ∃ y, value.decoder (some p.2) = .ok y) :
    let onSet := (set key).decoder (some (.array (pairs.map Prod.fst)))
    let onMap := (map key value).decoder (some (.array (pairs.map fun p => .array [p.1, p.2])))
    ((∃ x, onMap = .ok x) ↔ ∃ x, onSet = .ok x) ∧
    (∀ x y, onMap = .ok x → onSet = .ok y → ∃ entries keys, x = .map entries ∧ y = .list keys ∧
      (entries.map Prod.fst).Perm keys ∧ Entries.Sorted Output.order entries) ∧
    (∀ i rest cause, onSet = .error ⟨.index i :: rest, cause⟩ ↔
      onMap = .error ⟨.index i :: .index 0 :: rest, cause⟩ ∨
      ∃ first, rest = [] ∧ cause = .duplicateValue first ∧
        onMap = .error ⟨[.index i], .duplicateKey first⟩) ∧
    (key.BuiltFrom (Decoder.FailsWith NoRootDuplicate) (fun _ => True) →
      (∀ p ∈ pairs, p.1.WellFormed) →
      (∀ i first, onMap = .error ⟨[.index i], .duplicateKey first⟩ ↔
        onSet = .error ⟨[.index i], .duplicateValue first⟩) ∧
      ∀ i rest cause, onMap = .error ⟨.index i :: .index 0 :: rest, cause⟩ ↔
        onSet = .error ⟨.index i :: rest, cause⟩ ∧
          ¬ (rest = [] ∧ ∃ first, cause = .duplicateValue first)) := by
  intro onSet onMap
  have h : SetAndMap key pairs onSet onMap := setAndMap hkey hvalues
  refine ⟨h.succeeds_iff, fun _ _ => h.keys_of_ok, fun _ _ _ => h.set_fails_iff, fun hplain hwf => ?_⟩
  have hroot : ∀ p ∈ pairs, ∀ first, key.decoder (some p.1) ≠ .error ⟨[], .duplicateValue first⟩ :=
    fun p hp first he => hplain.failsWith noRootDuplicate_inherited (some p.1) (hwf p hp) _ he first rfl
  exact ⟨fun _ _ => h.duplicate_iff hroot, fun _ _ _ => h.key_fails_iff hroot⟩

end SetsAndMaps

theorem orderedOutputs_even : even.OrderedOutputs := by
  intro input x h
  obtain ⟨y, -, h⟩ := bind_eq_ok_iff.mp h
  split at h <;> cases h
  exact .int _

theorem decoder_even_int (n : ℤ) : even.decoder (some (.int n)) =
    if (Binary64.ofInt n).isEven then .ok (.int (toInt64 (Binary64.ofInt n)))
    else .error (.valueMismatch (.string "even number") (some (.int n))) := by
  have hnumber : Decoder.number (some (.int n)) = .ok (Binary64.ofInt n) := rfl
  simp only [even, Schema.decoder, hnumber, bind, Except.bind]

/-- Even numbers are read by a plain function.  A number that stands twice is a duplicate for both, and an
odd one is no key for either. -/
theorem map_agrees_with_set_repeated_key :
    let pairs (n : ℤ) : List (Value × Value) := [(.int 2, .null), (.int 4, .null), (.int n, .null)]
    let onMap (n : ℤ) := (map even null).decoder (some (.array ((pairs n).map fun p => .array [p.1, p.2])))
    even.OrderedOutputs ∧ even.BuiltFrom (Decoder.FailsWith NoRootDuplicate) (fun _ => True) ∧
      (∀ n, ∀ p ∈ pairs n, ∃ y, null.decoder (some p.2) = .ok y) ∧
      onMap 2 = .error ⟨[.index 2], .duplicateKey 0⟩ ∧
      onMap 3 = .error ⟨[.index 2, .index 0], .valueMismatch (.string "even number") (some (.int 3))⟩ := by
  intro pairs onMap
  have hplain : even.BuiltFrom (Decoder.FailsWith NoRootDuplicate) fun _ => True :=
    .custom (failsWith_of_specialLeaf noRootDuplicate_inherited List.mem_cons_self)
  have hvalues : ∀ n, ∀ p ∈ pairs n, ∃ y, null.decoder (some p.2) = .ok y := by
    simp [pairs, Schema.decoder, Decoder.map, Decoder.null]
  have hwf : ∀ n, ∀ p ∈ pairs n, p.1.WellFormed := by
    simp [pairs, Value.int, Value.WellFormed]
  have hagree := fun n =>
    (map_agrees_with_set orderedOutputs_even (hvalues n)).2.2.2 hplain (hwf n)
  have heven : ∀ n, (Binary64.ofInt n).isEven = true ∧ toInt64 (Binary64.ofInt n) = n →
      even.decoder (some (.int n)) = .ok (.int n) := by
    rintro n ⟨heven, hint⟩
    rw [decoder_even_int, if_pos heven, hint]
  have htwo := heven 2 (by decide +kernel)
  have hfour := heven 4 (by decide +kernel)
  have hthree : even.decoder (some (.int 3)) =
      .error (.valueMismatch (.string "even number") (some (.int 3))) := by
    have hodd : ¬ (Binary64.ofInt 3).isEven = true := by decide +kernel
    rw [decoder_even_int, if_neg hodd]
  have hrepeated : (set even).decoder (some (.array ((pairs 2).map Prod.fst))) =
      .error ⟨[.index 2], .duplicateValue 0⟩ := by
    rw [Schema.decoder]
    simp [pairs, Decoder.map, Decoder.set, expectArray, setFrom, htwo, hfour, Output.eqv,
      List.findIdx?_cons, bind, Except.bind, Failure.under, Failure.ofCause]
  have hodd : (set even).decoder (some (.array ((pairs 3).map Prod.fst))) =
      .error ⟨[.index 2], .valueMismatch (.string "even number") (some (.int 3))⟩ := by
    rw [Schema.decoder]
    simp [pairs, Decoder.map, Decoder.set, expectArray, setFrom, htwo, hfour, hthree, Output.eqv,
      List.findIdx?_cons, bind, Except.bind, Failure.under, Failure.ofCause, Failure.valueMismatch]
  exact ⟨orderedOutputs_even, hplain, hvalues, ((hagree 2).1 2 0).mpr hrepeated,
    ((hagree 3).2 2 [] _).mpr ⟨hodd, by simp⟩⟩

/-- **A plain function may make up a duplicate**: the set reports it like one of its own, and the map does
not, though all values decode and the outputs can be ordered. -/
theorem set_reports_made_up_duplicate :
    let key := custom fun _ => .error (.ofCause (.duplicateValue 0))
    let pairs : List (Value × Value) := [(.null, .null)]
    let onSet := (set key).decoder (some (.array (pairs.map Prod.fst)))
    let onMap := (map key null).decoder (some (.array (pairs.map fun p => .array [p.1, p.2])))
    key.OrderedOutputs ∧ (∀ p ∈ pairs, ∃ y, null.decoder (some p.2) = .ok y) ∧
      onSet = .error ⟨[.index 0], .duplicateValue 0⟩ ∧
      onMap = .error ⟨[.index 0, .index 0], .duplicateValue 0⟩ ∧
      ¬ (onMap = .error ⟨[.index 0], .duplicateKey 0⟩ ↔ onSet = .error ⟨[.index 0], .duplicateValue 0⟩) := by
  intro key pairs onSet onMap
  have hkey : key.OrderedOutputs := fun _ _ h => nomatch h
  have hvalues : ∀ p ∈ pairs, ∃ y, null.decoder (some p.2) = .ok y := by
    simp [pairs, Schema.decoder, Decoder.map, Decoder.null]
  have hset : onSet = .error ⟨[.index 0], .duplicateValue 0⟩ := rfl
  have hmap : onMap = .error ⟨[.index 0, .index 0], .duplicateValue 0⟩ := rfl
  refine ⟨hkey, hvalues, hset, hmap, fun hiff => ?_⟩
  have hduplicate := hiff.mpr hset
  rw [hmap] at hduplicate
  cases hduplicate

end TypedJson.Schema
