import TypedJson.Proofs.Decoder.Successes
import TypedJson.Proofs.Output.Order
import TypedJson.Schema.Decoding
import Mathlib.Data.List.FinRange

/-!
# The order of entries does not matter

Sets and maps read an array from left to right and compare each element with those before, but which
arrays they accept does not depend on the order of the elements.  An array of `n` elements is a function
`v` on `Fin n` here, and `v ∘ σ` has the same elements in another order:

* a set of the rearranged array is the set of the array, rearranged in the same way
  (`Decoder.set_rearranged`), since equality of outputs is symmetric;
* a map of the rearranged array is the map of the array (`Decoder.mapping_rearranged`), since entries are
  kept in the order of their keys.
-/

namespace TypedJson

namespace Decoder

variable {α κ : Type} {n : Nat}

theorem forall₂_ofFn_iff {β γ : Type} {R : β → γ → Prop} {v : Fin n → β} {x : Fin n → γ} :
    List.Forall₂ R (List.ofFn v) (List.ofFn x) ↔ ∀ i, R (v i) (x i) := by
  induction n with
  | zero => simp
  | succ n ih => simp [List.ofFn_succ, Fin.forall_fin_succ, ih]

/-- What is related to the elements of `v` one by one has as many elements. -/
theorem exists_ofFn_of_forall₂ {β γ : Type} {R : β → γ → Prop} {v : Fin n → β} {ys : List γ}
    (h : List.Forall₂ R (List.ofFn v) ys) : ∃ x : Fin n → γ, ys = List.ofFn x ∧ ∀ i, R (v i) (x i) := by
  obtain rfl : n = ys.length := by simpa using h.length_eq
  have hys : List.Forall₂ R (List.ofFn v) (List.ofFn ys.get) := by rwa [List.ofFn_get]
  exact ⟨ys.get, (List.ofFn_get ys).symm, forall₂_ofFn_iff.mp hys⟩

theorem set_rearranged {same : α → α → Bool} (hsame : ∀ x y, same x y = same y x) {d : Decoder α}
    {v : Fin n → Value} {outputs : List α}
    (h : set same d (some (.array (List.ofFn v))) = .ok outputs) (σ : Equiv.Perm (Fin n)) :
    ∃ x : Fin n → α, outputs = List.ofFn x ∧
      set same d (some (.array (List.ofFn (v ∘ σ)))) = .ok (List.ofFn (x ∘ σ)) := by
  obtain ⟨items, hitems, hdecodes, hdistinct⟩ := set_eq_ok_iff.mp h
  cases hitems
  obtain ⟨x, rfl, hx⟩ := exists_ofFn_of_forall₂ hdecodes
  have hne : ∀ i j, i ≠ j → same (x i) (x j) = false := by
    have hlt := List.pairwise_ofFn.mp hdistinct
    intro i j hij
    rcases lt_or_gt_of_ne hij with hij | hij
    · exact hlt hij
    · rw [hsame]
      exact hlt hij
  refine ⟨x, rfl, set_eq_ok_iff.mpr ⟨_, rfl, forall₂_ofFn_iff.mpr fun i => hx (σ i), ?_⟩⟩
  exact List.pairwise_ofFn.mpr fun i j hij => hne _ _ fun he => hij.ne (σ.injective he)

theorem mapping_rearranged {order : κ → κ → Ordering} [Std.TransCmp order] {key : Decoder κ}
    {value : Decoder α} {v : Fin n → Value} {entries : List (κ × α)}
    (h : mapping order key value (some (.array (List.ofFn v))) = .ok entries)
    (σ : Equiv.Perm (Fin n)) :
    mapping order key value (some (.array (List.ofFn (v ∘ σ)))) = .ok entries := by
  obtain ⟨items, hitems, pairs, hdecodes, hapart, rfl⟩ := mapping_eq_ok_iff.mp h
  cases hitems
  obtain ⟨p, rfl, hp⟩ := exists_ofFn_of_forall₂ hdecodes
  have hperm : (List.ofFn p).Perm (List.ofFn (p ∘ σ)) := (Equiv.Perm.ofFn_comp_perm σ p).symm
  exact mapping_eq_ok_iff.mpr ⟨_, rfl, List.ofFn (p ∘ σ), forall₂_ofFn_iff.mpr fun i => hp (σ i),
    hapart.of_perm hperm, hapart.ofList_eq_of_perm hperm⟩

end Decoder

namespace Schema

variable {n : Nat}

/-- If success carries over to rearranged arrays, then so does failure. -/
theorem succeeds_rearranged_iff {s : Schema}
    (h : ∀ (v : Fin n → Value) (σ : Equiv.Perm (Fin n)),
      (∃ x, s.decode (.array (List.ofFn v)) = .ok x) →
        ∃ x, s.decode (.array (List.ofFn (v ∘ σ))) = .ok x)
    (v : Fin n → Value) (σ : Equiv.Perm (Fin n)) :
    (∃ x, s.decode (.array (List.ofFn (v ∘ σ))) = .ok x) ↔
      ∃ x, s.decode (.array (List.ofFn v)) = .ok x := by
  refine ⟨fun hx => ?_, h v σ⟩
  have hback : (v ∘ σ) ∘ σ.symm = v := by
    rw [Function.comp_assoc, Equiv.self_comp_symm, Function.comp_id]
  have hv := h (v ∘ σ) σ.symm hx
  rwa [hback] at hv

theorem decode_set_rearranged {s : Schema} {v : Fin n → Value} {y : Output}
    (h : (Schema.set s).decode (.array (List.ofFn v)) = .ok y) (σ : Equiv.Perm (Fin n)) :
    ∃ x : Fin n → Output, y = .list (List.ofFn x) ∧
      (Schema.set s).decode (.array (List.ofFn (v ∘ σ))) = .ok (.list (List.ofFn (x ∘ σ))) := by
  simp only [decode, Schema.decoder, Decoder.map_eq_ok_iff] at h ⊢
  obtain ⟨outputs, hset, rfl⟩ := h
  obtain ⟨x, rfl, hx⟩ := Decoder.set_rearranged Output.eqv_comm hset σ
  exact ⟨x, rfl, _, hx, rfl⟩

theorem decode_map_rearranged {key value : Schema} {v : Fin n → Value} {y : Output}
    (h : (Schema.map key value).decode (.array (List.ofFn v)) = .ok y) (σ : Equiv.Perm (Fin n)) :
    (Schema.map key value).decode (.array (List.ofFn (v ∘ σ))) = .ok y := by
  simp only [decode, Schema.decoder, Decoder.map_eq_ok_iff] at h ⊢
  obtain ⟨entries, hmap, rfl⟩ := h
  exact ⟨entries, Decoder.mapping_rearranged hmap σ, rfl⟩

/-- **The order of independent entries does not matter.**  A set succeeds on a rearranged array exactly
if it succeeds on the array, and then its output is the output there, rearranged in the same way.  A
map succeeds on a rearranged array of pairs exactly if it succeeds on the array, and to the same
output.  Nothing is asked of the keys, as the order of outputs is transitive on all of them. -/
theorem decode_rearranged (s key value : Schema) (v : Fin n → Value) (σ : Equiv.Perm (Fin n)) :
    let array := Value.array (List.ofFn v)
    let rearranged := Value.array (List.ofFn (v ∘ σ))
    (((∃ y, (Schema.set s).decode rearranged = .ok y) ↔ ∃ y, (Schema.set s).decode array = .ok y) ∧
      ∀ y, (Schema.set s).decode array = .ok y → ∃ x : Fin n → Output, y = .list (List.ofFn x) ∧
        (Schema.set s).decode rearranged = .ok (.list (List.ofFn (x ∘ σ)))) ∧
    (((∃ y, (Schema.map key value).decode rearranged = .ok y) ↔
        ∃ y, (Schema.map key value).decode array = .ok y) ∧
      ∀ y, (Schema.map key value).decode array = .ok y →
        (Schema.map key value).decode rearranged = .ok y) := by
  refine ⟨⟨?_, fun y hy => decode_set_rearranged hy σ⟩, ⟨?_, fun y hy => decode_map_rearranged hy σ⟩⟩
  · refine succeeds_rearranged_iff (fun v σ => ?_) v σ
    rintro ⟨y, hy⟩
    obtain ⟨x, -, hx⟩ := decode_set_rearranged hy σ
    exact ⟨_, hx⟩
  · refine succeeds_rearranged_iff (fun v σ => ?_) v σ
    rintro ⟨y, hy⟩
    exact ⟨y, decode_map_rearranged hy σ⟩

/-- Two elements that change places: the outputs of the set do so too. -/
theorem decode_rearranged_swapped :
    let v : Fin 2 → Value := [Value.string "b", .string "a"].get
    let σ : Equiv.Perm (Fin 2) := Equiv.swap 0 1
    (Schema.set .string).decode (.array (List.ofFn v)) = .ok (.list [.text "b", .text "a"]) ∧
      ∃ x : Fin 2 → Output, Output.list [.text "b", .text "a"] = .list (List.ofFn x) ∧
        (Schema.set .string).decode (.array (List.ofFn (v ∘ σ))) = .ok (.list (List.ofFn (x ∘ σ))) := by
  intro v σ
  have heqv : ∀ a b : String, (Output.text a).eqv (.text b) = (a == b) := fun a b => by rw [Output.eqv]
  have h : (Schema.set .string).decode (.array (List.ofFn v)) = .ok (.list [.text "b", .text "a"]) := by
    simp [v, Schema.decode, Schema.decoder, Decoder.map, Decoder.set, Decoder.expectArray,
      Decoder.setFrom, Decoder.string, heqv, bind, Except.bind]
  exact ⟨h, (decode_rearranged .string .string .null v σ).1.2 _ h⟩

end Schema

end TypedJson
