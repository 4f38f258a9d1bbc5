import TypedJson.Proofs.Decoder.Successes
import TypedJson.Schema.Decoding

/-!
# Literals in pair form

A value made of scalars and arrays of length two (`PairTree`) can be expected in two ways: as one literal,
or as a pair of what its parts are expected to be, down to the scalars.  Both accept the same inputs
(`accepts_iff`), but a literal reports its failure at the root, and the pair form reports where the values
first disagree (`leftmostDisagreement_of_decode`): as a pair decodes its first part before its second, every
scalar to the left of that position is as expected.
-/

namespace TypedJson

/-- A value without parts. -/
inductive Scalar where
  | null
  | bool (value : Bool)
  | number (value : Number)
  | string (text : String)

/-- The scalar as a value. -/
def Scalar.value : Scalar → Value
  | null => .null
  | bool b => .bool b
  | number n => .number n
  | string s => .string s

/-- **Scalars nested in pairs.** -/
inductive PairTree where
  | leaf (scalar : Scalar)
  | pair (first second : PairTree)

namespace PairTree

/-- The value, where a pair is an array of length two. -/
def value : PairTree → Value
  | leaf s => s.value
  | pair a b => .array [a.value, b.value]

/-- **The pair form**: a pair schema for each pair, and a literal for each scalar. -/
def schema : PairTree → Schema
  | leaf s => .literal s.value
  | pair a b => .pair a.schema b.schema

end PairTree

/-- The schema decodes the input. -/
def Schema.Accepts (s : Schema) (input : Option Value) : Prop := ∃ y, s.decoder input = .ok y

/-- The part of the value at a position, the indices that lead to it. -/
def Value.PartAt (v : Value) (position : List Nat) (part : Value) : Prop :=
  follow? (some v) (position.map .index) = some (some part)

/-- **The first place from the left where a value is not as expected.**  The parts of the two values at
this position are not the same, and every scalar that is expected to the left of it is there. -/
structure LeftmostDisagreement (expected found : Value) (position : List Nat) : Prop where
  refused : ∃ v w, expected.PartAt position v ∧ found.PartAt position w ∧
    ¬ (Schema.literal v).Accepts (some w)
  accepted : ∀ earlier < position, ∀ scalar : Scalar, expected.PartAt earlier scalar.value →
    ∃ w, found.PartAt earlier w ∧ (Schema.literal scalar.value).Accepts (some w)

/-! ### Parts of pairs -/

section Parts
variable {v w part : Value} {position : List Nat}

theorem Value.partAt_nil : v.PartAt [] part ↔ v = part := by
  simp [PartAt]

theorem Value.partAt_zero : (array [v, w]).PartAt (0 :: position) part ↔ v.PartAt position part :=
  Iff.rfl

theorem Value.partAt_one : (array [v, w]).PartAt (1 :: position) part ↔ w.PartAt position part :=
  Iff.rfl

theorem Value.partAt_add_two {i : Nat} : ¬ (array [v, w]).PartAt ((i + 2) :: position) part := by
  simp [PartAt, follow?, step?]

theorem Scalar.partAt_iff {scalar : Scalar} :
    scalar.value.PartAt position part ↔ position = [] ∧ scalar.value = part := by
  cases position with
  | nil => simp [Value.partAt_nil]
  | cons i rest => cases scalar <;> simp [value, Value.PartAt, Value.follow?, Value.step?]

theorem Scalar.value_ne_array {scalar : Scalar} {items : List Value} : scalar.value ≠ .array items := by
  cases scalar <;> simp [value]

end Parts

/-! ### Disagreements -/

section Disagreement
open Schema
variable {a b v w : Value} {position : List Nat}

/-- A disagreement at the root: nothing stands to the left of it. -/
theorem leftmostDisagreement_nil (h : ¬ (literal v).Accepts (some w)) :
    LeftmostDisagreement v w [] where
  refused := ⟨v, w, Value.partAt_nil.mpr rfl, Value.partAt_nil.mpr rfl, h⟩
  accepted earlier hlt := absurd hlt (List.not_lt_nil earlier)

theorem LeftmostDisagreement.first (h : LeftmostDisagreement a v position) :
    LeftmostDisagreement (.array [a, b]) (.array [v, w]) (0 :: position) where
  refused := by simpa only [Value.partAt_zero] using h.refused
  accepted earlier hlt scalar hscalar := by
    match earlier with
    | [] => exact absurd (Value.partAt_nil.mp hscalar).symm Scalar.value_ne_array
    | i :: earlier =>
      rcases List.cons_lt_cons_iff.mp hlt with hi | ⟨rfl, hrest⟩
      · exact absurd hi (Nat.not_lt_zero i)
      · simp only [Value.partAt_zero] at hscalar ⊢
        exact h.accepted earlier hrest scalar hscalar

/-- A disagreement of the second parts, where those of the first are as expected. -/
theorem LeftmostDisagreement.second (h : LeftmostDisagreement b w position)
    (hfirst : ∀ position (scalar : Scalar), a.PartAt position scalar.value →
      ∃ x, v.PartAt position x ∧ (literal scalar.value).Accepts (some x)) :
    LeftmostDisagreement (.array [a, b]) (.array [v, w]) (1 :: position) where
  refused := by simpa only [Value.partAt_one] using h.refused
  accepted earlier hlt scalar hscalar := by
    match earlier with
    | [] => exact absurd (Value.partAt_nil.mp hscalar).symm Scalar.value_ne_array
    | i :: earlier =>
      rcases List.cons_lt_cons_iff.mp hlt with hi | ⟨rfl, hrest⟩
      · obtain rfl := Nat.lt_one_iff.mp hi
        simp only [Value.partAt_zero] at hscalar ⊢
        exact hfirst earlier scalar hscalar
      · simp only [Value.partAt_one] at hscalar ⊢
        exact h.accepted earlier hrest scalar hscalar

end Disagreement

/-! ### What both forms accept -/

theorem Schema.accepts_literal_iff {v : Value} {input : Option Value} :
    (literal v).Accepts input ↔ ∃ w, input = some w ∧ v.numericEq w = true := by
  unfold Accepts
  cases input with
  | none => simp [Schema.decoder, Decoder.literal]
  | some w => cases h : v.numericEq w <;> simp [Schema.decoder, Decoder.literal, h]

theorem Schema.accepts_pair_iff {s t : Schema} {input : Option Value} :
    (pair s t).Accepts input ↔
      ∃ v w, input = some (.array [v, w]) ∧ s.Accepts (some v) ∧ t.Accepts (some w) := by
  unfold Accepts
  rw [Schema.decoder, Decoder.map_succeeds_iff]
  simp only [Decoder.tuple_eq_ok_iff, Decoder.Decodes, Prod.exists]
  constructor
  · rintro ⟨x, y, v, w, hinput, hv, hw⟩
    exact ⟨v, w, hinput, ⟨x, hv⟩, ⟨y, hw⟩⟩
  · rintro ⟨v, w, hinput, ⟨x, hv⟩, ⟨y, hw⟩⟩
    exact ⟨x, y, v, w, hinput, hv, hw⟩

/-- Two elements are numerically equal to two elements. -/
theorem Value.numericEq_pair_iff {a b found : Value} :
    (array [a, b]).numericEq found = true ↔
      ∃ v w, found = array [v, w] ∧ a.numericEq v = true ∧ b.numericEq w = true := by
  cases found with
  | array items =>
    rcases items with _ | ⟨v, _ | ⟨w, _ | ⟨u, rest⟩⟩⟩ <;> simp [numericEq, numericEqItems]
  | _ => simp [numericEq]

namespace PairTree

open Schema

/-- **The pair form accepts what the literal accepts.** -/
theorem accepts_iff (t : PairTree) {input : Option Value} :
    t.schema.Accepts input ↔ (literal t.value).Accepts input := by
  induction t generalizing input with
  | leaf s => exact Iff.rfl
  | pair a b iha ihb =>
    rw [schema, accepts_pair_iff, accepts_literal_iff, value]
    simp only [iha, ihb, accepts_literal_iff, Value.numericEq_pair_iff, Option.some.injEq,
      exists_eq_left']
    constructor
    · rintro ⟨v, w, rfl, hv, hw⟩
      exact ⟨_, rfl, v, w, rfl, hv, hw⟩
    · rintro ⟨_, rfl, v, w, rfl, hv, hw⟩
      exact ⟨v, w, rfl, hv, hw⟩

/-- Every scalar of an accepted value is as expected. -/
theorem scalar_accepted {t : PairTree} {found : Value} (h : t.schema.Accepts (some found))
    {position : List Nat} {scalar : Scalar} (hscalar : t.value.PartAt position scalar.value) :
    ∃ w, found.PartAt position w ∧ (literal scalar.value).Accepts (some w) := by
  induction t generalizing found position with
  | leaf s =>
    obtain ⟨rfl, hs⟩ := Scalar.partAt_iff.mp hscalar
    exact ⟨found, Value.partAt_nil.mpr rfl, hs ▸ h⟩
  | pair a b iha ihb =>
    obtain ⟨v, w, hfound, hv, hw⟩ := accepts_pair_iff.mp h
    cases hfound
    match position with
    | [] => exact absurd (Value.partAt_nil.mp hscalar).symm Scalar.value_ne_array
    | 0 :: position =>
      simp only [Value.partAt_zero] at hscalar ⊢
      exact iha hv hscalar
    | 1 :: position =>
      simp only [Value.partAt_one] at hscalar ⊢
      exact ihb hw hscalar
    | (i + 2) :: position => exact absurd hscalar Value.partAt_add_two

/-! ### Where the pair form fails -/

/-- The second part is decoded only if the first one has been. -/
theorem decode_pair_eq_error_iff {a b : PairTree} {v w : Value} {e : Failure} :
    (pair a b).schema.decode (.array [v, w]) = .error e ↔
      (∃ inner, a.schema.decode v = .error inner ∧ inner.under (.index 0) = e) ∨
        a.schema.Accepts (some v) ∧
          ∃ inner, b.schema.decode w = .error inner ∧ inner.under (.index 1) = e :=
  Decoder.map_eq_error_iff.trans Decoder.tuple_array_eq_error_iff

theorem literal_refuses_of_decode {t : PairTree} {found : Value} {e : Failure}
    (h : t.schema.decode found = .error e) : ¬ (literal t.value).Accepts (some found) := by
  rw [← accepts_iff]
  rintro ⟨y, hy⟩
  cases hy.symm.trans h

/-- **The pair form fails at the leftmost disagreement.** -/
theorem leftmostDisagreement_of_decode {t : PairTree} {found : Value} {e : Failure}
    (h : t.schema.decode found = .error e) :
    ∃ position, e.path = position.map .index ∧ LeftmostDisagreement t.value found position := by
  induction t generalizing found e with
  | leaf s =>
    refine ⟨[], ?_, leftmostDisagreement_nil (literal_refuses_of_decode h)⟩
    rw [schema, decode, Schema.decoder] at h
    rw [Decoder.literal_eq_error h]
    rfl
  | pair a b iha ihb =>
    rcases Decoder.tuple_eq_error (Decoder.map_eq_error_iff.mp h) with rfl | ⟨v, w, hfound, -⟩
    · exact ⟨[], rfl, leftmostDisagreement_nil (literal_refuses_of_decode h)⟩
    · cases hfound
      rcases decode_pair_eq_error_iff.mp h with ⟨inner, hv, rfl⟩ | ⟨hv, inner, hw, rfl⟩
      · obtain ⟨position, hpath, hleft⟩ := iha hv
        exact ⟨0 :: position, by simp [hpath], hleft.first⟩
      · obtain ⟨position, hpath, hleft⟩ := ihb hw
        exact ⟨1 :: position, by simp [hpath], hleft.second fun _ _ => scalar_accepted hv⟩

/-- **The pair form of a literal agrees with the literal.**  Every input, present or absent, is accepted by
both or by neither.  Where both refuse a value, the path in the failure of the pair form leads to parts of
the value and of the expected one that a literal would refuse as well, and each scalar that is expected to
the left of them is there. -/
theorem pair_form_agrees_with_literal (t : PairTree) :
    (∀ input, t.schema.Accepts input ↔ (literal t.value).Accepts input) ∧
    ∀ found e, t.schema.decode found = .error e →
      ¬ (literal t.value).Accepts (some found) ∧
      ∃ position, e.path = position.map .index ∧ LeftmostDisagreement t.value found position := by
  refine ⟨fun _ => t.accepts_iff, fun found e he => ?_⟩
  exact ⟨literal_refuses_of_decode he, leftmostDisagreement_of_decode he⟩

/-- A pair that is too long, after a number of another spelling. -/
theorem pair_form_agrees_with_literal_too_long :
    let one : Binary64 := ⟨false, Nat.pow 2 52, 1022, by decide, by decide, Or.inr (by decide)⟩
    let t := pair (leaf (.number (.int 1))) (pair (leaf (.string "a")) (leaf .null))
    let found := Value.array [.number (.float one), .array [.string "a", .null, .null]]
    let e : Failure := ⟨[.index 1], .shapeMismatch (.tuple 2) "array of length 3"⟩
    t.schema.decode found = .error e ∧ LeftmostDisagreement t.value found [1] := by
  intro one t found e
  have hequal : (Value.number (.int 1)).numericEq (.number (.float one)) = true := by decide +kernel
  have hone : (literal (.number (.int 1))).Accepts (some (.number (.float one))) :=
    accepts_literal_iff.mpr ⟨_, rfl, hequal⟩
  have hlong : (pair (leaf (.string "a")) (leaf .null)).schema.decode
      (.array [.string "a", .null, .null]) =
      .error (.shapeMismatch (.tuple 2) (some (.array [.string "a", .null, .null]))) := rfl
  have he : t.schema.decode found = .error e :=
    decode_pair_eq_error_iff.mpr (Or.inr ⟨hone, _, hlong, rfl⟩)
  obtain ⟨-, position, hpath, hleft⟩ := (pair_form_agrees_with_literal t).2 found e he
  have hindex : Function.Injective (List.map Step.index) :=
    List.map_injective_iff.mpr fun _ _ => Step.index.inj
  have hposition : [1] = position := hindex hpath
  exact ⟨he, hposition ▸ hleft⟩

end PairTree

end TypedJson
