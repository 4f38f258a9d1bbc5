import TypedJson.Proofs.Value.Structure
import TypedJson.Schema.Decoding

/-!
# What literals accept

A literal accepts a value if the two are structurally equal, numbers being compared by their nearest
doubles (`literal_compares_doubles`).  As doubles have 53 bits, this is equality by exact values on
numbers that are doubles, but integers beyond them are confused with their neighbours
(`literal_accepts_another_integer`).
-/

namespace TypedJson.Schema

open Value

theorem decode_literal_of_equalBy {v w : Value} (hv : v.WellFormed) (hw : w.WellFormed)
    (h : v.EqualBy Number.SameDouble w) : (literal v).decode w = .ok (.ofLiteral v) :=
  if_pos ((numericEq_iff_equalBy hv hw).mpr h)

theorem decode_literal_of_not_equalBy {v w : Value} (hv : v.WellFormed) (hw : w.WellFormed)
    (h : ¬ v.EqualBy Number.SameDouble w) :
    (literal v).decode w = .error (.valueMismatch v (some w)) :=
  if_neg fun heq => h ((numericEq_iff_equalBy hv hw).mp heq)

/-- **Literals compare numbers by their nearest doubles.**  A literal accepts a value exactly if the two
are structurally equal up to the rounding of their numbers, and else reports both.  So it accepts every
value that is equal to it by exact values, and on values whose numbers are doubles (as are all integers
of at most `2^53` in absolute value) it accepts no other. -/
theorem literal_compares_doubles {v w : Value} (hv : v.WellFormed) (hw : w.WellFormed) :
    ((v.EqualBy Number.SameDouble w ∧ (literal v).decode w = .ok (.ofLiteral v)) ∨
      (¬ v.EqualBy Number.SameDouble w ∧
        (literal v).decode w = .error (.valueMismatch v (some w)))) ∧
    (v.EqualBy Number.SameValue w → (literal v).decode w = .ok (.ofLiteral v)) ∧
    (v.EachNumber Number.IsDouble → w.EachNumber Number.IsDouble →
      ((literal v).decode w = .ok (.ofLiteral v) ↔ v.EqualBy Number.SameValue w)) := by
  have haccepts : (literal v).decode w = .ok (.ofLiteral v) ↔ v.EqualBy Number.SameDouble w := by
    refine ⟨fun h => ?_, decode_literal_of_equalBy hv hw⟩
    by_contra hne
    rw [decode_literal_of_not_equalBy hv hw hne] at h
    cases h
  refine ⟨?_, fun h => haccepts.mpr h.sameDouble, fun hnv hnw => haccepts.trans ?_⟩
  · by_cases h : v.EqualBy Number.SameDouble w
    · exact Or.inl ⟨h, decode_literal_of_equalBy hv hw h⟩
    · exact Or.inr ⟨h, decode_literal_of_not_equalBy hv hw h⟩
  · exact ⟨EqualBy.sameValue hnv hnw, EqualBy.sameDouble⟩

/-- The integer and the double three are one number, also inside an object. -/
theorem literal_compares_doubles_three :
    let three : Binary64 := ⟨false, 3 * Nat.pow 2 51, 1023, by decide, by decide, Or.inr (by decide)⟩
    let v := Value.object [("n", .int 3)]
    let w := Value.object [("n", .number (.float three))]
    v.WellFormed ∧ w.WellFormed ∧ v.EqualBy Number.SameValue w ∧
      (literal v).decode w = .ok (.ofLiteral v) := by
  intro three v w
  have hv : v.WellFormed := by
    simp [v, Value.WellFormed, Value.WellFormedEntries, Value.int, Entries.Sorted]
  have hw : w.WellFormed := by
    simp [w, Value.WellFormed, Value.WellFormedEntries, Entries.Sorted]
  have hthree : (Number.int 3).SameValue (.float three) := by decide +kernel
  have h : v.EqualBy Number.SameValue w := by
    refine .object (fun name => ?_) fun name a b ha hb => ?_
    · simp only [Value.lookup, Entries.find?]
      split <;> rfl
    · simp only [Value.lookup, Entries.find?] at ha hb
      split at ha
      · next hk =>
        rw [if_pos hk] at hb
        obtain rfl := Option.some.inj ha
        obtain rfl := Option.some.inj hb
        exact .number hthree
      · cases ha
  exact ⟨hv, hw, h, (literal_compares_doubles hv hw).2.1 h⟩

/-- **A literal accepts an integer that is not its own**: two different integers with one nearest double
are confused. -/
theorem literal_accepts_another_integer :
    ¬ (Value.int 9007199254740993).EqualBy Number.SameValue (.int 9007199254740992) ∧
      (literal (.int 9007199254740993)).decode (.int 9007199254740992) =
        .ok (.int 9007199254740993) := by
  refine ⟨fun h => ?_, ?_⟩
  · cases h with
    | number h => exact absurd (Number.sameValue_int_iff.mp h) (by decide)
  · have hround : (Number.int 9007199254740993).numericEq (.int 9007199254740992) = true := by
      decide +kernel
    simp [decode, Schema.decoder, Decoder.literal, Value.int, numericEq, hround, Output.ofLiteral,
      Number.minInt, Number.maxSigned]

end TypedJson.Schema
