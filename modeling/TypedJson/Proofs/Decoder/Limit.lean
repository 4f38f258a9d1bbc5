import TypedJson.Decoder.Limit
import TypedJson.Proofs.Failure.Truth
import TypedJson.Proofs.Value.Depth

/-!
# The limit on nesting is exact

A limit `d ≥ 1` turns away exactly the values that nest deeper than `d`, whatever the decoder would
have made of them, and has no other effect.  The failure points to the first container under `d`
others.

The check walks over the value with a stack of steps.  It only compares the length of the stack with the
limit for equality, and takes each step off the stack that it put there; so whatever it passes by, the
stack stays that of the part at hand and never outgrows the limit (`DepthCheck.value_eq`).

A plain function is free to fail as the check does (`Decoder.depthExceeded_on_scalar`), so from such a
failure of decoding it only follows that the value nests too deep if the decoder is truthful.
-/

namespace TypedJson

variable {α : Type}

/-! ### The check and its stack -/

namespace DepthCheck

/-- What the check says of the part that `tokens` lead to, by the first container in it that lies too
deep: it fails there, or gives back the stack that it was given. -/
def outcome (maxDepth : Nat) (tokens : List Step) : Option (List Step) → Except Failure (List Step)
  | some path => .error ⟨tokens.reverse ++ path, .depthExceeded maxDepth⟩
  | none => .ok tokens

variable {maxDepth : Nat} {tokens : List Step}

/-- A container is entered as long as the stack is not full. -/
theorem enter_of_lt (h : tokens.length < maxDepth) : enter maxDepth tokens = .ok () := by
  rw [enter, if_neg (by omega)]

theorem enter_of_eq (h : tokens.length = maxDepth) :
    enter maxDepth tokens = .error ⟨tokens.reverse, .depthExceeded maxDepth⟩ := by
  rw [enter, if_pos h]

theorem items_eq {elements : List Value}
    (h : ∀ v ∈ elements, ∀ tokens : List Step, tokens.length ≤ maxDepth →
      value maxDepth v tokens = outcome maxDepth tokens (v.firstBeyond? (maxDepth - tokens.length)))
    (hlt : tokens.length < maxDepth) (position : Nat) :
    items maxDepth elements position tokens = outcome maxDepth tokens
      (Value.firstBeyondItems? elements (maxDepth - (tokens.length + 1)) position) := by
  induction elements generalizing position with
  | nil => simp [items, Value.firstBeyondItems?, outcome]
  | cons v rest ih =>
    obtain ⟨hv, hrest⟩ := List.forall_mem_cons.mp h
    have hvalue := hv (.index position :: tokens) hlt
    rw [List.length_cons] at hvalue
    rw [items, Value.firstBeyondItems?, hvalue]
    cases v.firstBeyond? (maxDepth - (tokens.length + 1)) with
    | some path => simp [outcome, bind, Except.bind]
    | none => exact ih hrest (position + 1)

theorem entries_eq {fields : List (String × Value)}
    (h : ∀ e ∈ fields, ∀ tokens : List Step, tokens.length ≤ maxDepth →
      value maxDepth e.2 tokens = outcome maxDepth tokens (e.2.firstBeyond? (maxDepth - tokens.length)))
    (hlt : tokens.length < maxDepth) :
    entries maxDepth fields tokens = outcome maxDepth tokens
      (Value.firstBeyondEntries? fields (maxDepth - (tokens.length + 1))) := by
  induction fields with
  | nil => simp [entries, Value.firstBeyondEntries?, outcome]
  | cons e rest ih =>
    obtain ⟨name, v⟩ := e
    obtain ⟨hv, hrest⟩ := List.forall_mem_cons.mp h
    have hvalue := hv (.field name :: tokens) hlt
    rw [List.length_cons] at hvalue
    rw [entries, Value.firstBeyondEntries?, hvalue]
    cases v.firstBeyond? (maxDepth - (tokens.length + 1)) with
    | some path => simp [outcome, bind, Except.bind]
    | none => exact ih hrest

/-- **The check finds the first container that lies too deep, and keeps its stack.**  The stack never
outgrows the limit, so that comparing its length for equality is enough. -/
theorem value_eq (v : Value) (hle : tokens.length ≤ maxDepth) :
    value maxDepth v tokens =
      outcome maxDepth tokens (v.firstBeyond? (maxDepth - tokens.length)) := by
  induction v using Value.induction_parts generalizing tokens with
  | array elements ih =>
    rcases Nat.lt_or_eq_of_le hle with hlt | heq
    · have hlevels : maxDepth - tokens.length = maxDepth - (tokens.length + 1) + 1 := by omega
      rw [value, enter_of_lt hlt, hlevels, Value.firstBeyond?]
      exact items_eq (fun v hv tokens => ih v hv) hlt 0
    · rw [value, enter_of_eq heq, heq, Nat.sub_self]
      simp [outcome, Value.firstBeyond?, bind, Except.bind]
  | object fields ih =>
    rcases Nat.lt_or_eq_of_le hle with hlt | heq
    · have hlevels : maxDepth - tokens.length = maxDepth - (tokens.length + 1) + 1 := by omega
      rw [value, enter_of_lt hlt, hlevels, Value.firstBeyond?]
      exact entries_eq (fun e he tokens => ih e he) hlt
    · rw [value, enter_of_eq heq, heq, Nat.sub_self]
      simp [outcome, Value.firstBeyond?, bind, Except.bind]
  | _ => simp [value, outcome, Value.firstBeyond?]

end DepthCheck

theorem Limits.check_of_none {v : Value} {d : Nat} (h : v.firstBeyond? d = none) :
    Limits.check ⟨d⟩ v = .ok () := by
  have hvalue : DepthCheck.value d v [] = .ok [] := by
    rw [DepthCheck.value_eq v (Nat.zero_le d), List.length_nil, Nat.sub_zero, h]
    rfl
  rw [Limits.check, hvalue]
  split <;> rfl

theorem Limits.check_of_some {v : Value} {d : Nat} (hd : 1 ≤ d) {path : List Step}
    (h : v.firstBeyond? d = some path) :
    Limits.check ⟨d⟩ v = .error ⟨path, .depthExceeded d⟩ := by
  have hvalue : DepthCheck.value d v [] = .error ⟨path, .depthExceeded d⟩ := by
    rw [DepthCheck.value_eq v (Nat.zero_le d), List.length_nil, Nat.sub_zero, h]
    rfl
  rw [Limits.check, hvalue, if_neg (by show d ≠ 0; omega)]
  rfl

/-! ### Depth and limit -/

/-- A value within the limit passes. -/
theorem Limits.check_of_depth_le {v : Value} {d : Nat} (h : v.depth ≤ d) :
    Limits.check ⟨d⟩ v = .ok () :=
  Limits.check_of_none ((Value.firstBeyond?_eq_none_iff v d).mpr h)

/-- A value beyond the limit is turned away at the first container that lies too deep. -/
theorem Limits.check_of_lt_depth {v : Value} (hw : v.WellFormed) {d : Nat} (hd : 1 ≤ d)
    (h : d < v.depth) :
    ∃ path, Limits.check ⟨d⟩ v = .error ⟨path, .depthExceeded d⟩ ∧ v.FirstUnder d path := by
  cases hf : v.firstBeyond? d with
  | none => exact absurd ((Value.firstBeyond?_eq_none_iff v d).mp hf) (by omega)
  | some path =>
    exact ⟨path, Limits.check_of_some hd hf, Value.firstBeyond?_spec v hw hf⟩

theorem Limits.check_fails_iff {v : Value} (hw : v.WellFormed) {d : Nat} (hd : 1 ≤ d) :
    (∃ path, Limits.check ⟨d⟩ v = .error ⟨path, .depthExceeded d⟩) ↔ d < v.depth := by
  constructor
  · rintro ⟨path, he⟩
    by_contra hle
    rw [Limits.check_of_depth_le (by omega)] at he
    cases he
  · intro hlt
    obtain ⟨path, he, -⟩ := Limits.check_of_lt_depth hw hd hlt
    exact ⟨path, he⟩

theorem Limits.check_eq_ok_iff {v : Value} (hw : v.WellFormed) {d : Nat} (hd : 1 ≤ d) :
    Limits.check ⟨d⟩ v = .ok () ↔ v.depth ≤ d := by
  refine ⟨fun h => ?_, Limits.check_of_depth_le⟩
  by_contra hlt
  obtain ⟨path, he, -⟩ := Limits.check_of_lt_depth hw hd (by omega)
  rw [he] at h
  cases h

namespace Decoder

theorem decodeWithin_of_check (D : Decoder α) {limits : Limits} {v : Value}
    (h : limits.check v = .ok ()) : D.decodeWithin limits v = D (some v) := by
  rw [decodeWithin, h]
  rfl

/-- A decoder fails within a limit as the check does. -/
theorem decodeWithin_of_check_error (D : Decoder α) {limits : Limits} {v : Value} {e : Failure}
    (h : limits.check v = .error e) : D.decodeWithin limits v = .error e := by
  rw [decodeWithin, h]
  rfl

/-- **The limit on nesting is exact.**  For every decoder `D`, value `v` and limit `d ≥ 1`:

* the check that precedes decoding fails exactly if `v` nests deeper than `d`;
* then the failure is that of the limit, whatever `D` says of `v`, and its path leads to the first of
  all containers of `v` that lie under exactly `d` others;
* else, and also without a limit, the result is that of `D`;
* so decoding fails with the failure of the limit exactly if `v` nests deeper than `d`, or `D` itself
  answers with that failure, which a truthful `D` does not;
* and a value that passes one limit gives the same result with every greater one. -/
theorem decodeWithin_depth (D : Decoder α) {v : Value} (hw : v.WellFormed) {d : Nat}
    (hd : 1 ≤ d) :
    ((∃ path, Limits.check ⟨d⟩ v = .error ⟨path, .depthExceeded d⟩) ↔ d < v.depth) ∧
      (d < v.depth → ∃ path, D.decodeWithin ⟨d⟩ v = .error ⟨path, .depthExceeded d⟩ ∧
        path.length = d ∧
        (∃ c, Value.follow? (some v) path = some (some c) ∧ c.isContainer = true) ∧
        ∀ other, v.ContainerUnder d other → other = path ∨ List.Lex Step.Before path other) ∧
      (v.depth ≤ d → D.decodeWithin ⟨d⟩ v = D (some v)) ∧
      D.decodeWithin ⟨0⟩ v = D (some v) ∧
      ((∃ path, D.decodeWithin ⟨d⟩ v = .error ⟨path, .depthExceeded d⟩) ↔
        d < v.depth ∨ ∃ path, D (some v) = .error ⟨path, .depthExceeded d⟩) ∧
      (D.Truthful →
        ((∃ path, D.decodeWithin ⟨d⟩ v = .error ⟨path, .depthExceeded d⟩) ↔ d < v.depth)) ∧
      ∀ d', d ≤ d' → Limits.check ⟨d⟩ v = .ok () →
        D.decodeWithin ⟨d⟩ v = D.decodeWithin ⟨d'⟩ v := by
  have hdeep : d < v.depth → ∃ path, D.decodeWithin ⟨d⟩ v = .error ⟨path, .depthExceeded d⟩ ∧
      v.FirstUnder d path := by
    intro hlt
    obtain ⟨path, hcheck, hfirst⟩ := Limits.check_of_lt_depth hw hd hlt
    exact ⟨path, D.decodeWithin_of_check_error hcheck, hfirst⟩
  have hflat : ∀ d', v.depth ≤ d' → D.decodeWithin ⟨d'⟩ v = D (some v) := fun d' hle =>
    D.decodeWithin_of_check (Limits.check_of_depth_le hle)
  have hfails : (∃ path, D.decodeWithin ⟨d⟩ v = .error ⟨path, .depthExceeded d⟩) ↔
      d < v.depth ∨ ∃ path, D (some v) = .error ⟨path, .depthExceeded d⟩ := by
    by_cases hlt : d < v.depth
    · obtain ⟨path, he, -⟩ := hdeep hlt
      exact ⟨fun _ => Or.inl hlt, fun _ => ⟨path, he⟩⟩
    · rw [hflat d (by omega), or_iff_right hlt]
  refine ⟨Limits.check_fails_iff hw hd, fun hlt => ?_, hflat d, rfl, hfails, fun hD => ?_, ?_⟩
  · obtain ⟨path, he, ⟨hlength, hcontainer⟩, hfirst⟩ := hdeep hlt
    exact ⟨path, he, hlength, hcontainer, hfirst⟩
  · rw [hfails, or_iff_left]
    rintro ⟨path, he⟩
    have hinput : Value.WellFormedInput (some v) := hw
    exact hD.ne_depthExceeded hinput path d he
  · intro d' hle hcheck
    have hdepth := (Limits.check_eq_ok_iff hw hd).mp hcheck
    rw [hflat d hdepth, hflat d' (by omega)]

/-- Of the three containers on the third level the first is reported, whatever the decoder would have said.
Within one level more the decoder is heard: it is truthful, so it does not speak of the limit. -/
theorem decodeWithin_depth_two :
    let D := Decoder.string
    let v := Value.object
      [("a", .array [.string "x"]), ("b", .array [.null, .array [], .array []]),
        ("c", .array [.object []])]
    v.WellFormed ∧ D.Truthful ∧ 2 < v.depth ∧
      D.decodeWithin ⟨2⟩ v = .error ⟨[.field "b", .index 1], .depthExceeded 2⟩ ∧
      (∃ path, D.decodeWithin ⟨2⟩ v = .error ⟨path, .depthExceeded 2⟩ ∧ path.length = 2 ∧
        (∃ c, Value.follow? (some v) path = some (some c) ∧ c.isContainer = true) ∧
        ∀ other, v.ContainerUnder 2 other → other = path ∨ List.Lex Step.Before path other) ∧
      D.decodeWithin ⟨3⟩ v = .error (.typeMismatch "string" (some v)) ∧
      ((∃ path, D.decodeWithin ⟨3⟩ v = .error ⟨path, .depthExceeded 3⟩) ↔ 3 < v.depth) := by
  intro D v
  have hw : v.WellFormed := by
    simp [v, Value.WellFormed, Value.WellFormedItems, Value.WellFormedEntries, Entries.Sorted,
      Text.order, Text.orderChars]
  have hD : D.Truthful := failsWith_mismatch Failure.inherited_describes string_eq_error
  have hdepth : 2 < v.depth := by decide
  have hfirst := (decodeWithin_depth D hw (by decide)).2.1 hdepth
  have hiff := (decodeWithin_depth D hw (show 1 ≤ 3 by decide)).2.2.2.2.2.1 hD
  exact ⟨hw, hD, hdepth, rfl, hfirst, rfl, hiff⟩

/-- **A decoder may make up the failure of the limit**, here on a scalar and at the root: so not every such
failure comes from the check. -/
theorem depthExceeded_on_scalar :
    let D : Decoder Unit := fun _ => .error (.ofCause (.depthExceeded 1))
    D.decodeWithin ⟨1⟩ .null = .error ⟨[], .depthExceeded 1⟩ ∧
      ¬ ((∃ path, D.decodeWithin ⟨1⟩ .null = .error ⟨path, .depthExceeded 1⟩) ↔ 1 < Value.null.depth) := by
  intro D
  have hfails : D.decodeWithin ⟨1⟩ .null = .error ⟨[], .depthExceeded 1⟩ := rfl
  have hdepth : ¬ 1 < Value.null.depth := by decide
  exact ⟨hfails, fun hiff => hdepth (hiff.mp ⟨[], hfails⟩)⟩

end Decoder

end TypedJson
