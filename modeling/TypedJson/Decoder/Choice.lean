import TypedJson.Decoder.Basic

/-!
# Decoders with alternatives

Alternatives are tried in order and the first success counts.  If all fail, the failure is at the
root and carries that of each alternative.  An option accepts absence before its decoder is asked.
-/

namespace TypedJson.Decoder

variable {α : Type}

/-- The first success, or all failures. -/
def firstSuccess (input : Option Value) : List (Decoder α) → Except (List Failure) α
  | [] => .error []
  | d :: rest =>
    match d input with
    | .ok x => .ok x
    | .error e =>
      match firstSuccess input rest with
      | .ok x => .ok x
      | .error es => .error (e :: es)

/-- There is no success exactly when every alternative fails, and all failures are kept. -/
theorem firstSuccess_eq_error_iff {input : Option Value} {ds : List (Decoder α)}
    {failures : List Failure} :
    firstSuccess input ds = .error failures ↔
      ds.map (fun d => d input) = failures.map Except.error := by
  induction ds generalizing failures with
  | nil => cases failures <;> simp [firstSuccess]
  | cons d rest ih =>
    simp only [firstSuccess, List.map_cons]
    cases hd : d input with
    | ok x => cases failures <;> simp
    | error e =>
      cases hr : firstSuccess input rest with
      | ok x =>
        simp only [reduceCtorEq, false_iff]
        intro h
        cases failures with
        | nil => simp at h
        | cons f fs =>
          have := ih.mpr (List.cons.inj h).2
          rw [hr] at this
          exact absurd this (by simp)
      | error es =>
        have hes := ih.mp hr
        cases failures with
        | nil => simp
        | cons f fs =>
          simp only [Except.error.injEq, List.cons.injEq, List.map_cons, hes]
          exact and_congr_right fun _ => (List.map_inj_right fun _ _ => Except.error.inj).symm

/-- Decodes by the first alternative that succeeds. -/
def union (alternatives : List (Decoder α)) : Decoder α := fun input =>
  match firstSuccess input alternatives with
  | .ok x => .ok x
  | .error es => .error (.ofCause (.unionExhausted es))

/-- Decodes an absent input to nothing, and every other input by `d`. -/
def option (d : Decoder α) : Decoder (Option α)
  | none => .ok none
  | some v =>
    match d (some v) with
    | .ok x => .ok (some x)
    | .error e => .error e

end TypedJson.Decoder
