import TypedJson.Failure.Basic

/-!
# Decoders

A decoder turns an input into an output or a failure.  The input `none` is a value that is not
there, as for a missing field, so a decoder may accept absence.  Every combinator of this library
is an ordinary function on decoders.
-/

namespace TypedJson

/-- A decoder with outputs of type `α`. -/
abbrev Decoder (α : Type) := Option Value → Except Failure α

namespace Decoder

variable {α β : Type}

/-- Changes the output and nothing else. -/
def map (f : α → β) (d : Decoder α) : Decoder β := fun input =>
  match d input with
  | .ok x => .ok (f x)
  | .error e => .error e

/-- Puts a step in front of the path of a failure. -/
def under (step : Step) : Except Failure α → Except Failure α
  | .ok x => .ok x
  | .error e => .error (e.under step)

theorem map_eq_ok_iff {f : α → β} {d : Decoder α} {input : Option Value} {y : β} :
    d.map f input = .ok y ↔ ∃ x, d input = .ok x ∧ f x = y := by
  unfold map
  cases d input <;> simp

theorem map_succeeds_iff {f : α → β} {d : Decoder α} {input : Option Value} :
    (∃ y, d.map f input = .ok y) ↔ ∃ x, d input = .ok x := by
  unfold map
  cases d input <;> simp

theorem map_eq_error_iff {f : α → β} {d : Decoder α} {input : Option Value} {e : Failure} :
    d.map f input = .error e ↔ d input = .error e := by
  unfold map
  cases d input <;> simp

@[simp] theorem under_ok (step : Step) (x : α) : under step (.ok x) = .ok x := rfl

@[simp] theorem under_error (step : Step) (e : Failure) :
    under step (.error e : Except Failure α) = .error (e.under step) := rfl

theorem under_eq_ok_iff {step : Step} {r : Except Failure α} {x : α} :
    under step r = .ok x ↔ r = .ok x := by
  cases r <;> simp

theorem under_eq_error_iff {step : Step} {r : Except Failure α} {e : Failure} :
    under step r = .error e ↔ ∃ inner, r = .error inner ∧ inner.under step = e := by
  cases r <;> simp

end Decoder

end TypedJson
