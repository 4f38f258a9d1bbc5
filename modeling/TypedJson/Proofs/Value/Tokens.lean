import TypedJson.Value.Path

/-!
# Tokens within a document

A token is a step without its notation, so the field `0` and the position `0` have one token.  Within a
document nothing is lost by that: what stands at a place says whether a token is a position in an array
or a name in an object (`stepOfToken?`).  Tokens of a path that leads somewhere lead to the same place
(`followTokens?_tokens`), and two such paths out of one document with the same tokens are one path
(`path_eq_of_tokens_eq`).
-/

namespace TypedJson.Value

/-- The position that a token of decimal digits stands for. -/
def position? (token : String) : Option Nat :=
  if token ≠ "" ∧ token.toList.all Char.isDigit = true then some (Nat.ofDigitChars 10 token.toList 0)
  else none

@[simp] theorem position?_repr (i : Nat) : position? i.repr = some i := by
  have hdigits : i.repr.toList.all Char.isDigit = true := by
    rw [Nat.toList_repr, List.all_eq_true]
    exact fun c hc => Nat.isDigit_of_mem_toDigits (by decide) (by decide) hc
  rw [position?, if_pos ⟨Nat.repr_ne_empty, hdigits⟩, Nat.toList_repr, Nat.ofDigitChars_ten_toDigits]

/-- The step that a token means where `input` stands. -/
def stepOfToken? : Option Value → String → Option Step
  | some (array _), token => (position? token).map .index
  | some (object _), token => some (.field token)
  | _, _ => none

/-- The target of a list of tokens, each read by what stands at its place. -/
def followTokens? : Option Value → List String → Option (Option Value)
  | input, [] => some input
  | input, token :: rest =>
    ((stepOfToken? input token).bind (step? input)).bind fun target => followTokens? target rest

variable {input target : Option Value}

/-- The token of a step that leads to a part means this step. -/
theorem stepOfToken?_token {step : Step} (h : step? input step = some target) :
    stepOfToken? input step.token = some step := by
  rcases input with _ | _ | _ | _ | _ | items | entries
  case some.array =>
    cases step with
    | field name => simp [step?] at h
    | index i => simp [stepOfToken?, Step.token]
  case some.object =>
    cases step with
    | field name => rfl
    | index i => simp [step?] at h
  all_goals cases step <;> simp [step?] at h

/-- **The tokens of a path lead where the path leads.** -/
theorem followTokens?_tokens : ∀ {path : List Step} {input target : Option Value},
    follow? input path = some target → followTokens? input (path.map Step.token) = some target
  | [], _, _, h => h
  | step :: path, input, target, h => by
    rw [follow?] at h
    obtain ⟨part, hstep, hpath⟩ := Option.bind_eq_some_iff.mp h
    have htoken : (stepOfToken? input step.token).bind (step? input) = some part := by
      rw [stepOfToken?_token hstep, Option.bind_some, hstep]
    rw [List.map_cons, followTokens?, htoken, Option.bind_some]
    exact followTokens?_tokens hpath

/-- **Two paths that lead somewhere from one input and have the same tokens are one path.** -/
theorem path_eq_of_tokens_eq : ∀ {p q : List Step} {input t u : Option Value},
    follow? input p = some t → follow? input q = some u →
      p.map Step.token = q.map Step.token → p = q
  | [], [], _, _, _, _, _, _ => rfl
  | a :: p, b :: q, input, t, u, hp, hq, h => by
    rw [follow?] at hp hq
    obtain ⟨x, ha, hp'⟩ := Option.bind_eq_some_iff.mp hp
    obtain ⟨y, hb, hq'⟩ := Option.bind_eq_some_iff.mp hq
    obtain ⟨htoken, htokens⟩ := List.cons.inj h
    -- both steps are what their one token means here
    have hstep := stepOfToken?_token ha
    rw [htoken, stepOfToken?_token hb] at hstep
    obtain rfl := Option.some.inj hstep
    obtain rfl : x = y := Option.some.inj (ha.symm.trans hb)
    rw [path_eq_of_tokens_eq hp' hq' htokens]

end TypedJson.Value
