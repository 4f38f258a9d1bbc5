import TypedJson.Failure.Basic

/-!
# The parts of a failure

The parts of a failure are the failures of the alternatives that it lists.  What holds of a failure
whenever it holds of its parts holds of every failure (`induction_parts`).

The paths of the parts go on from where the path of the whole ends.  So a failure *reaches* as many steps
deep as its own path has, and then as many more as the part that reaches deepest (`reach`,
`reach_le_iff`).
-/

namespace TypedJson

namespace Failure

/-- Induction on failures, where one may use what holds of the failure of each alternative. -/
theorem induction_parts {P : Failure → Prop}
    (parts : ∀ path cause, (∀ failures, cause = .unionExhausted failures → ∀ f ∈ failures, P f) →
      P ⟨path, cause⟩) (failure : Failure) : P failure := by
  refine @Failure.rec P (fun cause => ∀ failures, cause = .unionExhausted failures → ∀ f ∈ failures, P f)
    (fun failures => ∀ f ∈ failures, P f) parts (fun _ _ => nofun) (fun _ _ => nofun)
    (fun _ _ => nofun) (fun _ => nofun) ?_ (fun _ _ => nofun) (fun _ => nofun) (fun _ => nofun)
    (fun _ => nofun) nofun ?_ failure
  · rintro failures h _ heq
    cases heq
    exact h
  · exact fun f rest hf hrest => List.forall_mem_cons.mpr ⟨hf, hrest⟩

end Failure

mutual

/-- **How many steps deep a failure reports anything**, through the failures of alternatives. -/
def Failure.reach : Failure → Nat
  | ⟨path, cause⟩ => path.length + causeReach cause

/-- How many steps further the failures of alternatives lead. -/
def causeReach : Cause Failure → Nat
  | .unionExhausted failures => failuresReach failures
  | _ => 0

/-- The greatest reach of a failure. -/
def failuresReach : List Failure → Nat
  | [] => 0
  | failure :: rest => max failure.reach (failuresReach rest)

end

theorem failuresReach_le_iff {failures : List Failure} {n : Nat} :
    failuresReach failures ≤ n ↔ ∀ failure ∈ failures, failure.reach ≤ n := by
  induction failures with
  | nil => simp [failuresReach]
  | cons failure rest ih => rw [failuresReach, Nat.max_le, List.forall_mem_cons, ih]

theorem causeReach_le_iff {cause : Cause Failure} {n : Nat} :
    causeReach cause ≤ n ↔
      ∀ failures, cause = .unionExhausted failures → ∀ f ∈ failures, f.reach ≤ n := by
  cases cause <;> simp [causeReach, failuresReach_le_iff]

/-- A failure keeps within `n` steps if its path does, and each part with the steps that are left. -/
theorem Failure.reach_le_iff {failure : Failure} {n : Nat} :
    failure.reach ≤ n ↔ failure.path.length ≤ n ∧
      ∀ failures, failure.cause = .unionExhausted failures →
        ∀ f ∈ failures, failure.path.length + f.reach ≤ n := by
  obtain ⟨path, cause⟩ := failure
  have hsplit : path.length + causeReach cause ≤ n ↔
      path.length ≤ n ∧ causeReach cause ≤ n - path.length := by omega
  rw [Failure.reach, hsplit, causeReach_le_iff]
  refine and_congr_right fun hpath => forall_congr' fun failures => imp_congr_right fun _ => ?_
  refine forall₂_congr fun f _ => ?_
  show f.reach ≤ n - path.length ↔ path.length + f.reach ≤ n
  omega

/-- From one step further out everything is one step deeper. -/
theorem Failure.reach_under (failure : Failure) (step : Step) :
    (failure.under step).reach = failure.reach + 1 := by
  obtain ⟨path, cause⟩ := failure
  rw [Failure.under, Failure.reach, Failure.reach, List.length_cons, Nat.add_right_comm]

end TypedJson
