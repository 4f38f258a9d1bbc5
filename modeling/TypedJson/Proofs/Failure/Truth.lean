import TypedJson.Proofs.Failure.Inherited

/-!
# Failures tell the truth

A failure claims something about the input: that its path leads somewhere, and that what stands there
is as its cause says.  `failure.Describes input` says that the claim is true.  The failures of
alternatives speak of the place where the choice stands, so they describe the target of the path and
not the input.

Truth is kept when a failure is seen from one step further out (`Failure.Describes.under`), and what
composite decoders say by themselves is true, so truth is inherited (`Failure.inherited_describes`).  The
decoder of a schema is truthful if the plain functions that the schema holds are
(`Schema.BuiltFrom.truthful`).
-/

namespace TypedJson

mutual

/-- **The path leads from the input to a target, and the cause is true of the target.** -/
def Failure.Describes (input : Option Value) : Failure → Prop
  | ⟨path, cause⟩ =>
    ∃ target, Value.follow? input path = some target ∧ causeDescribes input path target cause

/-- The cause is true of the target that the path reaches from the input. -/
def causeDescribes (input : Option Value) (path : List Step) (target : Option Value) :
    Cause Failure → Prop
  | .typeMismatch _ found => found = Kind.of target
  | .valueMismatch _ found => found = target
  | .shapeMismatch _ found => found = shapeText target
  | .missingField name =>
    target = none ∧ ∃ parent entries, path = parent ++ [.field name] ∧
      Value.follow? input parent = some (some (.object entries)) ∧
      Value.lookup name entries = none
  | .unionExhausted failures => failuresDescribe target failures
  | .invalidTimestamp _ _ =>
    (∃ text, target = some (.string text)) ∨ ∃ n, target = some (.number n)
  | .duplicateValue first => ∃ parent position, path = parent ++ [.index position] ∧ first < position
  | .duplicateKey first => ∃ parent position, path = parent ++ [.index position] ∧ first < position
  | .depthExceeded _ => False

/-- Each failure describes the input. -/
def failuresDescribe (input : Option Value) : List Failure → Prop
  | [] => True
  | failure :: rest => failure.Describes input ∧ failuresDescribe input rest

end

theorem failuresDescribe_iff (input : Option Value) (failures : List Failure) :
    failuresDescribe input failures ↔ ∀ failure ∈ failures, failure.Describes input := by
  induction failures with
  | nil => simp [failuresDescribe]
  | cons failure rest ih => simp [failuresDescribe, ih]

namespace Failure

variable {input target : Option Value} {failure : Failure}

/-- A failure that is true of a part is true of the whole, seen from there. -/
theorem Describes.under {step : Step} (hs : Value.step? input step = some target)
    (h : failure.Describes target) : (failure.under step).Describes input := by
  have hfollow : ∀ path, Value.follow? input (step :: path) = Value.follow? target path := by
    intro path
    simp [Value.follow?, hs]
  obtain ⟨path, cause⟩ := failure
  simp only [Failure.Describes] at h
  simp only [Failure.under, Failure.Describes]
  obtain ⟨t, ht, hc⟩ := h
  refine ⟨t, by rw [hfollow, ht], ?_⟩
  cases cause with
  | missingField name =>
    simp only [causeDescribes] at hc ⊢
    obtain ⟨hnone, parent, entries, rfl, hparent, hl⟩ := hc
    exact ⟨hnone, step :: parent, entries, rfl, by rw [hfollow, hparent], hl⟩
  | duplicateValue first =>
    simp only [causeDescribes] at hc ⊢
    obtain ⟨parent, position, rfl, hlt⟩ := hc
    exact ⟨step :: parent, position, rfl, hlt⟩
  | duplicateKey first =>
    simp only [causeDescribes] at hc ⊢
    obtain ⟨parent, position, rfl, hlt⟩ := hc
    exact ⟨step :: parent, position, rfl, hlt⟩
  | _ => exact hc

theorem describes_iff : failure.Describes input ↔
    ∃ target, Value.follow? input failure.path = some target ∧
      causeDescribes input failure.path target failure.cause := by
  obtain ⟨path, cause⟩ := failure
  rw [Describes]

theorem describes_ofCause {cause : Cause Failure} :
    (ofCause cause).Describes input ↔ causeDescribes input [] input cause := by
  simp [ofCause, Describes]

/-- Truth is inherited. -/
theorem inherited_describes : Inherited fun input failure => failure.Describes input where
  under := Describes.under
  typeMismatch expected input := by
    rw [typeMismatch, describes_ofCause, causeDescribes]
  valueMismatch expected input := by
    rw [valueMismatch, describes_ofCause, causeDescribes]
  shapeMismatch expected input := by
    rw [shapeMismatch, describes_ofCause, causeDescribes]
  missingField {entries name} h := by
    have htarget : Value.follow? (some (.object entries)) [.field name] = some none := by
      simp [Value.follow?, Value.step?, h]
    refine ⟨none, htarget, ?_⟩
    rw [cause_ofCause, causeDescribes]
    exact ⟨rfl, [], entries, rfl, rfl, h⟩
  invalidTimestamp found reason h := by
    rw [describes_ofCause, causeDescribes]
    exact h
  duplicate {before after v first cause} hlt hc := by
    have htarget : Value.follow? (some (.array (before ++ v :: after))) [.index before.length] =
        some (some v) := by
      simp [Value.follow?, Value.step?_index_append]
    refine ⟨some v, htarget, ?_⟩
    rcases hc with rfl | rfl <;> exact ⟨[], before.length, rfl, hlt⟩
  union h := by
    rw [describes_ofCause, causeDescribes, failuresDescribe_iff]
    exact h

end Failure

namespace Decoder

/-- Every failure of the decoder describes the input. -/
def Truthful {α : Type} (d : Decoder α) : Prop :=
  ∀ input, Value.WellFormedInput input → ∀ failure, d input = .error failure →
    failure.Describes input

/-- The failure of a limit is not one of decoding. -/
theorem Truthful.ne_depthExceeded {α : Type} {d : Decoder α} (hd : d.Truthful)
    {input : Option Value} (hw : Value.WellFormedInput input) (path : List Step) (limit : Nat) :
    d input ≠ .error ⟨path, .depthExceeded limit⟩ := by
  intro h
  obtain ⟨target, -, hc⟩ := hd input hw _ h
  rwa [causeDescribes] at hc

theorem truthful_of_specialLeaf {d : Decoder Output} (h : Schema.SpecialLeaf d) : d.Truthful :=
  failsWith_of_specialLeaf Failure.inherited_describes h

end Decoder

namespace Schema

/-- **The decoder of a schema is truthful if the plain functions that the schema holds are.** -/
theorem BuiltFrom.truthful {s : Schema} (h : s.BuiltFrom Decoder.Truthful fun _ => True) :
    s.decoder.Truthful :=
  h.failsWith Failure.inherited_describes

/-- Truthful functions fail with whatever true failures have. -/
theorem BuiltFrom.failsWith_of_truthful {P : Option Value → Failure → Prop}
    (hP : ∀ input failure, failure.Describes input → P input failure)
    {conversion : (Output → Output) → Prop} {s : Schema}
    (h : s.BuiltFrom Decoder.Truthful conversion) : s.BuiltFrom (Decoder.FailsWith P) conversion :=
  h.mono (fun _ hd input hw e he => hP input e (hd input hw e he)) fun _ => id

/-- **Failures point at the truth.**  The path of a failure leads from the input to a target, and the
cause of the failure is true of this target, down to the failures of alternatives.  The plain
functions that a schema holds are only asked to be truthful themselves. -/
theorem failure_describes_target {s : Schema}
    (hs : s.BuiltFrom Decoder.Truthful fun _ => True) {input : Option Value}
    (hw : Value.WellFormedInput input) {failure : Failure}
    (h : s.decoder input = .error failure) :
    ∃ target, Value.follow? input failure.path = some target ∧
      causeDescribes input failure.path target failure.cause :=
  Failure.describes_iff.mp (hs.truthful input hw failure h)

/-- The second element is neither a record with an `id` nor an even number: the alternatives speak of
that element, the first of them of a field that it lacks. -/
theorem failure_describes_element :
    let s := Schema.array (.choice (.record [("id", .number)]) Schema.even [])
    let input := some (Value.array [.object [("id", .int 1)], .object [("no", .null)]])
    let failure : Failure := ⟨[.index 1], .unionExhausted
      [⟨[.field "id"], .missingField "id"⟩, .typeMismatch "number" (some (.object []))]⟩
    s.BuiltFrom Decoder.Truthful (fun _ => True) ∧ Value.WellFormedInput input ∧
      s.decoder input = .error failure ∧
      ∃ target, Value.follow? input failure.path = some target ∧
        causeDescribes input failure.path target failure.cause := by
  intro s input failure
  have heven : Schema.even.BuiltFrom Decoder.Truthful fun _ => True :=
    .custom (Decoder.truthful_of_specialLeaf List.mem_cons_self)
  have hs : s.BuiltFrom Decoder.Truthful fun _ => True :=
    .array (.choice (.record (by simpa using .number)) heven (by simp))
  have hw : Value.WellFormedInput input := by
    simp [input, Value.WellFormedInput, Value.WellFormed, Value.WellFormedItems,
      Value.WellFormedEntries, Value.int, Entries.Sorted]
  have h : s.decoder input = .error failure := rfl
  exact ⟨hs, hw, h, failure_describes_target hs hw h⟩

end Schema

end TypedJson
