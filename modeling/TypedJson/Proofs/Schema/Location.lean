import TypedJson.Proofs.Decoder.Limit
import TypedJson.Proofs.Failure.Parts
import TypedJson.Proofs.Failure.Truth
import TypedJson.Proofs.Value.Depth
import TypedJson.Proofs.Value.Tokens

/-!
# Where failures lie

Two properties of failures on inputs say where a failure lies, and composite decoders hand on both: it
reports nothing deeper than the input nests (`Failure.Within`), and its path leads somewhere
(`Failure.Leads`).  A failure of the limit leads to a container.  Two things follow:

* within a limit on nesting nothing is reported deeper than the limit
  (`Schema.decodeWithin_reach_le`), as a value that keeps the limit nests no deeper;
* the tokens of a failure locate it in its document (`Schema.tokens_locate`), as what stands at a
  place says how a token is meant.

A plain function may put any path into its failures (`Schema.decodeWithin_own_document`,
`Schema.tokens_of_made_up_paths`), so in both cases the plain functions that a schema holds are asked for
the property, and for nothing else.  True failures have both (`Failure.Describes.within`,
`Failure.Describes.leads`), and so have truthful functions (`Schema.BuiltFrom.failsWith_of_truthful`).
-/

namespace TypedJson

namespace Failure

/-- **The failure lies within the input**: it reports nothing deeper than the input nests, and is not
the failure of a limit. -/
def Within (input : Option Value) (failure : Failure) : Prop :=
  failure.reach ≤ Value.inputDepth input ∧ ∀ limit, failure.cause ≠ .depthExceeded limit

/-- **The path of the failure leads somewhere** in the input. -/
def Leads (input : Option Value) (failure : Failure) : Prop :=
  ∃ target, Value.follow? input failure.path = some target

/-- A failure that holds no others reaches as far as its path. -/
theorem within_of_path {input : Option Value} {path : List Step} {cause : Cause Failure}
    (hunion : ∀ failures, cause ≠ .unionExhausted failures)
    (hlimit : ∀ limit, cause ≠ .depthExceeded limit) (hpath : path.length ≤ Value.inputDepth input) :
    Within input ⟨path, cause⟩ :=
  ⟨reach_le_iff.mpr ⟨hpath, fun failures hc => absurd hc (hunion failures)⟩, hlimit⟩

theorem inherited_within : Inherited Within where
  under {input target step e} hs h := by
    have hlt := Value.inputDepth_lt_of_step? hs
    have hreach := h.1
    refine ⟨?_, h.2⟩
    rw [reach_under]
    omega
  typeMismatch _ _ := within_of_path nofun nofun (Nat.zero_le _)
  valueMismatch _ _ := within_of_path nofun nofun (Nat.zero_le _)
  shapeMismatch _ _ := within_of_path nofun nofun (Nat.zero_le _)
  missingField _ := within_of_path nofun nofun (Nat.le_add_right 1 _)
  invalidTimestamp _ _ _ := within_of_path nofun nofun (Nat.zero_le _)
  duplicate _ hc := by
    rcases hc with rfl | rfl <;> exact within_of_path nofun nofun (Nat.le_add_right 1 _)
  union h := by
    refine ⟨reach_le_iff.mpr ⟨Nat.zero_le _, fun failures hc f hf => ?_⟩, nofun⟩
    cases hc
    rw [path_ofCause, List.length_nil, Nat.zero_add]
    exact (h f hf).1

theorem inherited_leads : Inherited Leads where
  under {input target step e} hs := by
    rintro ⟨t, ht⟩
    refine ⟨t, ?_⟩
    rw [path_under, Value.follow?, hs]
    exact ht
  typeMismatch _ input := ⟨input, rfl⟩
  valueMismatch _ input := ⟨input, rfl⟩
  shapeMismatch _ input := ⟨input, rfl⟩
  missingField h := ⟨none, by simp [Value.follow?, Value.step?, h]⟩
  invalidTimestamp {input} _ _ _ := ⟨input, rfl⟩
  duplicate {before after v first cause} _ _ :=
    ⟨some v, by simp [Value.follow?, Value.step?_index_append]⟩
  union {input failures} _ := ⟨input, rfl⟩

/-! ### True failures -/

variable {input : Option Value} {failure : Failure}

theorem Describes.leads (h : failure.Describes input) : failure.Leads input := by
  obtain ⟨target, hfollow, -⟩ := describes_iff.mp h
  exact ⟨target, hfollow⟩

/-- A failure that is true of an input reports nothing deeper than the input nests. -/
theorem Describes.reach_le (h : failure.Describes input) : failure.reach ≤ Value.inputDepth input := by
  induction failure using induction_parts generalizing input with
  | parts path cause ih =>
    rw [Describes] at h
    obtain ⟨target, hfollow, hcause⟩ := h
    have hpath := Value.length_add_inputDepth_le hfollow
    have hparts : causeReach cause ≤ Value.inputDepth target := by
      refine causeReach_le_iff.mpr fun failures hc f hf => ?_
      rw [hc, causeDescribes, failuresDescribe_iff] at hcause
      exact ih failures hc f hf (hcause f hf)
    rw [reach]
    omega

theorem Describes.within (h : failure.Describes input) : failure.Within input := by
  refine ⟨h.reach_le, fun limit hc => ?_⟩
  obtain ⟨target, -, hcause⟩ := describes_iff.mp h
  rwa [hc, causeDescribes] at hcause

end Failure

/-- Within a limit a decoder fails by itself on a value that keeps the limit, or else for the limit, at a
container that lies just beyond it. -/
theorem Decoder.decodeWithin_eq_error {α : Type} {D : Decoder α} {v : Value} (hw : v.WellFormed)
    {d : Nat} {failure : Failure} (h : D.decodeWithin ⟨d⟩ v = .error failure) :
    (1 ≤ d → v.depth ≤ d) ∧ D (some v) = .error failure ∨
      failure.cause = .depthExceeded d ∧ v.ContainerUnder d failure.path := by
  by_cases hlt : 1 ≤ d ∧ d < v.depth
  · obtain ⟨path, hcheck, hfirst⟩ := Limits.check_of_lt_depth hw hlt.1 hlt.2
    rw [D.decodeWithin_of_check_error hcheck] at h
    cases h
    exact Or.inr ⟨rfl, hfirst.1⟩
  · have hcheck : Limits.check ⟨d⟩ v = .ok () := by
      rcases Nat.eq_zero_or_pos d with rfl | hd
      · rfl
      · exact Limits.check_of_depth_le (by omega)
    rw [D.decodeWithin_of_check hcheck] at h
    exact Or.inl ⟨fun hd => by omega, h⟩

namespace Schema

/-- **Within a limit every reported location is within the limit.**  A failure of decoding within
`d ≥ 1` levels has a path of at most `d` steps, and of exactly `d` if it is that of the limit.  The path of
each alternative's failure goes on from there and still keeps within `d`, and so on through all
alternatives inside (`Failure.reach`).  The plain functions that the schema holds are only asked that
their own failures lie within their inputs. -/
theorem decodeWithin_reach_le {s : Schema}
    (hs : s.BuiltFrom (Decoder.FailsWith Failure.Within) fun _ => True)
    {v : Value} (hw : v.WellFormed) {d : Nat} (hd : 1 ≤ d) {failure : Failure}
    (h : s.decodeWithin ⟨d⟩ v = .error failure) :
    failure.path.length ≤ d ∧
      (∀ limit, failure.cause = .depthExceeded limit → limit = d ∧ failure.path.length = d) ∧
      (∀ failures, failure.cause = .unionExhausted failures →
        ∀ f ∈ failures, failure.path.length + f.path.length ≤ d) ∧
      failure.reach ≤ d := by
  have hinput : Value.WellFormedInput (some v) := hw
  obtain ⟨hreach, hlimit⟩ : failure.reach ≤ d ∧
      ∀ limit, failure.cause = .depthExceeded limit → limit = d ∧ failure.path.length = d := by
    rcases Decoder.decodeWithin_eq_error hw h with ⟨hdepth, hfail⟩ | ⟨hcause, hlength, -⟩
    · obtain ⟨hreach, hne⟩ := hs.failsWith Failure.inherited_within _ hinput _ hfail
      exact ⟨Nat.le_trans hreach (hdepth hd), fun limit hc => absurd hc (hne limit)⟩
    · refine ⟨Failure.reach_le_iff.mpr ⟨Nat.le_of_eq hlength, fun failures hc => ?_⟩, fun limit hc => ?_⟩
      · rw [hcause] at hc
        cases hc
      · rw [hcause] at hc
        cases hc
        exact ⟨rfl, hlength⟩
  obtain ⟨hpath, hparts⟩ := Failure.reach_le_iff.mp hreach
  refine ⟨hpath, hlimit, fun failures hc f hf => ?_, hreach⟩
  have hpart := hparts failures hc f hf
  have hle := (Failure.reach_le_iff.mp (Nat.le_refl f.reach)).1
  omega

/-- The second element nests as deep as allowed, and the field that it lacks lies just within the
limit. -/
theorem decodeWithin_reach_le_missing :
    let s := Schema.array (.choice (.record [("id", .number)]) Schema.even [])
    let v := Value.array [.object [("id", .int 1)], .object [("no", .null)]]
    let failure : Failure := ⟨[.index 1], .unionExhausted
      [⟨[.field "id"], .missingField "id"⟩, .typeMismatch "number" (some (.object []))]⟩
    s.BuiltFrom (Decoder.FailsWith Failure.Within) (fun _ => True) ∧ v.WellFormed ∧ 1 ≤ 2 ∧
      s.decodeWithin ⟨2⟩ v = .error failure ∧ failure.reach = 2 ∧
      failure.path.length ≤ 2 ∧
        (∀ limit, failure.cause = .depthExceeded limit → limit = 2 ∧ failure.path.length = 2) ∧
        (∀ failures, failure.cause = .unionExhausted failures →
          ∀ f ∈ failures, failure.path.length + f.path.length ≤ 2) ∧
        failure.reach ≤ 2 := by
  intro s v failure
  have heven : Schema.even.BuiltFrom Decoder.Truthful fun _ => True :=
    .custom (Decoder.truthful_of_specialLeaf List.mem_cons_self)
  have htruthful : s.BuiltFrom Decoder.Truthful fun _ => True :=
    .array (.choice (.record (by simpa using .number)) heven (by simp))
  have hs := htruthful.failsWith_of_truthful fun _ _ => Failure.Describes.within
  have hw : v.WellFormed := by
    simp [v, Value.WellFormed, Value.WellFormedItems, Value.WellFormedEntries, Value.int,
      Entries.Sorted]
  have h : s.decodeWithin ⟨2⟩ v = .error failure := rfl
  exact ⟨hs, hw, by decide, h, rfl, decodeWithin_reach_le hs hw (by decide) h⟩

/-- **A plain function may report what lies in a document of its own**, deeper than the limit on its
input. -/
theorem decodeWithin_own_document :
    let own := Value.array [.array [.null]]
    let s := Schema.custom fun _ => (Schema.array (.array .number)).decode own
    let v := Value.string "[[null]]"
    s.decodeWithin ⟨1⟩ v = .error ⟨[.index 0, .index 0], .typeMismatch "number" .null⟩ ∧
      ¬ ∀ failure, s.decodeWithin ⟨1⟩ v = .error failure → failure.path.length ≤ 1 := by
  intro own s v
  have hfails : s.decodeWithin ⟨1⟩ v =
      .error ⟨[.index 0, .index 0], .typeMismatch "number" .null⟩ := rfl
  refine ⟨hfails, fun hwithin => ?_⟩
  have hlength : 2 ≤ 1 := hwithin _ hfails
  omega

/-- A schema fails on an input with this failure, within limits or without. -/
def FailsOn (s : Schema) (input : Option Value) (failure : Failure) : Prop :=
  s.decoder input = .error failure ∨
    ∃ v limits, input = some v ∧ s.decodeWithin limits v = .error failure

/-- The path of a failure leads somewhere, also within limits. -/
theorem FailsOn.leads {s : Schema}
    (hs : s.BuiltFrom (Decoder.FailsWith Failure.Leads) fun _ => True) {input : Option Value}
    (hw : Value.WellFormedInput input) {failure : Failure} (h : s.FailsOn input failure) :
    failure.Leads input := by
  rcases h with h | ⟨v, ⟨d⟩, rfl, h⟩
  · exact hs.failsWith Failure.inherited_leads input hw failure h
  · rcases Decoder.decodeWithin_eq_error hw h with ⟨-, h⟩ | ⟨-, -, c, hfollow, -⟩
    · exact hs.failsWith Failure.inherited_leads (some v) hw failure h
    · exact ⟨some c, hfollow⟩

/-- **Tokens locate a failure within one document.**  Two failures on one input, of any two schemas and
within any limits, have the same tokens only if they have the same path, though a field and a position
may share a token.  Following the tokens from the input, each as a position in an array and as a name in
an object, leads to the very target of the path.  The plain functions that the schemas hold are only
asked that the paths of their own failures lead somewhere in their inputs. -/
theorem tokens_locate {s t : Schema}
    (hs : s.BuiltFrom (Decoder.FailsWith Failure.Leads) fun _ => True)
    (ht : t.BuiltFrom (Decoder.FailsWith Failure.Leads) fun _ => True) {input : Option Value}
    (hw : Value.WellFormedInput input) {e f : Failure} (he : s.FailsOn input e)
    (hf : t.FailsOn input f) :
    (e.tokens = f.tokens ↔ e.path = f.path) ∧
      ∃ target, Value.follow? input e.path = some target ∧
        Value.followTokens? input e.tokens = some target := by
  obtain ⟨target, hpath⟩ := he.leads hs hw
  obtain ⟨target', hpath'⟩ := hf.leads ht hw
  refine ⟨⟨Value.path_eq_of_tokens_eq hpath hpath', congrArg (List.map Step.token)⟩, ?_⟩
  exact ⟨target, hpath, Value.followTokens?_tokens hpath⟩

/-- The array under the name `0` has its fault at the position `0`: a record and a dictionary, the one
without and the other within a limit, report it under the same tokens. -/
theorem tokens_locate_zero :
    let s := Schema.record [("0", .array Schema.even)]
    let t := Schema.dict (.set .string)
    let input := some (Value.object [("0", .array [.null]), ("1", .array [])])
    let e : Failure := ⟨[.field "0", .index 0], .typeMismatch "number" .null⟩
    let f : Failure := ⟨[.field "0", .index 0], .typeMismatch "string" .null⟩
    s.BuiltFrom (Decoder.FailsWith Failure.Leads) (fun _ => True) ∧
      t.BuiltFrom (Decoder.FailsWith Failure.Leads) (fun _ => True) ∧
      Value.WellFormedInput input ∧ s.FailsOn input e ∧ t.FailsOn input f ∧
      e.tokens = ["0", "0"] ∧ f.tokens = ["0", "0"] ∧ (e.tokens = f.tokens ↔ e.path = f.path) ∧
      ∃ target, Value.follow? input e.path = some target ∧
        Value.followTokens? input e.tokens = some target := by
  intro s t input e f
  have heven : Schema.even.BuiltFrom Decoder.Truthful fun _ => True :=
    .custom (Decoder.truthful_of_specialLeaf List.mem_cons_self)
  have hs : s.BuiltFrom (Decoder.FailsWith Failure.Leads) fun _ => True :=
    (BuiltFrom.record (by simpa using .array heven)).failsWith_of_truthful fun _ _ =>
      Failure.Describes.leads
  have ht : t.BuiltFrom (Decoder.FailsWith Failure.Leads) fun _ => True := .dict (.set .string)
  have hw : Value.WellFormedInput input := by
    simp [input, Value.WellFormedInput, Value.WellFormed, Value.WellFormedItems,
      Value.WellFormedEntries, Entries.Sorted, Text.order, Text.orderChars]
  have he : s.FailsOn input e := Or.inl rfl
  have hf : t.FailsOn input f := Or.inr ⟨_, ⟨2⟩, rfl, rfl⟩
  exact ⟨hs, ht, hw, he, hf, rfl, rfl, tokens_locate hs ht hw he hf⟩

/-- **Plain functions may put any path into their failures**: on null, where no step leads on, the one
reports the field `0` and the other the position `0`, and the tokens do not tell them apart. -/
theorem tokens_of_made_up_paths :
    let e : Failure := ⟨[.field "0"], .typeMismatch "number" .null⟩
    let f : Failure := ⟨[.index 0], .typeMismatch "number" .null⟩
    let s := Schema.custom fun _ => .error e
    let t := Schema.custom fun _ => .error f
    s.FailsOn (some .null) e ∧ t.FailsOn (some .null) f ∧ e.tokens = f.tokens ∧ e.path ≠ f.path := by
  intro e f s t
  have he : s.FailsOn (some .null) e := Or.inl rfl
  have hf : t.FailsOn (some .null) f := Or.inl rfl
  exact ⟨he, hf, rfl, by decide⟩

end Schema

end TypedJson
