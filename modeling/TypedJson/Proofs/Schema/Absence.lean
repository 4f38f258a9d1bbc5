import TypedJson.Proofs.Failure.Inherited
import TypedJson.Proofs.Schema.Declarations
import TypedJson.Schema.Absence

/-!
# Which fields may be missing

Whether a schema decodes an absent input can be read off the schema (`decodeAbsent_succeeds_iff`).  So it can
be read off the declarations which field of an object is reported as missing: the first one at fault, if
there is nothing under its name and its schema does not accept absence.  What the schema says about the
absent input is not heard.

A schema can also say by itself, of a value that is there, that a field is missing.  Only a plain function
says so at the root (`noRootMissing_inherited`), where it passes for a missing field of the object around it
(`null_reported_missing`).
-/

namespace TypedJson

theorem acceptAbsent_iff {schemas : List Schema} :
    acceptAbsent schemas = true ↔ ∃ s ∈ schemas, s.acceptsAbsent = true := by
  induction schemas with
  | nil => simp [acceptAbsent]
  | cons s rest ih => simp [acceptAbsent, ih]

namespace Schema

open Decoder

/-! ### Absence -/

theorem absence_refused {s : Schema} {e : Failure} (hdecoder : s.decodeAbsent = .error e)
    (haccepts : s.acceptsAbsent = false) :
    (∃ x, s.decodeAbsent = .ok x) ↔ s.acceptsAbsent = true := by
  simp [hdecoder, haccepts]

/-- **A schema decodes an absent input exactly if it accepts absence.** -/
theorem decodeAbsent_succeeds_iff (s : Schema) :
    (∃ x, s.decodeAbsent = .ok x) ↔ s.acceptsAbsent = true := by
  induction s.builtFrom_any with
  | absent => exact ⟨fun _ => rfl, fun _ => ⟨.unit, rfl⟩⟩
  | option => exact ⟨fun _ => rfl, fun _ => ⟨.none, rfl⟩⟩
  | union _ ih =>
    rw [decodeAbsent, Schema.decoder, union_succeeds_iff, decoders_eq_map, acceptsAbsent,
      acceptAbsent_iff]
    simp only [List.mem_map, exists_exists_and_eq_and]
    exact exists_congr fun s => and_congr_right (ih s)
  | choice _ _ _ iha ihb ih =>
    rw [decodeAbsent, Schema.decoder, union_succeeds_iff, decoders_eq_map, acceptsAbsent,
      Bool.or_eq_true, Bool.or_eq_true, acceptAbsent_iff]
    simp only [List.exists_mem_cons_iff, List.mem_map, exists_exists_and_eq_and, or_assoc]
    exact or_congr iha (or_congr ihb (exists_congr fun s => and_congr_right (ih s)))
  | mapped _ _ ih =>
    rw [decodeAbsent, Schema.decoder, map_succeeds_iff]
    exact ih
  | shared _ ih => exact ih
  | @custom d _ =>
    rw [decodeAbsent, Schema.decoder, acceptsAbsent]
    cases d none <;> simp [Except.isOk, Except.toBool]
  | _ => exact absence_refused rfl rfl

theorem acceptsAbsent_eq_false_iff {s : Schema} :
    s.acceptsAbsent = false ↔ ∃ e, s.decoder none = .error e := by
  rw [← Bool.not_eq_true, ← decodeAbsent_succeeds_iff, decodeAbsent]
  cases s.decoder none <;> simp

/-! ### Missing fields -/

/-- The failure is not that of a missing field at the root of the input. -/
def NoRootMissing (_ : Option Value) (e : Failure) : Prop :=
  ∀ name, e ≠ ⟨[], .missingField name⟩

/-- Only plain functions make such a failure. -/
theorem noRootMissing_inherited : Failure.Inherited NoRootMissing :=
  Failure.inherited_not_root fun _ => trivial

/-- The declaration is decoded: all before it succeed. -/
def Reached (declared : List (String × Schema)) (entries : List (String × Value)) (name : String)
    (s : Schema) : Prop :=
  ∃ before after, declared = before ++ (name, s) :: after ∧
    ∀ f ∈ before, ∃ x, f.2.decoder (Value.lookup f.1 entries) = .ok x

variable {declared : List (String × Schema)} {entries : List (String × Value)} {name : String}

/-- A field is reported as missing if it is absent and may not be, or if its own schema says so of what is
there. -/
theorem fieldFault_missing_iff :
    FieldFault declared entries ⟨[.field name], .missingField name⟩ ↔
      ∃ s, Reached declared entries name s ∧
        ((Value.lookup name entries = none ∧ s.acceptsAbsent = false) ∨
          ∃ v, Value.lookup name entries = some v ∧ s.decode v = .error ⟨[], .missingField name⟩) := by
  constructor
  · rintro ⟨before, ⟨declaredName, s⟩, after, rfl, hbefore, hfield⟩
    rcases field_eq_error_iff.mp hfield with ⟨v, hl, ⟨path, cause⟩, hv, he⟩ | ⟨hl, hrefused, he⟩
    · obtain ⟨hpath, rfl⟩ := Failure.mk.inj he
      obtain ⟨hname, rfl⟩ := List.cons.inj hpath
      obtain rfl := Step.field.inj hname
      exact ⟨s, ⟨before, after, rfl, hbefore⟩, Or.inr ⟨v, hl, hv⟩⟩
    · obtain rfl := Cause.missingField.inj (Failure.mk.inj he).2
      have habsent := acceptsAbsent_eq_false_iff.mpr hrefused
      exact ⟨s, ⟨before, after, rfl, hbefore⟩, Or.inl ⟨hl, habsent⟩⟩
  · rintro ⟨s, ⟨before, after, rfl, hbefore⟩, hfield⟩
    refine ⟨before, (name, s), after, rfl, hbefore, field_eq_error_iff.mpr ?_⟩
    rcases hfield with ⟨hl, hrefused⟩ | ⟨v, hl, hv⟩
    · exact Or.inr ⟨hl, acceptsAbsent_eq_false_iff.mp hrefused, rfl⟩
    · exact Or.inl ⟨v, hl, _, hv, rfl⟩

/-- **Absence is accepted exactly where the schema says so**, and a field is missing exactly where absence is
not accepted.  Of a record, a table of fields and a record type, the field that is reported as missing is the
first one at fault, there is nothing under its name, and its schema does not accept absence.  In particular
nothing that is there counts as missing, not even null.

A plain function may say of a value that is there that it lacks a field by the name under which the value
stands, and this looks the same.  Schemas without such functions do not. -/
theorem missing_iff_absence_refused :
    (∀ s : Schema, (∃ x, s.decodeAbsent = .ok x) ↔ s.acceptsAbsent = true) ∧
    ∀ (s : Schema) (declared : List (String × Schema)), s.Declares declared → ∀ entries name,
      let missing := s.decode (.object entries) = .error ⟨[.field name], .missingField name⟩
      (missing ↔ ∃ t, Reached declared entries name t ∧
        ((Value.lookup name entries = none ∧ t.acceptsAbsent = false) ∨
          ∃ v, Value.lookup name entries = some v ∧ t.decode v = .error ⟨[], .missingField name⟩)) ∧
      ((∀ f ∈ declared, f.2.BuiltFrom (Decoder.FailsWith NoRootMissing) fun _ => True) →
        (Value.object entries).WellFormed →
        (missing ↔ ∃ t, Reached declared entries name t ∧ Value.lookup name entries = none ∧
          t.acceptsAbsent = false) ∧
        ∀ v, Value.lookup name entries = some v → ¬ missing) := by
  refine ⟨decodeAbsent_succeeds_iff, fun s declared hs entries name => ?_⟩
  intro missing
  have hmissing : missing ↔ ∃ t, Reached declared entries name t ∧
      ((Value.lookup name entries = none ∧ t.acceptsAbsent = false) ∨
        ∃ v, Value.lookup name entries = some v ∧ t.decode v = .error ⟨[], .missingField name⟩) :=
    hs.object_eq_error_iff.trans fieldFault_missing_iff
  refine ⟨hmissing, fun hplain hwf => ?_⟩
  have hself : ∀ {t v}, Reached declared entries name t → Value.lookup name entries = some v →
      t.decode v ≠ .error ⟨[], .missingField name⟩ := by
    rintro t v ⟨before, after, rfl, -⟩ hl hv
    have hwf' : Value.WellFormedInput (some v) := hl ▸ hwf.lookup name
    exact (hplain (name, t) (by simp)).failsWith noRootMissing_inherited _ hwf' _ hv name rfl
  have hiff : missing ↔ ∃ t, Reached declared entries name t ∧ Value.lookup name entries = none ∧
      t.acceptsAbsent = false := by
    refine hmissing.trans (exists_congr fun t => and_congr_right fun ht => ?_)
    refine or_iff_left ?_
    rintro ⟨v, hl, hv⟩
    exact hself ht hl hv
  refine ⟨hiff, fun v hl hm => ?_⟩
  obtain ⟨t, -, hnone, -⟩ := hiff.mp hm
  exact Option.some_ne_none v (hl.symm.trans hnone)

/-- Without its tag the object lacks a field, although the schema of the tag says that it finds no
alternative.  With null for a tag it lacks nothing. -/
theorem missing_iff_absence_refused_tag :
    let s := record [("id", string), ("tag", union [string, boolean])]
    let missing : Failure := ⟨[.field "tag"], .missingField "tag"⟩
    s.decode (.object [("id", .string "x")]) = .error missing ∧
      s.decode (.object [("id", .string "x"), ("tag", .null)]) ≠ .error missing := by
  intro s missing
  have hplain : ∀ f ∈ [("id", string), ("tag", union [string, boolean])],
      f.2.BuiltFrom (Decoder.FailsWith NoRootMissing) fun _ => True := by
    simp only [List.forall_mem_cons, List.not_mem_nil, false_implies, implies_true, and_true]
    exact ⟨.string, .union (by simpa using ⟨.string, .boolean⟩)⟩
  have hwf : (Value.object [("id", .string "x"), ("tag", .null)]).WellFormed := by
    have horder : Text.order "id" "tag" = .lt := by decide
    simp [Value.WellFormed, Value.WellFormedEntries, Entries.Sorted, horder]
  have hreached : Reached [("id", string), ("tag", union [string, boolean])] [("id", .string "x")] "tag"
      (union [string, boolean]) :=
    ⟨[("id", string)], [], rfl, by simpa using ⟨Output.text "x", rfl⟩⟩
  have hmissing := fun entries => missing_iff_absence_refused.2 s _ (.record _) entries "tag"
  refine ⟨(hmissing _).1.mpr ⟨_, hreached, Or.inl ⟨rfl, rfl⟩⟩, ?_⟩
  exact ((hmissing _).2 hplain hwf).2 .null rfl

/-- **A plain function may say of null that it lacks a field**, and if this is the field under which the
null stands, then the field is reported as missing although it is there. -/
theorem null_reported_missing :
    let t := custom fun _ => .error (.ofCause (.missingField "a"))
    let entries := [("a", Value.null)]
    let missing := (record [("a", t)]).decode (.object entries) = .error ⟨[.field "a"], .missingField "a"⟩
    missing ∧ Value.lookup "a" entries = some .null ∧
      ¬ (missing ↔ ∃ u, Reached [("a", t)] entries "a" u ∧ Value.lookup "a" entries = none ∧
        u.acceptsAbsent = false) := by
  intro t entries missing
  have hmissing : missing := rfl
  have hnull : Value.lookup "a" entries = some .null := rfl
  refine ⟨hmissing, hnull, fun hiff => ?_⟩
  obtain ⟨u, -, hnone, -⟩ := hiff.mp hmissing
  exact Option.some_ne_none _ (hnull.symm.trans hnone)

end Schema

end TypedJson
