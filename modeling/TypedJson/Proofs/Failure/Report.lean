import TypedJson.Failure.Equality
import TypedJson.Failure.Report
import TypedJson.Proofs.Failure.Parts
import TypedJson.Proofs.Value.Parts

/-!
# A report tells everything but absence

The report of a failure is a JSON object whose entries depend on the kind of the cause, and inside it
stand the reports of the alternatives.  All that it loses is whether a found value was `null` or was not
there; `e.reported` is the failure `e` with this difference removed, at every depth.

* `report_eqv`: two reports are equal values exactly if the failures are equal but for that difference;
* `report_eq_iff`: the same for identity, which also tells the two zeros apart.

Both go the same way.  The entries under `kind` and `path` are those of every report
(`lookup_kind`, `lookup_path`), so equal reports are of one kind and have one path
(`name_and_path_of_report`); between causes of one kind the entries correspond one by one.
-/

namespace TypedJson

mutual

/-- **The failure as its report shows it**: where nothing was found there is `null`. -/
def Failure.reported : Failure → Failure
  | ⟨path, cause⟩ => ⟨path, reportedCause cause⟩

/-- The cause as a report shows it. -/
def reportedCause : Cause Failure → Cause Failure
  | .valueMismatch expected found => .valueMismatch expected (some (found.getD .null))
  | .unionExhausted failures => .unionExhausted (reportedAll failures)
  | cause => cause

/-- Each failure as its report shows it. -/
def reportedAll : List Failure → List Failure
  | [] => []
  | failure :: rest => failure.reported :: reportedAll rest

end

/-! ### Paths, kinds and shapes -/

theorem Value.eqv_nat_iff {m n : Nat} : (Value.nat m).eqv (.nat n) = true ↔ m = n := by
  simp only [nat, int, eqv, Number.eqv, decide_eq_true_eq, Int.ofNat_inj]

/-- A field and a position are never reported alike. -/
theorem Step.eqv_toValue_iff {a b : Step} : a.toValue.eqv b.toValue = true ↔ a = b := by
  cases a with
  | field name => cases b <;> simp [toValue, Value.eqv, Value.nat, Value.int]
  | index i =>
    cases b with
    | field name => simp [toValue, Value.eqv, Value.nat, Value.int]
    | index j => rw [toValue, toValue, Value.eqv_nat_iff, index.injEq]

theorem eqv_pathReport_iff {p q : List Step} : (pathReport p).eqv (pathReport q) = true ↔ p = q := by
  simp only [pathReport, Value.eqv]
  induction p generalizing q with
  | nil => cases q <;> simp [Value.eqvItems]
  | cons a p ih => cases q <;> simp [Value.eqvItems, Step.eqv_toValue_iff, ih]

theorem Shape.eqv_report_iff {s t : Shape} : s.report.eqv t.report = true ↔ s = t := by
  cases s <;> cases t <;> simp [report, Value.eqv, Value.eqvEntries, Value.eqv_nat_iff]

theorem lookup_kind (kind path : Value) (cause : Cause Failure) :
    Value.lookup "kind" (reportEntries kind path cause) = some kind := by
  cases cause <;> rfl

theorem lookup_path (kind path : Value) (cause : Cause Failure) :
    Value.lookup "path" (reportEntries kind path cause) = some path := by
  cases cause <;> rfl

/-- Equal entries hold equal values under every name. -/
theorem Value.eqv_of_lookup {name : String} {v w : Value} :
    ∀ {es fs : List (String × Value)}, eqvEntries es fs = true → lookup name es = some v →
      lookup name fs = some w → v.eqv w = true
  | (k, x) :: es, (l, y) :: fs, h, hv, hw => by
    simp only [eqvEntries, Bool.and_eq_true, beq_iff_eq] at h
    obtain ⟨⟨rfl, hxy⟩, hrest⟩ := h
    rw [lookup, Entries.find?] at hv hw
    split at hv
    · next hk =>
      rw [if_pos hk] at hw
      cases hv
      cases hw
      exact hxy
    · next hk =>
      rw [if_neg hk] at hw
      exact eqv_of_lookup hrest hv hw

/-- Equal reports are of one kind and have one path. -/
theorem Failure.name_and_path_of_report {e f : Failure} (h : e.report.eqv f.report = true) :
    e.cause.name = f.cause.name ∧ e.path = f.path := by
  obtain ⟨p, c⟩ := e
  obtain ⟨q, d⟩ := f
  simp only [report, Value.eqv] at h
  have hkind := Value.eqv_of_lookup h (lookup_kind _ _ c) (lookup_kind _ _ d)
  have hpath := Value.eqv_of_lookup h (lookup_path _ _ c) (lookup_path _ _ d)
  simp only [Value.eqv, beq_iff_eq] at hkind
  exact ⟨hkind, eqv_pathReport_iff.mp hpath⟩

/-! ### Causes -/

theorem name_eq_of_causeEqv {c d : Cause Failure} (h : causeEqv c d = true) : c.name = d.name := by
  cases c <;> cases d <;> first | rfl | simp [causeEqv] at h

theorem name_reportedCause (cause : Cause Failure) : (reportedCause cause).name = cause.name := by
  cases cause <;> rfl

theorem eqvItems_reports {es fs : List Failure}
    (h : ∀ e ∈ es, ∀ f : Failure, e.report.eqv f.report = e.reported.eqv f.reported) :
    Value.eqvItems (reports es) (reports fs) = failuresEqv (reportedAll es) (reportedAll fs) := by
  induction es generalizing fs with
  | nil => cases fs <;> simp [reports, reportedAll, Value.eqvItems, failuresEqv]
  | cons e es ih =>
    obtain ⟨he, hes⟩ := List.forall_mem_cons.mp h
    cases fs <;> simp [reports, reportedAll, Value.eqvItems, failuresEqv, he, ih hes]

theorem reports_eq_iff {es fs : List Failure}
    (h : ∀ e ∈ es, ∀ f : Failure, e.report = f.report ↔ e.reported = f.reported) :
    reports es = reports fs ↔ reportedAll es = reportedAll fs := by
  induction es generalizing fs with
  | nil => cases fs <;> simp [reports, reportedAll]
  | cons e es ih =>
    obtain ⟨he, hes⟩ := List.forall_mem_cons.mp h
    cases fs <;> simp [reports, reportedAll, he, ih hes]

section SameKind
variable {c d : Cause Failure} (hname : c.name = d.name) (kind : Value) (path : Value)
include hname

/-- Causes of one kind are reported alike exactly if they are alike but for absence. -/
theorem eqvEntries_reportEntries
    (hparts : ∀ es, c = .unionExhausted es → ∀ e ∈ es, ∀ f : Failure,
      e.report.eqv f.report = e.reported.eqv f.reported) :
    Value.eqvEntries (reportEntries kind path c) (reportEntries kind path d) =
      causeEqv (reportedCause c) (reportedCause d) := by
  have htext : ∀ {a b : Kind}, a.text = b.text ↔ a = b := ⟨Kind.text_inj, congrArg Kind.text⟩
  rw [Bool.eq_iff_iff]
  cases c <;> cases d <;> simp only [Cause.name, String.reduceEq] at hname
  case unionExhausted.unionExhausted es fs =>
    simp [reportEntries, Value.eqvEntries, Value.eqv, Value.eqv_self, causeEqv, reportedCause,
      eqvItems_reports (hparts es rfl)]
  all_goals
    simp [reportEntries, Value.eqvEntries, Value.eqv, Value.eqv_self, Value.eqvInput,
      Value.eqv_nat_iff, Shape.eqv_report_iff, htext, causeEqv, reportedCause]

theorem reportEntries_eq_iff
    (hparts : ∀ es, c = .unionExhausted es → ∀ e ∈ es, ∀ f : Failure,
      e.report = f.report ↔ e.reported = f.reported) :
    reportEntries kind path c = reportEntries kind path d ↔ reportedCause c = reportedCause d := by
  have htext : ∀ {a b : Kind}, a.text = b.text ↔ a = b := ⟨Kind.text_inj, congrArg Kind.text⟩
  have hnat : ∀ {m n : Nat}, Value.nat m = .nat n ↔ m = n := by
    simp only [Value.nat, Value.int, Value.number.injEq, Number.int.injEq, Int.ofNat_inj,
      implies_true]
  have hshape : ∀ {s t : Shape}, s.report = t.report ↔ s = t := by
    intro s t
    refine ⟨fun h => Shape.eqv_report_iff.mp ?_, congrArg Shape.report⟩
    rw [h, Value.eqv_self]
  cases c <;> cases d <;> simp only [Cause.name, String.reduceEq] at hname
  case unionExhausted.unionExhausted es fs =>
    simp [reportEntries, reportedCause, reports_eq_iff (hparts es rfl)]
  all_goals simp [reportEntries, reportedCause, htext, hnat, hshape]

end SameKind

/-! ### Failures -/

/-- Equal failures are of one kind and have one path. -/
theorem Failure.name_and_path_of_reported {e f : Failure} (h : e.reported.eqv f.reported = true) :
    e.cause.name = f.cause.name ∧ e.path = f.path := by
  obtain ⟨p, c⟩ := e
  obtain ⟨q, d⟩ := f
  simp only [reported, eqv, Bool.and_eq_true, decide_eq_true_eq] at h
  have hname := name_eq_of_causeEqv h.2
  rw [name_reportedCause, name_reportedCause] at hname
  exact ⟨hname, h.1⟩

/-- **Reports are equal exactly if the failures are, but for absence.** -/
theorem Failure.report_eqv (e f : Failure) :
    e.report.eqv f.report = e.reported.eqv f.reported := by
  induction e using induction_parts generalizing f with
  | parts p c ih =>
    obtain ⟨q, d⟩ := f
    by_cases h : c.name = d.name ∧ p = q
    · obtain ⟨hname, rfl⟩ := h
      simp only [report, Value.eqv, reported, eqv, decide_true, Bool.true_and, hname]
      exact eqvEntries_reportEntries hname _ _ ih
    · rw [Bool.eq_iff_iff]
      exact ⟨fun he => absurd (name_and_path_of_report he) h,
        fun he => absurd (name_and_path_of_reported he) h⟩

/-- **Reports are identical exactly if the failures are, but for absence.** -/
theorem Failure.report_eq_iff (e f : Failure) : e.report = f.report ↔ e.reported = f.reported := by
  induction e using induction_parts generalizing f with
  | parts p c ih =>
    obtain ⟨q, d⟩ := f
    by_cases h : c.name = d.name ∧ p = q
    · obtain ⟨hname, rfl⟩ := h
      simp only [report, Value.object.injEq, reported, mk.injEq, true_and, hname]
      exact reportEntries_eq_iff hname _ _ ih
    · constructor
      · intro he
        have heqv : (report ⟨p, c⟩).eqv (report ⟨q, d⟩) = true := by rw [he, Value.eqv_self]
        exact absurd (name_and_path_of_report heqv) h
      · intro he
        simp only [reported, mk.injEq] at he
        have hname := congrArg Cause.name he.2
        rw [name_reportedCause, name_reportedCause] at hname
        exact absurd ⟨hname, he.1⟩ h

/-- **The report of a failure is lossless but for absence.**  Two reports are equal values exactly if
the failures are equal once every absence that they found is replaced by `null`, and identical exactly if
the failures then are.  In particular the failures have one path, step by step, and are of one kind: a
field is never reported as a position is, and no two expected shapes have one report. -/
theorem Failure.report_lossless (e f : Failure) :
    (e.report.eqv f.report = true ↔ e.reported.eqv f.reported = true) ∧
      (e.report = f.report ↔ e.reported = f.reported) ∧
      (e.report.eqv f.report = true → e.path = f.path ∧ e.cause.name = f.cause.name) ∧
      (∀ s t : Step, s.toValue.eqv t.toValue = true ↔ s = t) ∧
      ∀ s t : Shape, s.report.eqv t.report = true ↔ s = t :=
  ⟨Bool.eq_iff_iff.mp (report_eqv e f), report_eq_iff e f,
    fun h => (name_and_path_of_report h).symm, fun _ _ => Step.eqv_toValue_iff,
    fun _ _ => Shape.eqv_report_iff⟩

/-- The field `0` and the position `0` are reported apart, absence and `null` are not. -/
example :
    let missing : Failure := ⟨[.field "0"], .valueMismatch .null none⟩
    missing.report = Failure.report ⟨[.field "0"], .valueMismatch .null (some .null)⟩ ∧
      missing.report.eqv (Failure.report ⟨[.index 0], .valueMismatch .null none⟩) = false :=
  ⟨rfl, rfl⟩

end TypedJson
