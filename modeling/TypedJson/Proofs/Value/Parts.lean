import TypedJson.Value.Path
import TypedJson.Value.Equality
import TypedJson.Proofs.Entries

/-!
# The parts of a value

What holds of a container whenever it holds of its parts holds of every value (`induction_parts`).  The
elements of a well-formed array and the entries of a well-formed object are well formed, and an
entry is what a step into its field reaches.  Equality of values is reflexive and symmetric (`eqv_self`,
`eqv_comm`); equal containers correspond part by part (`eqvItems_iff`, `eqvEntries_iff`), and equal values
are equal to the same values (`eqv_congr_left`).
-/

namespace TypedJson

theorem Number.eqv_comm (a b : Number) : a.eqv b = b.eqv a := by
  cases a <;> cases b <;> simp only [eqv, Binary64.eqv, eq_comm]

theorem Number.eqv_congr_left {a b : Number} (h : a.eqv b = true) (c : Number) :
    a.eqv c = b.eqv c := by
  cases a <;> cases b <;> simp only [eqv, Binary64.eqv, decide_eq_true_eq, Bool.false_eq_true] at h <;>
    cases c <;> simp only [eqv, Binary64.eqv, h]

namespace Value

/-- Induction on values, where a container may use what holds of each of its parts. -/
theorem induction_parts {P : Value → Prop} (null : P null) (bool : ∀ b, P (bool b))
    (number : ∀ n, P (number n)) (string : ∀ s, P (string s))
    (array : ∀ items, (∀ v ∈ items, P v) → P (array items))
    (object : ∀ entries, (∀ entry ∈ entries, P entry.2) → P (object entries)) (v : Value) : P v := by
  refine @Value.rec P (fun items => ∀ v ∈ items, P v) (fun entries => ∀ entry ∈ entries, P entry.2)
    (fun entry => P entry.2) null bool number string array object ?_ ?_ ?_ ?_ ?_ v
  · simp
  · exact fun v rest hv hrest w hw => (List.mem_cons.mp hw).elim (fun h => h ▸ hv) (hrest w)
  · simp
  · exact fun e rest he hrest f hf => (List.mem_cons.mp hf).elim (fun h => h ▸ he) (hrest f)
  · exact fun _ _ h => h

/-- An absent input, or a well-formed value. -/
def WellFormedInput : Option Value → Prop
  | none => True
  | some v => v.WellFormed

theorem wellFormedItems_iff (items : List Value) :
    WellFormedItems items ↔ ∀ v ∈ items, v.WellFormed := by
  induction items with
  | nil => simp [WellFormedItems]
  | cons v rest ih => simp [WellFormedItems, ih]

theorem wellFormedEntries_iff (entries : List (String × Value)) :
    WellFormedEntries entries ↔ ∀ entry ∈ entries, entry.2.WellFormed := by
  induction entries with
  | nil => simp [WellFormedEntries]
  | cons entry rest ih => simp [WellFormedEntries, ih]

variable {items : List Value} {entries : List (String × Value)} {name : String} {v : Value}

theorem WellFormed.item (h : (array items).WellFormed) (hv : v ∈ items) : v.WellFormed :=
  (wellFormedItems_iff items).mp (by simpa only [WellFormed] using h) v hv

theorem WellFormed.sorted (h : (object entries).WellFormed) : Entries.Sorted Text.order entries := by
  simp only [WellFormed] at h
  exact h.1

theorem WellFormed.entry (h : (object entries).WellFormed) {entry : String × Value}
    (he : entry ∈ entries) : entry.2.WellFormed := by
  simp only [WellFormed] at h
  exact (wellFormedEntries_iff entries).mp h.2 entry he

/-- An entry is what its name leads to. -/
theorem WellFormed.lookup_of_mem (h : (object entries).WellFormed) (he : (name, v) ∈ entries) :
    lookup name entries = some v :=
  Entries.find?_of_mem h.sorted he

theorem mem_of_lookup (h : lookup name entries = some v) : (name, v) ∈ entries := by
  obtain ⟨k, hk, he⟩ := Entries.mem_of_find? h
  rwa [Text.order_eq_iff.mp he]

/-- A name is there exactly if it leads to a value. -/
theorem mem_names_iff : name ∈ entries.map Prod.fst ↔ ∃ v, lookup name entries = some v := by
  rw [← Option.isSome_iff_exists]
  exact Entries.mem_keys_iff

/-- Entries have the same names if a look-up in the one hits whenever it hits in the other. -/
theorem same_names_iff {es fs : List (String × Value)} :
    (∀ name, (lookup name es).isSome = (lookup name fs).isSome) ↔
      ∀ name, name ∈ es.map Prod.fst ↔ name ∈ fs.map Prod.fst := by
  refine forall_congr' fun name => ?_
  rw [mem_names_iff, mem_names_iff, ← Option.isSome_iff_exists, ← Option.isSome_iff_exists,
    Bool.eq_iff_iff]

theorem WellFormed.lookup (h : (object entries).WellFormed) (name : String) :
    WellFormedInput (Value.lookup name entries) := by
  cases hl : Value.lookup name entries with
  | none => trivial
  | some v => exact h.entry (mem_of_lookup hl)

theorem step?_index_append (before : List Value) (v : Value) (after : List Value) :
    step? (some (array (before ++ v :: after))) (.index before.length) = some (some v) := by
  simp [step?]

theorem eqvItems_self {items : List Value} (h : ∀ v ∈ items, v.eqv v = true) :
    eqvItems items items = true := by
  induction items with
  | nil => simp [eqvItems]
  | cons v rest ih =>
    obtain ⟨hv, hrest⟩ := List.forall_mem_cons.mp h
    simp [eqvItems, hv, ih hrest]

theorem eqvEntries_self {entries : List (String × Value)} (h : ∀ e ∈ entries, e.2.eqv e.2 = true) :
    eqvEntries entries entries = true := by
  induction entries with
  | nil => simp [eqvEntries]
  | cons entry rest ih =>
    obtain ⟨hv, hrest⟩ := List.forall_mem_cons.mp h
    simp [eqvEntries, hv, ih hrest]

theorem eqv_self (v : Value) : v.eqv v = true := by
  induction v using induction_parts with
  | number n => cases n <;> simp [eqv, Number.eqv, Binary64.eqv_refl]
  | array items ih => simp only [eqv, eqvItems_self ih]
  | object entries ih => simp only [eqv, eqvEntries_self ih]
  | _ => simp [eqv]

theorem eqvItems_comm {vs : List Value} (h : ∀ v ∈ vs, ∀ w : Value, v.eqv w = w.eqv v)
    (ws : List Value) : eqvItems vs ws = eqvItems ws vs := by
  induction vs generalizing ws with
  | nil => cases ws <;> simp only [eqvItems]
  | cons v vs ih =>
    obtain ⟨hv, hvs⟩ := List.forall_mem_cons.mp h
    cases ws with
    | nil => simp only [eqvItems]
    | cons w ws => simp only [eqvItems, hv w, ih hvs ws]

theorem eqvEntries_comm {es : List (String × Value)}
    (h : ∀ e ∈ es, ∀ w : Value, e.2.eqv w = w.eqv e.2) (fs : List (String × Value)) :
    eqvEntries es fs = eqvEntries fs es := by
  induction es generalizing fs with
  | nil => cases fs <;> simp only [eqvEntries]
  | cons e es ih =>
    obtain ⟨name, v⟩ := e
    obtain ⟨hv, hes⟩ := List.forall_mem_cons.mp h
    rcases fs with _ | ⟨⟨other, w⟩, fs⟩
    · simp only [eqvEntries]
    · simp only [eqvEntries, hv w, ih hes fs, BEq.comm (a := name)]

theorem eqv_comm (v w : Value) : v.eqv w = w.eqv v := by
  induction v using induction_parts generalizing w with
  | null => cases w <;> simp only [eqv]
  | bool b => cases w <;> simp only [eqv, BEq.comm (a := b)]
  | number n => cases w <;> simp only [eqv, Number.eqv_comm n]
  | string s => cases w <;> simp only [eqv, BEq.comm (a := s)]
  | array items ih => cases w <;> simp only [eqv, eqvItems_comm ih]
  | object entries ih => cases w <;> simp only [eqv, eqvEntries_comm ih]

/-- Lists are equal if their elements correspond. -/
theorem eqvItems_iff {vs ws : List Value} :
    eqvItems vs ws = true ↔ List.Forall₂ (fun v w => v.eqv w = true) vs ws := by
  induction vs generalizing ws with
  | nil => cases ws <;> simp [eqvItems]
  | cons v vs ih => cases ws <;> simp [eqvItems, ih]

/-- Entries are equal if they correspond, names to the same names. -/
theorem eqvEntries_iff {es fs : List (String × Value)} :
    eqvEntries es fs = true ↔ Entries.Related Eq (fun v w => v.eqv w = true) es fs := by
  unfold Entries.Related
  induction es generalizing fs with
  | nil => cases fs <;> simp [eqvEntries]
  | cons e es ih => cases fs <;> simp [eqvEntries, ih]

theorem eqvItems_congr_left {vs ws : List Value}
    (h : ∀ v ∈ vs, ∀ w : Value, v.eqv w = true → ∀ u : Value, v.eqv u = w.eqv u)
    (heq : eqvItems vs ws = true) (us : List Value) : eqvItems vs us = eqvItems ws us := by
  rw [eqvItems_iff] at heq
  induction heq generalizing us with
  | nil => rfl
  | @cons v w vs ws hvw _ ih =>
    obtain ⟨hv, hvs⟩ := List.forall_mem_cons.mp h
    cases us <;> simp only [eqvItems, hv w hvw, ih hvs]

theorem eqvEntries_congr_left {es fs : List (String × Value)}
    (h : ∀ e ∈ es, ∀ w : Value, e.2.eqv w = true → ∀ u : Value, e.2.eqv u = w.eqv u)
    (heq : eqvEntries es fs = true) (gs : List (String × Value)) :
    eqvEntries es gs = eqvEntries fs gs := by
  rw [eqvEntries_iff] at heq
  induction heq generalizing gs with
  | nil => rfl
  | @cons e f es fs hef _ ih =>
    obtain ⟨he, hes⟩ := List.forall_mem_cons.mp h
    cases gs <;> simp only [eqvEntries, hef.1, he f.2 hef.2, ih hes]

/-- Equal values are equal to the same values. -/
theorem eqv_congr_left {v w : Value} (h : v.eqv w = true) (u : Value) : v.eqv u = w.eqv u := by
  induction v using induction_parts generalizing w u with
  | null =>
    cases w <;> simp only [eqv, Bool.false_eq_true] at h
    rfl
  | bool | string =>
    cases w <;> simp only [eqv, Bool.false_eq_true, beq_iff_eq] at h
    rw [h]
  | number n =>
    cases w <;> simp only [eqv, Bool.false_eq_true] at h
    cases u <;> simp only [eqv, Number.eqv_congr_left h]
  | array items ih =>
    cases w <;> simp only [eqv, Bool.false_eq_true] at h
    cases u <;> simp only [eqv, eqvItems_congr_left (fun v hv w hvw u => ih v hv hvw u) h]
  | object entries ih =>
    cases w <;> simp only [eqv, Bool.false_eq_true] at h
    cases u <;> simp only [eqv, eqvEntries_congr_left (fun e he w hvw u => ih e he hvw u) h]

end Value

end TypedJson
