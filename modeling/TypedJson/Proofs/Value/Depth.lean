import TypedJson.Proofs.Value.Parts

/-!
# The first container beyond a depth

A scalar has depth zero; an array or object is one deeper than its deepest part (`Value.depth`).  A path
leads under as many enclosing containers as it has steps, so it is no longer than the depth of what it
starts from (`length_add_inputDepth_le`).  `Value.firstBeyond?` is the first path to a container under a
given number of others:

* `firstBeyond?_eq_none_iff`: there is none exactly if the value does not nest deeper;
* `firstBeyond?_spec`: the path found is one, and all others come later in the order of the
  document, in which elements stand by position and fields by name (`Step.Before`).
-/

namespace TypedJson

/-- Of two steps out of one container, the one to the part that stands first. -/
inductive Step.Before : Step → Step → Prop
  | index {i j : Nat} (h : i < j) : Before (.index i) (.index j)
  | field {k l : String} (h : Text.order k l = .lt) : Before (.field k) (.field l)

namespace Value

mutual

/-- How deep containers nest. -/
def depth : Value → Nat
  | array items => 1 + depthItems items
  | object entries => 1 + depthEntries entries
  | _ => 0

/-- The greatest depth of an element. -/
def depthItems : List Value → Nat
  | [] => 0
  | v :: rest => max (depth v) (depthItems rest)

/-- The greatest depth of an entry. -/
def depthEntries : List (String × Value) → Nat
  | [] => 0
  | (_, v) :: rest => max (depth v) (depthEntries rest)

end

mutual

/-- The path to the first container under exactly `limit` enclosing containers. -/
def firstBeyond? : Value → (limit : Nat) → Option (List Step)
  | array _, 0 => some []
  | object _, 0 => some []
  | array items, limit + 1 => firstBeyondItems? items limit 0
  | object entries, limit + 1 => firstBeyondEntries? entries limit
  | _, _ => none

/-- The same among the elements of an array, from `position` on. -/
def firstBeyondItems? : List Value → (limit : Nat) → (position : Nat) → Option (List Step)
  | [], _, _ => none
  | v :: rest, limit, position =>
    match firstBeyond? v limit with
    | some path => some (.index position :: path)
    | none => firstBeyondItems? rest limit (position + 1)

/-- The same among the entries of an object. -/
def firstBeyondEntries? : List (String × Value) → (limit : Nat) → Option (List Step)
  | [], _ => none
  | (name, v) :: rest, limit =>
    match firstBeyond? v limit with
    | some path => some (.field name :: path)
    | none => firstBeyondEntries? rest limit

end

/-- Whether the value is an array or an object. -/
def isContainer : Value → Bool
  | array _ => true
  | object _ => true
  | _ => false

/-- The path leads to a container that lies under exactly `levels` enclosing ones. -/
def ContainerUnder (v : Value) (levels : Nat) (path : List Step) : Prop :=
  path.length = levels ∧ ∃ c, follow? (some v) path = some (some c) ∧ c.isContainer = true

/-! ### Depth -/

theorem depthItems_le_iff (n : Nat) (items : List Value) :
    depthItems items ≤ n ↔ ∀ v ∈ items, v.depth ≤ n := by
  induction items with
  | nil => simp [depthItems]
  | cons v rest ih => rw [depthItems, Nat.max_le, List.forall_mem_cons, ih]

theorem depthEntries_le_iff (n : Nat) (entries : List (String × Value)) :
    depthEntries entries ≤ n ↔ ∀ entry ∈ entries, entry.2.depth ≤ n := by
  induction entries with
  | nil => simp [depthEntries]
  | cons entry rest ih => rw [depthEntries, Nat.max_le, List.forall_mem_cons, ih]

theorem firstBeyondItems?_eq_none_iff (limit : Nat) (items : List Value) (position : Nat) :
    firstBeyondItems? items limit position = none ↔ ∀ v ∈ items, v.firstBeyond? limit = none := by
  induction items generalizing position with
  | nil => simp [firstBeyondItems?]
  | cons v rest ih =>
    rw [firstBeyondItems?, List.forall_mem_cons]
    cases v.firstBeyond? limit with
    | some path => simp
    | none => simp [ih]

theorem firstBeyondEntries?_eq_none_iff (limit : Nat) (entries : List (String × Value)) :
    firstBeyondEntries? entries limit = none ↔
      ∀ entry ∈ entries, entry.2.firstBeyond? limit = none := by
  induction entries with
  | nil => simp [firstBeyondEntries?]
  | cons entry rest ih =>
    rw [firstBeyondEntries?, List.forall_mem_cons]
    cases entry.2.firstBeyond? limit with
    | some path => simp
    | none => simp [ih]

/-- **The search fails exactly on values that do not nest deeper than the limit.** -/
theorem firstBeyond?_eq_none_iff (v : Value) (limit : Nat) :
    v.firstBeyond? limit = none ↔ v.depth ≤ limit := by
  induction v using induction_parts generalizing limit with
  | array items ih =>
    cases limit with
    | zero => simp [firstBeyond?, depth]
    | succ limit =>
      simp only [firstBeyond?, depth, firstBeyondItems?_eq_none_iff]
      rw [Nat.add_comm, Nat.add_le_add_iff_right, depthItems_le_iff]
      exact forall₂_congr fun v hv => ih v hv limit
  | object entries ih =>
    cases limit with
    | zero => simp [firstBeyond?, depth]
    | succ limit =>
      simp only [firstBeyond?, depth, firstBeyondEntries?_eq_none_iff]
      rw [Nat.add_comm, Nat.add_le_add_iff_right, depthEntries_le_iff]
      exact forall₂_congr fun entry he => ih entry he limit
  | _ => simp [firstBeyond?, depth]

/-! ### Containers under others -/

theorem containerUnder_zero_iff {v : Value} {path : List Step} :
    v.ContainerUnder 0 path ↔ path = [] ∧ v.isContainer = true := by
  unfold ContainerUnder
  constructor
  · rintro ⟨hlen, c, hf, hc⟩
    obtain rfl := List.eq_nil_of_length_eq_zero hlen
    cases hf
    exact ⟨rfl, hc⟩
  · rintro ⟨rfl, hc⟩
    exact ⟨rfl, v, rfl, hc⟩

theorem containerUnder_succ_iff {v : Value} {levels : Nat} {path : List Step} :
    v.ContainerUnder (levels + 1) path ↔
      ∃ step w rest, path = step :: rest ∧ step? (some v) step = some (some w) ∧
        w.ContainerUnder levels rest := by
  unfold ContainerUnder
  constructor
  · rintro ⟨hlen, c, hf, hc⟩
    cases path with
    | nil => simp at hlen
    | cons step rest =>
      rw [follow?] at hf
      obtain ⟨target, hstep, hrest⟩ := Option.bind_eq_some_iff.mp hf
      cases target with
      | none =>
        -- nothing is reached from an absent target
        cases rest <;> simp [follow?, step?] at hrest
      | some w => exact ⟨step, w, rest, rfl, hstep, by simpa using hlen, c, hrest, hc⟩
  · rintro ⟨step, w, rest, rfl, hstep, hlen, c, hf, hc⟩
    refine ⟨by simp [hlen], c, ?_, hc⟩
    rw [follow?, hstep]
    exact hf

theorem step?_array_iff {items : List Value} {step : Step} {w : Value} :
    step? (some (array items)) step = some (some w) ↔
      ∃ i, step = .index i ∧ items[i]? = some w := by
  cases step <;> simp [step?]

theorem step?_object_iff {entries : List (String × Value)} {step : Step} {w : Value} :
    step? (some (object entries)) step = some (some w) ↔
      ∃ name, step = .field name ∧ lookup name entries = some w := by
  cases step <;> simp [step?]

/-- A step goes to a part that nests less deep. -/
theorem depth_lt_of_step? {v w : Value} {step : Step} (h : step? (some v) step = some (some w)) :
    w.depth < v.depth := by
  cases v with
  | array items =>
    obtain ⟨i, -, hi⟩ := step?_array_iff.mp h
    have hle : w.depth ≤ depthItems items :=
      (depthItems_le_iff _ items).mp (Nat.le_refl _) w (List.mem_of_getElem? hi)
    simp only [depth]
    omega
  | object entries =>
    obtain ⟨name, -, hl⟩ := step?_object_iff.mp h
    have hle : w.depth ≤ depthEntries entries :=
      (depthEntries_le_iff _ entries).mp (Nat.le_refl _) (name, w) (mem_of_lookup hl)
    simp only [depth]
    omega
  | _ => cases step <;> simp [step?] at h

/-- How deep containers nest in an input; where nothing is there, nothing nests. -/
def inputDepth : Option Value → Nat
  | none => 0
  | some v => v.depth

theorem inputDepth_lt_of_step? {input target : Option Value} {step : Step}
    (h : step? input step = some target) : inputDepth target < inputDepth input := by
  cases input with
  | none => cases step <;> simp [step?] at h
  | some v =>
    cases target with
    | some w => exact depth_lt_of_step? h
    | none =>
      -- only an object lacks a part that a step leads to
      cases v with
      | object entries => exact Nat.lt_add_right _ Nat.one_pos
      | _ => cases step <;> simp [step?] at h

/-- **A path is no longer than containers nest**, and what it leads to nests only as deep as is left. -/
theorem length_add_inputDepth_le : ∀ {path : List Step} {input target : Option Value},
    follow? input path = some target → path.length + inputDepth target ≤ inputDepth input
  | [], input, target, h => by
    cases h
    exact Nat.le_of_eq (Nat.zero_add _)
  | step :: path, input, target, h => by
    rw [follow?] at h
    obtain ⟨part, hstep, hpath⟩ := Option.bind_eq_some_iff.mp h
    have hlt := inputDepth_lt_of_step? hstep
    have hle := length_add_inputDepth_le hpath
    rw [List.length_cons]
    omega

theorem ContainerUnder.lt_depth : ∀ {levels : Nat} {v : Value} {path : List Step},
    v.ContainerUnder levels path → levels < v.depth
  | 0, v, path, h => by
    have hc := (containerUnder_zero_iff.mp h).2
    cases v with
    | array items => exact Nat.lt_add_right _ Nat.one_pos
    | object entries => exact Nat.lt_add_right _ Nat.one_pos
    | _ => cases hc
  | levels + 1, v, path, h => by
    obtain ⟨step, w, rest, -, hstep, hw⟩ := containerUnder_succ_iff.mp h
    have h₁ := hw.lt_depth
    have h₂ := depth_lt_of_step? hstep
    omega

/-! ### The first one -/

theorem firstBeyondItems?_eq_some {limit : Nat} {path : List Step} :
    ∀ {items : List Value} {position : Nat},
      firstBeyondItems? items limit position = some path →
      ∃ before v after rest, items = before ++ v :: after ∧
        (∀ w ∈ before, w.firstBeyond? limit = none) ∧ v.firstBeyond? limit = some rest ∧
        path = .index (position + before.length) :: rest
  | v :: items, position, h => by
    unfold firstBeyondItems? at h
    split at h
    · next rest hv =>
      cases h
      exact ⟨[], v, items, rest, rfl, by simp, hv, rfl⟩
    · next hv =>
      obtain ⟨before, w, after, rest, rfl, hbefore, hw, rfl⟩ := firstBeyondItems?_eq_some h
      refine ⟨v :: before, w, after, rest, rfl, ?_, hw, ?_⟩
      · exact List.forall_mem_cons.mpr ⟨hv, hbefore⟩
      · rw [List.length_cons, Nat.add_assoc, Nat.add_comm 1]

theorem firstBeyondEntries?_eq_some {limit : Nat} {path : List Step} :
    ∀ {entries : List (String × Value)}, firstBeyondEntries? entries limit = some path →
      ∃ before name v after rest, entries = before ++ (name, v) :: after ∧
        (∀ entry ∈ before, entry.2.firstBeyond? limit = none) ∧
        v.firstBeyond? limit = some rest ∧ path = .field name :: rest
  | (name, v) :: entries, h => by
    unfold firstBeyondEntries? at h
    split at h
    · next rest hv =>
      cases h
      exact ⟨[], name, v, entries, rest, rfl, by simp, hv, rfl⟩
    · next hv =>
      obtain ⟨before, k, w, after, rest, rfl, hbefore, hw, rfl⟩ := firstBeyondEntries?_eq_some h
      exact ⟨(name, v) :: before, k, w, after, rest, rfl,
        List.forall_mem_cons.mpr ⟨hv, hbefore⟩, hw, rfl⟩

/-- The path found leads to a container under `levels` others, and every other such path comes later in
the document. -/
def FirstUnder (v : Value) (levels : Nat) (path : List Step) : Prop :=
  v.ContainerUnder levels path ∧
    ∀ other, v.ContainerUnder levels other → other = path ∨ List.Lex Step.Before path other

/-- What comes first in a part comes first in the whole, if the parts before hold no candidate. -/
theorem FirstUnder.cons {v w : Value} {levels : Nat} {step : Step} {path : List Step}
    (hw : w.FirstUnder levels path) (hstep : step? (some v) step = some (some w))
    (hfirst : ∀ other part, step? (some v) other = some (some part) →
      levels < part.depth → other = step ∨ step.Before other) :
    v.FirstUnder (levels + 1) (step :: path) := by
  refine ⟨containerUnder_succ_iff.mpr ⟨step, w, path, rfl, hstep, hw.1⟩, fun other ho => ?_⟩
  obtain ⟨step', part, rest, rfl, hpart, hrest⟩ := containerUnder_succ_iff.mp ho
  rcases hfirst step' part hpart hrest.lt_depth with rfl | hlt
  · obtain rfl : w = part := by
      rw [hstep] at hpart
      simpa using hpart
    rcases hw.2 rest hrest with rfl | hlex
    · exact Or.inl rfl
    · exact Or.inr (.cons hlex)
  · exact Or.inr (.rel hlt)

/-- **The search finds the first container under exactly `limit` others.** -/
theorem firstBeyond?_spec (v : Value) (hw : v.WellFormed) {limit : Nat} {path : List Step}
    (h : v.firstBeyond? limit = some path) : v.FirstUnder limit path := by
  induction v using induction_parts generalizing limit path with
  | array items ih =>
    cases limit with
    | zero =>
      cases h
      exact ⟨containerUnder_zero_iff.mpr ⟨rfl, rfl⟩,
        fun other ho => Or.inl (containerUnder_zero_iff.mp ho).1⟩
    | succ limit =>
      obtain ⟨before, v, after, rest, rfl, hbefore, hv, rfl⟩ := firstBeyondItems?_eq_some h
      rw [Nat.zero_add]
      refine (ih v (by simp) (hw.item (by simp)) hv).cons (step?_index_append before v after) ?_
      intro other part hpart hdepth
      obtain ⟨i, rfl, hi⟩ := step?_array_iff.mp hpart
      rcases Nat.lt_trichotomy i before.length with hlt | rfl | hgt
      · -- the parts before are not deep enough
        rw [List.getElem?_append_left hlt] at hi
        have hnone := hbefore part (List.mem_of_getElem? hi)
        have := (firstBeyond?_eq_none_iff part limit).mp hnone
        omega
      · exact Or.inl rfl
      · exact Or.inr (.index hgt)
  | object entries ih =>
    cases limit with
    | zero =>
      cases h
      exact ⟨containerUnder_zero_iff.mpr ⟨rfl, rfl⟩,
        fun other ho => Or.inl (containerUnder_zero_iff.mp ho).1⟩
    | succ limit =>
      obtain ⟨before, name, v, after, rest, rfl, hbefore, hv, rfl⟩ := firstBeyondEntries?_eq_some h
      have hmem : (name, v) ∈ before ++ (name, v) :: after := by simp
      have hstep : step? (some (object (before ++ (name, v) :: after))) (.field name) =
          some (some v) := by
        rw [step?, hw.lookup_of_mem hmem]
      refine (ih _ hmem (hw.entry hmem) hv).cons hstep ?_
      intro other part hpart hdepth
      obtain ⟨k, rfl, hk⟩ := step?_object_iff.mp hpart
      rcases List.mem_append.mp (mem_of_lookup hk) with hin | hin
      · have := (firstBeyond?_eq_none_iff part limit).mp (hbefore _ hin)
        omega
      · have hsorted := (List.pairwise_append.mp hw.sorted).2.1
        rcases List.mem_cons.mp hin with he | hin
        · cases he
          exact Or.inl rfl
        · exact Or.inr (.field ((List.pairwise_cons.mp hsorted).1 _ hin))
  | _ => cases limit <;> cases h

end Value

end TypedJson
