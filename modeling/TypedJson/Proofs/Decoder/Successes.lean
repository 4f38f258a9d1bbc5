import TypedJson.Proofs.Decoder.Faults

/-!
# When decoders succeed

For each decoder, exactly when it succeeds and with which output.  A primitive succeeds on one kind of
input.  Of a container every part must succeed (`Decodes` relates the parts to their outputs), and of a
set or map no part may be a duplicate.

* `array_eq_ok_iff`, `dict_eq_ok_iff`, `struct_eq_ok_iff`: the outputs of the parts in their order;
* `set_eq_ok_iff`: the same, and no output equals an earlier one (`Distinct`);
* `mapping_eq_ok_iff`: no key equals an earlier one (`Entries.Apart`), and the output is the pairs as
  entries, which the run holds together with their positions (`placed`);
* `record_eq_ok_iff`: the outputs of the fields as entries, where of a name declared twice the later
  output stays.
-/

namespace TypedJson.Decoder

variable {α β κ : Type} {input : Option Value}

/-- The decoder turns the value into the output. -/
def Decodes (d : Decoder α) (v : Value) (x : α) : Prop := d (some v) = .ok x

/-! ### Single values -/

theorem string_eq_ok_iff {text : String} :
    string input = .ok text ↔ input = some (.string text) := by
  rcases input with _ | _ | _ | _ | _ | _ | _ <;> simp [string]

theorem number_eq_ok_iff {x : Binary64} :
    number input = .ok x ↔ ∃ n, input = some (.number n) ∧ x = n.toBinary64 := by
  rcases input with _ | _ | _ | _ | _ | _ | _ <;> simp [number, eq_comm]

theorem boolean_eq_ok_iff {b : Bool} : boolean input = .ok b ↔ input = some (.bool b) := by
  rcases input with _ | _ | _ | _ | _ | _ | _ <;> simp [boolean]

theorem absent_eq_ok_iff {u : Unit} : absent input = .ok u ↔ input = none := by
  cases input <;> simp [absent]

theorem null_eq_ok_iff {u : Unit} : null input = .ok u ↔ input = some .null := by
  rcases input with _ | _ | _ | _ | _ | _ | _ <;> simp [null]

/-- A literal has one output. -/
theorem eq_of_literal {output x : α} {expected : Value} (h : literal output expected input = .ok x) :
    x = output := by
  unfold literal at h
  split at h
  · split at h
    · exact (Except.ok.inj h).symm
    · cases h
  · cases h

/-! ### Arrays -/

theorem arrayFrom_eq_ok_iff_forall₂ {d : Decoder α} {position : Nat} {items : List Value}
    {outputs : List α} :
    arrayFrom d position items = .ok outputs ↔ List.Forall₂ d.Decodes items outputs := by
  rw [arrayFrom_eq_ok_iff, ← List.forall₂_eq_eq_eq, List.forall₂_map_left_iff,
    List.forall₂_map_right_iff]
  rfl

theorem array_eq_ok_iff {d : Decoder α} {outputs : List α} :
    array d input = .ok outputs ↔
      ∃ items, input = some (.array items) ∧ List.Forall₂ d.Decodes items outputs := by
  simp only [array, bind_eq_ok_iff, expectArray_eq_ok_iff, arrayFrom_eq_ok_iff_forall₂]

/-- **No output equals an earlier one.** -/
def Distinct (same : α → α → Bool) (outputs : List α) : Prop :=
  outputs.Pairwise fun earlier later => same earlier later = false

theorem distinct_append_singleton {same : α → α → Bool} {seen : List α} {x : α} :
    Distinct same (seen ++ [x]) ↔ Distinct same seen ∧ seen.findIdx? (same · x) = none := by
  simp [Distinct, List.pairwise_append, List.findIdx?_eq_none_iff]

theorem setFrom_cons_eq_ok_iff {same : α → α → Bool} {d : Decoder α} {seen outputs : List α}
    {position : Nat} {v : Value} {rest : List Value} :
    setFrom same d seen position (v :: rest) = .ok outputs ↔
      ∃ x, d.Decodes v x ∧ seen.findIdx? (same · x) = none ∧
        setFrom same d (seen ++ [x]) (position + 1) rest = .ok outputs := by
  rw [setFrom, bind_eq_ok_iff]
  refine exists_congr fun x => and_congr under_eq_ok_iff ?_
  cases seen.findIdx? (same · x) <;> simp

theorem setFrom_eq_ok_iff {same : α → α → Bool} {d : Decoder α} {seen outputs : List α}
    (hseen : Distinct same seen) {position : Nat} {items : List Value} :
    setFrom same d seen position items = .ok outputs ↔
      ∃ xs, List.Forall₂ d.Decodes items xs ∧ outputs = seen ++ xs ∧ Distinct same outputs := by
  induction items generalizing seen position with
  | nil =>
    simp only [setFrom, List.forall₂_nil_left_iff, exists_eq_left, List.append_nil, Except.ok.injEq]
    exact ⟨fun h => ⟨h.symm, h ▸ hseen⟩, fun h => h.1.symm⟩
  | cons v rest ih =>
    rw [setFrom_cons_eq_ok_iff]
    constructor
    · rintro ⟨x, hv, hnew, hrest⟩
      have hx : Distinct same (seen ++ [x]) := distinct_append_singleton.mpr ⟨hseen, hnew⟩
      obtain ⟨xs, hxs, hout, hdistinct⟩ := (ih hx).mp hrest
      exact ⟨x :: xs, .cons hv hxs, by rw [hout, List.append_assoc, List.singleton_append], hdistinct⟩
    · rintro ⟨_, hxs, hout, hdistinct⟩
      obtain ⟨x, xs, hv, hrest, rfl⟩ := List.forall₂_cons_left_iff.mp hxs
      have hout' : outputs = (seen ++ [x]) ++ xs := by
        rw [hout, List.append_assoc, List.singleton_append]
      have hx : Distinct same (seen ++ [x]) := (List.pairwise_append.mp (hout' ▸ hdistinct)).1
      exact ⟨x, hv, (distinct_append_singleton.mp hx).2, (ih hx).mpr ⟨xs, hrest, hout', hdistinct⟩⟩

theorem set_eq_ok_iff {same : α → α → Bool} {d : Decoder α} {outputs : List α} :
    set same d input = .ok outputs ↔
      ∃ items, input = some (.array items) ∧ List.Forall₂ d.Decodes items outputs ∧
        Distinct same outputs := by
  simp only [set, bind_eq_ok_iff, expectArray_eq_ok_iff, setFrom_eq_ok_iff .nil, List.nil_append]
  refine exists_congr fun items => and_congr_right fun _ => ?_
  constructor
  · rintro ⟨xs, hxs, rfl, h⟩
    exact ⟨hxs, h⟩
  · rintro ⟨hxs, h⟩
    exact ⟨outputs, hxs, rfl, h⟩

theorem tuple_eq_ok_iff {first : Decoder α} {second : Decoder β} {p : α × β} :
    tuple first second input = .ok p ↔
      ∃ v w, input = some (.array [v, w]) ∧ first.Decodes v p.1 ∧ second.Decodes w p.2 := by
  constructor
  · intro h
    unfold tuple at h
    split at h
    · next v w =>
      obtain ⟨x, hx, h⟩ := bind_eq_ok_iff.mp h
      obtain ⟨y, hy, h⟩ := bind_eq_ok_iff.mp h
      cases h
      exact ⟨v, w, rfl, under_eq_ok_iff.mp hx, under_eq_ok_iff.mp hy⟩
    · cases h
  · rintro ⟨v, w, rfl, hv, hw⟩
    refine bind_eq_ok_iff.mpr ⟨p.1, under_eq_ok_iff.mpr hv, ?_⟩
    exact bind_eq_ok_iff.mpr ⟨p.2, under_eq_ok_iff.mpr hw, rfl⟩

theorem mapFrom_cons_eq_ok_iff {order : κ → κ → Ordering} {entry : Decoder (κ × α)}
    {seen entries : List (κ × Nat × α)} {position : Nat} {v : Value} {rest : List Value} :
    mapFrom order entry seen position (v :: rest) = .ok entries ↔
      ∃ p, entry.Decodes v p ∧ Entries.find? order p.1 seen = none ∧
        mapFrom order entry (Entries.insert order p.1 (position, p.2) seen) (position + 1) rest =
          .ok entries := by
  rw [mapFrom, bind_eq_ok_iff]
  refine exists_congr fun p => and_congr under_eq_ok_iff ?_
  cases hf : Entries.find? order p.1 seen <;> simp [hf]

/-- The run over pairs succeeds if their keys are different from each other and from those seen, and
then it has inserted them one after the other. -/
theorem mapFrom_eq_ok_iff {order : κ → κ → Ordering} [Std.TransCmp order] {entry : Decoder (κ × α)}
    {seen entries : List (κ × Nat × α)} {position : Nat} {items : List Value} :
    mapFrom order entry seen position items = .ok entries ↔
      ∃ pairs, List.Forall₂ entry.Decodes items pairs ∧ Entries.Apart order pairs ∧
        (∀ p ∈ pairs, Entries.find? order p.1 seen = none) ∧
        entries = ((pairs.zipIdx position).map fun p => (p.1.1, p.2, p.1.2)).foldl
          (fun es p => Entries.insert order p.1 p.2 es) seen := by
  induction items generalizing seen position with
  | nil =>
    simp only [mapFrom, List.forall₂_nil_left_iff, exists_eq_left, Except.ok.injEq]
    exact ⟨fun h => ⟨.nil, by simp, h.symm⟩, fun h => h.2.2.symm⟩
  | cons v rest ih =>
    rw [mapFrom_cons_eq_ok_iff]
    constructor
    · rintro ⟨p, hv, hnew, hrest⟩
      obtain ⟨pairs, hpairs, hapart, hothers, rfl⟩ := ih.mp hrest
      have hp : ∀ q ∈ pairs, order q.1 p.1 ≠ .eq ∧ Entries.find? order q.1 seen = none := by
        intro q hq
        have hfind := hothers q hq
        rw [Entries.find?_insert] at hfind
        split at hfind
        · cases hfind
        · next hne => exact ⟨hne, hfind⟩
      exact ⟨p :: pairs, .cons hv hpairs, .cons (fun q hq => (hp q hq).1) hapart,
        List.forall_mem_cons.mpr ⟨hnew, fun q hq => (hp q hq).2⟩, rfl⟩
    · rintro ⟨_, hpairs, hapart, hnew, rfl⟩
      obtain ⟨p, pairs, hv, hrest, rfl⟩ := List.forall₂_cons_left_iff.mp hpairs
      obtain ⟨hp, hapart⟩ := List.pairwise_cons.mp hapart
      obtain ⟨hfirst, hothers⟩ := List.forall_mem_cons.mp hnew
      refine ⟨p, hv, hfirst, ih.mpr ⟨pairs, hrest, hapart, fun q hq => ?_, rfl⟩⟩
      rw [Entries.find?_insert, if_neg (hp q hq)]
      exact hothers q hq

/-- Pairs as entries, each with its position among the pairs. -/
def placed (order : κ → κ → Ordering) (pairs : List (κ × α)) : List (κ × Nat × α) :=
  Entries.ofList order ((pairs.zipIdx 0).map fun p => (p.1.1, p.2, p.1.2))

/-- A whole run over pairs has placed them. -/
theorem mapFrom_nil_eq_ok_iff {order : κ → κ → Ordering} [Std.TransCmp order]
    {entry : Decoder (κ × α)} {entries : List (κ × Nat × α)} {items : List Value} :
    mapFrom order entry [] 0 items = .ok entries ↔
      ∃ pairs, List.Forall₂ entry.Decodes items pairs ∧ Entries.Apart order pairs ∧
        entries = placed order pairs := by
  rw [mapFrom_eq_ok_iff]
  refine exists_congr fun pairs => and_congr_right fun _ => and_congr_right fun _ => ?_
  exact and_iff_right fun _ _ => rfl

/-- Without the positions the entries are those of the pairs. -/
theorem map_placed {order : κ → κ → Ordering} (pairs : List (κ × α)) :
    (placed order pairs).map (fun e => (e.1, e.2.2)) = Entries.ofList order pairs := by
  have hpairs : ((pairs.zipIdx 0).map fun p => (p.1.1, p.2, p.1.2)).map (fun e => (e.1, e.2.2)) =
      pairs := by
    rw [List.map_map]
    exact List.zipIdx_map_fst 0 pairs
  rw [placed, Entries.map_ofList, hpairs]

/-- What is found among them is the pair at the position found. -/
theorem getElem?_of_find?_placed {order : κ → κ → Ordering} [Std.TransCmp order]
    {pairs : List (κ × α)} {key : κ} {first : Nat} {x : α}
    (h : Entries.find? order key (placed order pairs) = some (first, x)) :
    ∃ k, pairs[first]? = some (k, x) ∧ order key k = .eq := by
  rw [placed, Entries.find?_ofList] at h
  obtain ⟨k, hmem, hk⟩ := Entries.mem_of_find? h
  obtain ⟨⟨pair, position⟩, hpair, heq⟩ := List.mem_map.mp (List.mem_reverse.mp hmem)
  cases heq
  exact ⟨pair.1, List.mk_mem_zipIdx_iff_getElem?.mp hpair, hk⟩

/-- Every pair is found under its key, or another one whose key is equal. -/
theorem exists_find?_placed {order : κ → κ → Ordering} [Std.TransCmp order]
    {pairs : List (κ × α)} {key : κ} {pair : κ × α} (hpair : pair ∈ pairs)
    (hkey : order key pair.1 = .eq) :
    ∃ first x, Entries.find? order key (placed order pairs) = some (first, x) := by
  obtain ⟨i, hi⟩ := List.mem_iff_getElem?.mp hpair
  have hmem : (pair.1, i, pair.2) ∈
      ((pairs.zipIdx 0).map fun p => (p.1.1, p.2, p.1.2)).reverse :=
    List.mem_reverse.mpr (List.mem_map_of_mem (List.mk_mem_zipIdx_iff_getElem?.mpr hi))
  have hsome : Entries.find? order key (placed order pairs) ≠ none := by
    rw [placed, Entries.find?_ofList, ne_eq, Entries.find?_eq_none_iff]
    exact fun hnone => hnone _ hmem hkey
  obtain ⟨⟨first, x⟩, hfound⟩ := Option.ne_none_iff_exists'.mp hsome
  exact ⟨first, x, hfound⟩

theorem mapping_eq_ok_iff {order : κ → κ → Ordering} [Std.TransCmp order] {key : Decoder κ}
    {value : Decoder α} {entries : List (κ × α)} :
    mapping order key value input = .ok entries ↔
      ∃ items, input = some (.array items) ∧ ∃ pairs,
        List.Forall₂ (tuple key value).Decodes items pairs ∧ Entries.Apart order pairs ∧
        entries = Entries.ofList order pairs := by
  simp only [mapping, bind_eq_ok_iff, expectArray_eq_ok_iff, mapFrom_nil_eq_ok_iff, Except.ok.injEq]
  refine exists_congr fun items => and_congr_right fun _ => ?_
  constructor
  · rintro ⟨_, ⟨pairs, hpairs, hapart, rfl⟩, rfl⟩
    exact ⟨pairs, hpairs, hapart, map_placed pairs⟩
  · rintro ⟨pairs, hpairs, hapart, rfl⟩
    exact ⟨_, ⟨pairs, hpairs, hapart, rfl⟩, map_placed pairs⟩

/-! ### Objects -/

theorem field_eq_ok_iff {entries : List (String × Value)} {name : String} {d : Decoder α} {x : α} :
    field entries name d = .ok x ↔ d (Value.lookup name entries) = .ok x := by
  cases hl : Value.lookup name entries with
  | some v => rw [field_of_lookup_some hl, under_eq_ok_iff]
  | none =>
    rw [field_of_lookup_none hl]
    cases d none <;> simp

theorem recordFrom_eq_ok_iff {entries : List (String × Value)} {decoded outputs : List (String × α)}
    {fields : List (String × Decoder α)} :
    recordFrom entries decoded fields = .ok outputs ↔
      ∃ named : List (String × α),
        List.Forall₂ (fun f e => f.1 = e.1 ∧ f.2 (Value.lookup f.1 entries) = .ok e.2) fields named ∧
        outputs = named.foldl (fun es e => Entries.insert Text.order e.1 e.2 es) decoded := by
  induction fields generalizing decoded with
  | nil =>
    simp only [recordFrom, List.forall₂_nil_left_iff, exists_eq_left, Except.ok.injEq]
    exact eq_comm
  | cons f rest ih =>
    rw [recordFrom, bind_eq_ok_iff]
    constructor
    · rintro ⟨x, hx, hrest⟩
      obtain ⟨named, hnamed, rfl⟩ := ih.mp hrest
      exact ⟨(f.1, x) :: named, .cons ⟨rfl, field_eq_ok_iff.mp hx⟩ hnamed, rfl⟩
    · rintro ⟨_, hnamed, rfl⟩
      obtain ⟨⟨_, x⟩, named, ⟨rfl, hx⟩, hrest, rfl⟩ := List.forall₂_cons_left_iff.mp hnamed
      exact ⟨x, field_eq_ok_iff.mpr hx, ih.mpr ⟨named, hrest, rfl⟩⟩

/-- The run over fields succeeds if every field does. -/
theorem recordFrom_succeeds_iff {entries : List (String × Value)} {decoded : List (String × α)}
    {fields : List (String × Decoder α)} :
    (∃ outputs, recordFrom entries decoded fields = .ok outputs) ↔
      ∀ f ∈ fields, ∃ x, f.2 (Value.lookup f.1 entries) = .ok x := by
  induction fields generalizing decoded with
  | nil => simp [recordFrom]
  | cons f rest ih =>
    simp only [recordFrom, bind_eq_ok_iff, field_eq_ok_iff, List.forall_mem_cons]
    constructor
    · rintro ⟨outputs, x, hx, hrest⟩
      exact ⟨⟨x, hx⟩, ih.mp ⟨outputs, hrest⟩⟩
    · rintro ⟨⟨x, hx⟩, hrest⟩
      obtain ⟨outputs, houtputs⟩ := ih.mpr hrest
      exact ⟨outputs, x, hx, houtputs⟩

theorem record_eq_ok_iff {fields : List (String × Decoder α)} {outputs : List (String × α)} :
    record fields input = .ok outputs ↔
      ∃ entries, input = some (.object entries) ∧ ∃ named : List (String × α),
        List.Forall₂ (fun f e => f.1 = e.1 ∧ f.2 (Value.lookup f.1 entries) = .ok e.2) fields named ∧
        outputs = Entries.ofList Text.order named := by
  simp only [record, bind_eq_ok_iff, expectObject_eq_ok_iff, recordFrom_eq_ok_iff]
  rfl

theorem structFrom_eq_ok_iff {entries : List (String × Value)}
    {fields : List (FieldName × Decoder α)} {outputs : List (String × α)} :
    structFrom entries fields = .ok outputs ↔
      List.Forall₂ (fun f e => f.1.ident = e.1 ∧ f.2 (Value.lookup f.1.key entries) = .ok e.2)
        fields outputs := by
  induction fields generalizing outputs with
  | nil => simp [structFrom, eq_comm]
  | cons f rest ih =>
    simp only [structFrom, bind_eq_ok_iff, field_eq_ok_iff, ih, Except.ok.injEq,
      List.forall₂_cons_left_iff]
    constructor
    · rintro ⟨x, hx, xs, hxs, rfl⟩
      exact ⟨_, xs, ⟨rfl, hx⟩, hxs, rfl⟩
    · rintro ⟨⟨_, x⟩, xs, ⟨rfl, hx⟩, hxs, rfl⟩
      exact ⟨x, hx, xs, hxs, rfl⟩

theorem structFrom_succeeds_iff {entries : List (String × Value)}
    {fields : List (FieldName × Decoder α)} :
    (∃ outputs, structFrom entries fields = .ok outputs) ↔
      ∀ f ∈ fields, ∃ x, f.2 (Value.lookup f.1.key entries) = .ok x := by
  induction fields with
  | nil => simp [structFrom]
  | cons f rest ih =>
    simp only [structFrom, bind_eq_ok_iff, field_eq_ok_iff, List.forall_mem_cons, Except.ok.injEq]
    constructor
    · rintro ⟨_, x, hx, outputs, hrest, -⟩
      exact ⟨⟨x, hx⟩, ih.mp ⟨outputs, hrest⟩⟩
    · rintro ⟨⟨x, hx⟩, hrest⟩
      obtain ⟨outputs, houtputs⟩ := ih.mpr hrest
      exact ⟨_, x, hx, outputs, houtputs, rfl⟩

theorem struct_eq_ok_iff {fields : List (FieldName × Decoder α)} {outputs : List (String × α)} :
    struct fields input = .ok outputs ↔
      ∃ entries, input = some (.object entries) ∧
        List.Forall₂ (fun f e => f.1.ident = e.1 ∧ f.2 (Value.lookup f.1.key entries) = .ok e.2)
          fields outputs := by
  simp only [struct, bind_eq_ok_iff, expectObject_eq_ok_iff, structFrom_eq_ok_iff]

theorem dictFrom_eq_ok_iff {d : Decoder α} {entries : List (String × Value)}
    {outputs : List (String × α)} :
    dictFrom d entries = .ok outputs ↔ Entries.Related Eq d.Decodes entries outputs := by
  induction entries generalizing outputs with
  | nil => simp [dictFrom, Entries.Related, eq_comm]
  | cons entry rest ih =>
    simp only [dictFrom, bind_eq_ok_iff, under_eq_ok_iff, ih, Except.ok.injEq, Entries.Related,
      List.forall₂_cons_left_iff]
    constructor
    · rintro ⟨x, hx, xs, hxs, rfl⟩
      exact ⟨(entry.1, x), xs, ⟨rfl, hx⟩, hxs, rfl⟩
    · rintro ⟨⟨_, x⟩, xs, ⟨rfl, hx⟩, hxs, rfl⟩
      exact ⟨x, hx, xs, hxs, rfl⟩

theorem dict_eq_ok_iff {d : Decoder α} {outputs : List (String × α)} :
    dict d input = .ok outputs ↔
      ∃ entries, input = some (.object entries) ∧ Entries.Related Eq d.Decodes entries outputs := by
  simp only [dict, bind_eq_ok_iff, expectObject_eq_ok_iff, dictFrom_eq_ok_iff]

/-! ### Choices -/

theorem exists_mem_of_union {alternatives : List (Decoder α)} {x : α}
    (h : union alternatives input = .ok x) : ∃ d ∈ alternatives, d input = .ok x := by
  rw [union_eq_ok_iff] at h
  induction alternatives with
  | nil => cases h
  | cons d rest ih =>
    rcases firstSuccess_cons_eq_ok_iff.mp h with hd | ⟨-, hrest⟩
    · exact ⟨d, List.mem_cons_self, hd⟩
    · obtain ⟨d', hmem, hd'⟩ := ih hrest
      exact ⟨d', List.mem_cons_of_mem _ hmem, hd'⟩

/-- A union succeeds if one of its alternatives does. -/
theorem union_succeeds_iff {alternatives : List (Decoder α)} :
    (∃ x, union alternatives input = .ok x) ↔ ∃ d ∈ alternatives, ∃ x, d input = .ok x := by
  constructor
  · rintro ⟨x, hx⟩
    obtain ⟨d, hd, hx⟩ := exists_mem_of_union hx
    exact ⟨d, hd, x, hx⟩
  · rintro ⟨d, hd, x, hx⟩
    cases h : union alternatives input with
    | ok y => exact ⟨y, rfl⟩
    | error e =>
      obtain ⟨failures, hall, -⟩ := union_eq_error_iff.mp h
      have hmem : Except.ok x ∈ failures.map Except.error := by
        rw [← hall, ← hx]
        exact List.mem_map_of_mem hd
      obtain ⟨_, -, hne⟩ := List.mem_map.mp hmem
      cases hne

theorem option_eq_ok_iff {d : Decoder α} {x : Option α} :
    option d input = .ok x ↔
      (input = none ∧ x = none) ∨ ∃ v y, input = some v ∧ d (some v) = .ok y ∧ x = some y := by
  cases input with
  | none => simp [option, eq_comm]
  | some v => cases h : d (some v) <;> simp [option, h, eq_comm]

end TypedJson.Decoder
