import TypedJson.Entries
import Mathlib.Data.List.Nodup
import Mathlib.Data.List.Perm.Subperm

/-!
# More laws of entries

What is found in entries is one of them, and of strictly ordered entries each is found.  Strictly
ordered entries are determined by what they contain (`Sorted.eq_of_perm`), and as their keys differ, they
have the keys of as many other entries if they have no further ones (`Sorted.mem_keys_iff_of_subset`).

A list of pairs turns into entries that hold the last value under each key (`find?_ofList`).  If no key
equals an earlier one (`Apart`), no pair gives way to another: the entries are the pairs in the order of
their keys (`perm_ofList`), and they do not depend on how the pairs were ordered
(`Apart.ofList_eq_of_perm`).  If only equal keys are equal under the order, a key is there exactly if
something is found under it (`mem_keys_iff`), and strictly ordered entries are determined by what is
found in them (`Sorted.eq_of_find?_eq`).

Entries can be
*related* one by one, keys to keys and values to values; insertion and look-up keep the relation
as long as the orders agree on related keys (`Related.insert`, `Related.find?`).  With equal keys
this compares two maps of one shape, with a coarser relation maps whose keys are only equal up to it.
-/

namespace TypedJson.Entries

variable {κ α β : Type} {order : κ → κ → Ordering}

theorem mem_of_find? {key : κ} {a : α} {entries : List (κ × α)}
    (h : find? order key entries = some a) : ∃ k, (k, a) ∈ entries ∧ order key k = .eq := by
  induction entries with
  | nil => cases h
  | cons entry rest ih =>
    obtain ⟨k, b⟩ := entry
    rw [find?] at h
    by_cases hk : order key k = .eq
    · rw [if_pos hk] at h
      obtain rfl := Option.some.inj h
      exact ⟨k, List.mem_cons_self, hk⟩
    · rw [if_neg hk] at h
      obtain ⟨l, hl, he⟩ := ih h
      exact ⟨l, List.mem_cons_of_mem _ hl, he⟩

theorem find?_eq_none_iff {key : κ} {entries : List (κ × α)} :
    find? order key entries = none ↔ ∀ entry ∈ entries, order key entry.1 ≠ .eq := by
  induction entries with
  | nil => simp [find?]
  | cons entry rest ih =>
    rw [find?, List.forall_mem_cons, ← ih]
    split <;> simp_all

/-- In strictly ordered entries every entry is found under its key. -/
theorem find?_of_mem [Std.OrientedCmp order] {key : κ} {a : α} {entries : List (κ × α)}
    (hs : Sorted order entries) (h : (key, a) ∈ entries) : find? order key entries = some a := by
  induction entries with
  | nil => cases h
  | cons entry rest ih =>
    obtain ⟨k, b⟩ := entry
    obtain ⟨hlt, hrest⟩ := sorted_cons.mp hs
    rw [find?]
    rcases List.mem_cons.mp h with he | hmem
    · cases he
      rw [if_pos Std.ReflCmp.compare_self]
    · have hgt : order key k = .gt := Std.OrientedCmp.gt_iff_lt.mpr (hlt _ hmem)
      rw [if_neg (by rw [hgt]; decide)]
      exact ih hrest hmem

/-- Strictly ordered entries are determined by what they contain, in whatever order. -/
theorem Sorted.eq_of_perm [Std.OrientedCmp order] {xs ys : List (κ × α)} (hx : Sorted order xs)
    (hy : Sorted order ys) (h : xs.Perm ys) : xs = ys := by
  refine h.eq_of_pairwise (fun a b _ _ hab hba => ?_) hx hy
  have hgt : order b.1 a.1 = .gt := Std.OrientedCmp.gt_iff_lt.mpr hab
  rw [hgt] at hba
  cases hba

theorem Sorted.nodup_keys [Std.OrientedCmp order] {xs : List (κ × α)} (hx : Sorted order xs) :
    (xs.map Prod.fst).Nodup :=
  List.pairwise_map.mpr <| hx.imp fun {a b} hlt hab => by
    have hself : order b.1 b.1 = .eq := Std.ReflCmp.compare_self
    rw [hab, hself] at hlt
    cases hlt

theorem Sorted.nodup [Std.OrientedCmp order] {xs : List (κ × α)} (hx : Sorted order xs) : xs.Nodup :=
  List.Nodup.of_map Prod.fst hx.nodup_keys

/-- Strictly ordered entries with keys among those of as many others have all of their keys. -/
theorem Sorted.mem_keys_iff_of_subset [Std.OrientedCmp order] {xs : List (κ × α)}
    {ys : List (κ × β)} (hx : Sorted order xs) (hlength : xs.length = ys.length)
    (h : xs.map Prod.fst ⊆ ys.map Prod.fst) (key : κ) :
    key ∈ xs.map Prod.fst ↔ key ∈ ys.map Prod.fst := by
  have hle : (ys.map Prod.fst).length ≤ (xs.map Prod.fst).length := by simp [hlength]
  exact ((List.subperm_of_subset hx.nodup_keys h).perm_of_length_le hle).mem_iff

/-- Strictly ordered entries with the same keys are equally many. -/
theorem Sorted.length_eq_of_keys [Std.OrientedCmp order] {xs : List (κ × α)} {ys : List (κ × β)}
    (hx : Sorted order xs) (hy : Sorted order ys)
    (h : ∀ key, key ∈ xs.map Prod.fst ↔ key ∈ ys.map Prod.fst) : xs.length = ys.length := by
  have hperm := (List.perm_ext_iff_of_nodup hx.nodup_keys hy.nodup_keys).mpr h
  simpa using hperm.length_eq

/-- An insertion brings no other value. -/
theorem value_mem_insert {key : κ} {value : α} {entry : κ × α} {entries : List (κ × α)}
    (h : entry ∈ insert order key value entries) : entry.2 = value ∨ entry ∈ entries := by
  induction entries with
  | nil =>
    obtain rfl := List.mem_singleton.mp h
    exact Or.inl rfl
  | cons first rest ih =>
    obtain ⟨k, a⟩ := first
    cases hk : order key k with
    | lt =>
      rw [insert, hk] at h
      exact (List.mem_cons.mp h).imp (fun he => by rw [he]) id
    | eq =>
      rw [insert, hk] at h
      rcases List.mem_cons.mp h with rfl | h
      · exact Or.inl rfl
      · exact Or.inr (List.mem_cons_of_mem _ h)
    | gt =>
      rw [insert, hk] at h
      rcases List.mem_cons.mp h with rfl | h
      · exact Or.inr List.mem_cons_self
      · exact (ih h).imp id (List.mem_cons_of_mem _)

/-- A list of pairs turns into entries with none but its values. -/
theorem forall_mem_ofList {P : α → Prop} {pairs : List (κ × α)} (h : ∀ pair ∈ pairs, P pair.2) :
    ∀ entry ∈ ofList order pairs, P entry.2 := by
  suffices hfold : ∀ {entries : List (κ × α)}, (∀ entry ∈ entries, P entry.2) →
      ∀ entry ∈ pairs.foldl (fun es p => insert order p.1 p.2 es) entries, P entry.2 from
    hfold (by simp)
  induction pairs with
  | nil => exact fun hs => hs
  | cons pair rest ih =>
    intro entries hs
    refine ih (fun p hp => h p (List.mem_cons_of_mem _ hp)) fun entry he => ?_
    rcases value_mem_insert he with hv | he
    · rw [hv]
      exact h pair List.mem_cons_self
    · exact hs entry he

/-! ### Lists of pairs as entries -/

theorem find?_append (key : κ) (xs ys : List (κ × α)) :
    find? order key (xs ++ ys) = (find? order key xs).or (find? order key ys) := by
  induction xs with
  | nil => rfl
  | cons entry rest ih =>
    rw [List.cons_append, find?, find?, ih]
    split <;> rfl

/-- **Of a list of pairs the last value under a key stays.** -/
theorem find?_ofList [Std.TransCmp order] (key : κ) (pairs : List (κ × α)) :
    find? order key (ofList order pairs) = find? order key pairs.reverse := by
  suffices h : ∀ entries : List (κ × α),
      find? order key (pairs.foldl (fun es p => insert order p.1 p.2 es) entries) =
        (find? order key pairs.reverse).or (find? order key entries) by
    simpa [find?, ofList] using h []
  induction pairs with
  | nil => exact fun _ => rfl
  | cons pair rest ih =>
    intro entries
    rw [List.foldl_cons, ih, find?_insert, List.reverse_cons, find?_append, Option.or_assoc, find?]
    split <;> rfl

theorem find?_map {f : α → β} (key : κ) (entries : List (κ × α)) :
    find? order key (entries.map fun e => (e.1, f e.2)) = (find? order key entries).map f := by
  induction entries with
  | nil => rfl
  | cons entry rest ih =>
    rw [List.map_cons, find?, find?, ih]
    split <;> rfl

theorem map_insert {f : α → β} (key : κ) (value : α) (entries : List (κ × α)) :
    (insert order key value entries).map (fun e => (e.1, f e.2)) =
      insert order key (f value) (entries.map fun e => (e.1, f e.2)) := by
  induction entries with
  | nil => rfl
  | cons entry rest ih =>
    rw [insert, List.map_cons, insert]
    cases order key entry.1 with
    | lt => rfl
    | eq => rfl
    | gt => rw [List.map_cons, ih]

theorem map_foldl_insert {f : α → β} (pairs entries : List (κ × α)) :
    (pairs.foldl (fun es p => insert order p.1 p.2 es) entries).map (fun e => (e.1, f e.2)) =
      (pairs.map fun e => (e.1, f e.2)).foldl (fun es p => insert order p.1 p.2 es)
        (entries.map fun e => (e.1, f e.2)) := by
  induction pairs generalizing entries with
  | nil => rfl
  | cons pair rest ih => rw [List.foldl_cons, ih, map_insert, List.map_cons, List.foldl_cons]

theorem map_ofList {f : α → β} (pairs : List (κ × α)) :
    (ofList order pairs).map (fun e => (e.1, f e.2)) =
      ofList order (pairs.map fun e => (e.1, f e.2)) :=
  map_foldl_insert pairs []

/-- **No key equals an earlier one.** -/
def Apart (order : κ → κ → Ordering) (pairs : List (κ × α)) : Prop :=
  pairs.Pairwise fun earlier later => order later.1 earlier.1 ≠ .eq

theorem Apart.of_perm [Std.OrientedCmp order] {xs ys : List (κ × α)} (hx : Apart order xs)
    (h : xs.Perm ys) : Apart order ys := by
  refine h.pairwise hx fun {a b} hab hba => hab ?_
  rw [Std.OrientedCmp.eq_comm, hba]

/-- A key beyond all others comes last. -/
theorem insert_of_forall_lt [Std.OrientedCmp order] {key : κ} {value : α} {entries : List (κ × α)}
    (h : ∀ entry ∈ entries, order entry.1 key = .lt) :
    insert order key value entries = entries ++ [(key, value)] := by
  induction entries with
  | nil => rfl
  | cons entry rest ih =>
    obtain ⟨hlt, hrest⟩ := List.forall_mem_cons.mp h
    have hgt : order key entry.1 = .gt := Std.OrientedCmp.gt_iff_lt.mpr hlt
    rw [insert, hgt, ih hrest, List.cons_append]

/-- The insertion of a new key adds one entry. -/
theorem perm_insert {key : κ} {value : α} {entries : List (κ × α)}
    (h : find? order key entries = none) :
    (insert order key value entries).Perm ((key, value) :: entries) := by
  induction entries with
  | nil => exact .refl _
  | cons entry rest ih =>
    rw [find?] at h
    rw [insert]
    cases hk : order key entry.1 with
    | lt => exact .refl _
    | eq => rw [if_pos hk] at h; cases h
    | gt =>
      rw [if_neg (by rw [hk]; decide)] at h
      exact ((ih h).cons entry).trans (.swap _ _ _)

/-- **The entries of pairs with different keys are these pairs.** -/
theorem perm_ofList [Std.TransCmp order] {pairs : List (κ × α)} (h : Apart order pairs) :
    (ofList order pairs).Perm pairs := by
  suffices hfold : ∀ entries : List (κ × α), (∀ p ∈ pairs, find? order p.1 entries = none) →
      (pairs.foldl (fun es p => insert order p.1 p.2 es) entries).Perm (entries ++ pairs) from
    hfold [] fun _ _ => rfl
  induction pairs with
  | nil =>
    intro entries _
    rw [List.append_nil]
    exact .refl _
  | cons pair rest ih =>
    intro entries hnew
    obtain ⟨hpair, hrest⟩ := List.pairwise_cons.mp h
    obtain ⟨hfirst, hothers⟩ := List.forall_mem_cons.mp hnew
    have hstep : ∀ p ∈ rest, find? order p.1 (insert order pair.1 pair.2 entries) = none := by
      intro p hp
      rw [find?_insert, if_neg (hpair p hp)]
      exact hothers p hp
    refine (ih hrest _ hstep).trans (((perm_insert hfirst).append_right rest).trans ?_)
    exact List.perm_middle.symm

/-- **Pairs with different keys give the same entries in every order.** -/
theorem Apart.ofList_eq_of_perm [Std.TransCmp order] {xs ys : List (κ × α)} (hx : Apart order xs)
    (h : xs.Perm ys) : ofList order xs = ofList order ys := by
  refine (sorted_ofList xs).eq_of_perm (sorted_ofList ys) ?_
  exact (perm_ofList hx).trans (h.trans (perm_ofList (hx.of_perm h)).symm)

/-! ### Keys -/

section Keys
variable [Std.LawfulEqCmp order]

theorem mem_keys_iff {key : κ} {entries : List (κ × α)} :
    key ∈ entries.map Prod.fst ↔ (find? order key entries).isSome := by
  induction entries with
  | nil => simp [find?]
  | cons entry rest ih =>
    rw [List.map_cons, List.mem_cons, ih, find?]
    by_cases hk : order key entry.1 = .eq
    · simp [Std.LawfulEqCmp.eq_of_compare hk]
    · have hne : key ≠ entry.1 := fun he => hk (he ▸ Std.ReflCmp.compare_self)
      simp [hk, hne]

/-- The entries of a list of pairs have the keys of the pairs. -/
theorem mem_keys_ofList [Std.TransCmp order] {key : κ} {pairs : List (κ × α)} :
    key ∈ (ofList order pairs).map Prod.fst ↔ key ∈ pairs.map Prod.fst := by
  have hfound : (find? order key (ofList order pairs)).isSome ↔
      (find? order key pairs.reverse).isSome := by rw [find?_ofList]
  rwa [← mem_keys_iff, ← mem_keys_iff, List.map_reverse, List.mem_reverse] at hfound

/-- What is found comes from the first entry with the key. -/
theorem find?_eq_some_iff {key : κ} {a : α} {entries : List (κ × α)} :
    find? order key entries = some a ↔
      ∃ before after, entries = before ++ (key, a) :: after ∧ key ∉ before.map Prod.fst := by
  constructor
  · intro h
    induction entries with
    | nil => cases h
    | cons entry rest ih =>
      obtain ⟨k, b⟩ := entry
      rw [find?] at h
      split at h
      · next hk =>
        obtain rfl := Std.LawfulEqCmp.eq_of_compare hk
        obtain rfl := Option.some.inj h
        exact ⟨[], rest, rfl, by simp⟩
      · next hk =>
        obtain ⟨before, after, rfl, hnew⟩ := ih h
        have hne : key ≠ k := fun he => hk (he ▸ Std.ReflCmp.compare_self)
        exact ⟨(k, b) :: before, after, rfl, by simpa using ⟨hne, by simpa using hnew⟩⟩
  · rintro ⟨before, after, rfl, hnew⟩
    have hnone : find? order key before = none := by
      rw [← Option.not_isSome_iff_eq_none, ← mem_keys_iff]
      exact hnew
    rw [find?_append, hnone, Option.none_or, find?, if_pos Std.ReflCmp.compare_self]

/-- Only entries with the key count for what is found under it. -/
theorem find?_filter [DecidableEq κ] (key : κ) (entries : List (κ × α)) :
    find? order key (entries.filter fun entry => entry.1 == key) = find? order key entries := by
  induction entries with
  | nil => rfl
  | cons entry rest ih =>
    rw [List.filter_cons, find?]
    by_cases hk : entry.1 = key
    · have hself : order key entry.1 = .eq := hk ▸ Std.ReflCmp.compare_self
      rw [if_pos (by simp [hk]), find?, if_pos hself, if_pos hself]
    · have hne : order key entry.1 ≠ .eq := fun he => hk (Std.LawfulEqCmp.eq_of_compare he).symm
      rw [if_neg (by simp [hk]), if_neg hne, ih]

/-- Strictly ordered entries have at most one for each key. -/
theorem Sorted.filter_eq [DecidableEq κ] {xs ys : List (κ × α)}
    (hx : Sorted order xs) (h : xs.Perm ys) (key : κ) :
    xs.filter (fun entry => entry.1 == key) = ys.filter fun entry => entry.1 == key := by
  have hperm := h.filter fun entry => entry.1 == key
  have hpair := hx.filter fun entry => entry.1 == key
  have hkey : ∀ entry ∈ xs.filter (fun entry => entry.1 == key), entry.1 = key := by simp
  cases hfilter : xs.filter fun entry => entry.1 == key with
  | nil =>
    rw [hfilter] at hperm
    exact (List.nil_perm.mp hperm).symm
  | cons a others =>
    rw [hfilter] at hperm hpair hkey
    cases others with
    | nil => exact List.singleton_perm.mp hperm
    | cons b rest =>
      have hlt : order a.1 b.1 = .lt := (List.pairwise_cons.mp hpair).1 b (by simp)
      have hself : order key key = .eq := Std.ReflCmp.compare_self
      rw [hkey a (by simp), hkey b (by simp), hself] at hlt
      cases hlt

/-- In strictly ordered entries there is one entry for a key, from whichever end one looks. -/
theorem Sorted.find?_of_reverse {key : κ} {a : α} {entries : List (κ × α)} [Std.OrientedCmp order]
    (hs : Sorted order entries) (h : find? order key entries.reverse = some a) :
    find? order key entries = some a := by
  obtain ⟨k, hmem, hk⟩ := mem_of_find? h
  obtain rfl := Std.LawfulEqCmp.eq_of_compare hk
  exact find?_of_mem hs (List.mem_reverse.mp hmem)

/-- **Strictly ordered entries are determined by what is found in them.** -/
theorem Sorted.eq_of_find?_eq [Std.OrientedCmp order] {xs ys : List (κ × α)} (hx : Sorted order xs)
    (hy : Sorted order ys) (h : ∀ key, find? order key xs = find? order key ys) : xs = ys := by
  have hsubset : ∀ {xs ys : List (κ × α)}, Sorted order xs →
      (∀ key, find? order key xs = find? order key ys) → xs ⊆ ys := by
    rintro xs ys hxs hfind ⟨key, a⟩ hmem
    obtain ⟨k, hk, he⟩ := mem_of_find? ((hfind key).symm.trans (find?_of_mem hxs hmem))
    rwa [Std.LawfulEqCmp.eq_of_compare he]
  refine hx.eq_of_perm hy ((List.perm_ext_iff_of_nodup hx.nodup hy.nodup).mpr fun entry => ?_)
  exact ⟨fun he => hsubset hx h he, fun he => hsubset hy (fun key => (h key).symm) he⟩

/-- What is found on one side of pairs that correspond comes from the other side, under the same key. -/
theorem exists_find?_of_forall₂ {P : κ → α → β → Prop} {xs : List (κ × α)} {ys : List (κ × β)}
    (h : List.Forall₂ (fun x y => x.1 = y.1 ∧ P x.1 x.2 y.2) xs ys) {key : κ} {b : β}
    (hb : find? order key ys = some b) : ∃ a, find? order key xs = some a ∧ P key a b := by
  induction h with
  | nil => cases hb
  | @cons x y xs ys hxy _ ih =>
    rw [find?] at hb ⊢
    rw [hxy.1]
    split at hb
    · next hk =>
      obtain rfl := Option.some.inj hb
      rw [if_pos hk]
      have hkey : key = x.1 := by rw [Std.LawfulEqCmp.eq_of_compare hk, hxy.1]
      exact ⟨x.2, rfl, hkey ▸ hxy.2⟩
    · next hk =>
      rw [if_neg hk]
      exact ih hb

end Keys

/-! ### Related entries -/

/-- Entries that correspond one by one, keys by `K` and values by `R`. -/
def Related (K : κ → κ → Prop) (R : α → β → Prop) (xs : List (κ × α)) (ys : List (κ × β)) : Prop :=
  List.Forall₂ (fun x y => K x.1 y.1 ∧ R x.2 y.2) xs ys

/-- The order does not tell related keys apart. -/
def Respects (order : κ → κ → Ordering) (K : κ → κ → Prop) : Prop :=
  ∀ k k' l l', K k k' → K l l' → order k l = order k' l'

theorem respects_eq : Respects order Eq := by
  rintro k _ l _ rfl rfl
  rfl

variable {K : κ → κ → Prop} {R : α → β → Prop}

theorem Related.find? (ho : Respects order K) {k k' : κ} (hk : K k k') {xs : List (κ × α)}
    {ys : List (κ × β)} (h : Related K R xs ys) :
    Option.Rel R (find? order k xs) (find? order k' ys) := by
  induction h with
  | nil => exact .none
  | @cons x y xs ys hxy _ ih =>
    rw [Entries.find?, Entries.find?, ho k k' x.1 y.1 hk hxy.1]
    split
    · exact .some hxy.2
    · exact ih

theorem Related.eq {xs ys : List (κ × α)} (h : Related Eq Eq xs ys) :
    xs = ys := by
  have hpairs : List.Forall₂ Eq xs ys := h.imp fun _ _ he => Prod.ext he.1 he.2
  rwa [List.forall₂_eq_eq_eq] at hpairs

/-- **Insertion keeps entries related.** -/
theorem Related.insert (ho : Respects order K) {k k' : κ} (hk : K k k') {a : α} {b : β}
    (hab : R a b) {xs : List (κ × α)} {ys : List (κ × β)} (h : Related K R xs ys) :
    Related K R (insert order k a xs) (insert order k' b ys) := by
  induction h with
  | nil => exact .cons ⟨hk, hab⟩ .nil
  | @cons x y xs ys hxy h ih =>
    rw [Entries.insert, Entries.insert, ho k k' x.1 y.1 hk hxy.1]
    cases order k' y.1 with
    | lt => exact .cons ⟨hk, hab⟩ (.cons hxy h)
    | eq => exact .cons ⟨hxy.1, hab⟩ h
    | gt => exact .cons hxy ih

theorem Related.ofList (ho : Respects order K) {xs : List (κ × α)} {ys : List (κ × β)}
    (h : Related K R xs ys) : Related K R (ofList order xs) (ofList order ys) := by
  suffices hfold : ∀ {zs : List (κ × α)} {ws : List (κ × β)}, Related K R zs ws →
      Related K R (xs.foldl (fun es p => Entries.insert order p.1 p.2 es) zs)
        (ys.foldl (fun es p => Entries.insert order p.1 p.2 es) ws) from hfold .nil
  induction h with
  | nil => exact id
  | cons hxy _ ih => exact fun hz => ih (hz.insert ho hxy.1 hxy.2)

end TypedJson.Entries
