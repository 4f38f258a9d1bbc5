import TypedJson.Proofs.Binary64.Nearest
import TypedJson.Proofs.Decoder.Duplicates
import TypedJson.Proofs.Value.Structure
import TypedJson.Schema.Decoding

/-!
# Integers decoded as doubles

Numbers are decoded to doubles, and an integer of a 64-bit word to the nearest one.  Doubles have 53 bits, so
this keeps different integers apart only as long as no double is nearest to both (`integers_as_doubles`).  None of
less than `2^53` is confused with another, but `2^53` is with its successor (`number_confuses_integers`).  A set of
numbers compares the doubles, so it refuses an array with two such integers as if they were one.
-/

namespace TypedJson

/-- **The integer is that of a token**: it fits a signed or an unsigned 64-bit word. -/
def Number.FitsWord (n : ℤ) : Prop := minInt ≤ n ∧ n ≤ maxInt

instance (n : ℤ) : Decidable (Number.FitsWord n) :=
  inferInstanceAs (Decidable (Number.minInt ≤ n ∧ n ≤ Number.maxInt))

theorem Number.FitsWord.natAbs_le {n : ℤ} (h : FitsWord n) : n.natAbs ≤ 2 ^ 64 := by
  unfold FitsWord minInt maxInt at h
  omega

namespace Schema

open Binary64 Number Decoder

variable {m n : ℤ} {ns : List ℤ}

theorem decoder_number_int (n : ℤ) : number.decoder (some (.int n)) = .ok (.float (ofInt n)) := rfl

theorem resultEqv_number_int (m n : ℤ) :
    resultEqv (number.decode (.int m)) (number.decode (.int n)) = (ofInt m).eqv (ofInt n) := by
  rw [decode, decode, decoder_number_int, decoder_number_int, resultEqv, Output.eqv]

/-- Doubles of integers are equal outputs exactly if the integers collide. -/
theorem eqv_ofInt_iff (hm : FitsWord m) (hn : FitsWord n) :
    (Output.float (ofInt m)).eqv (.float (ofInt n)) = true ↔ Collide m n := by
  rw [Output.eqv, eqv_iff, ← value_eq_iff, value_ofInt_eq_iff hm.natAbs_le hn.natAbs_le]

/-- Integers that are doubles themselves stay apart. -/
theorem not_collide_of_isDouble (hm : FitsWord m) (hn : FitsWord n) (hne : m ≠ n)
    (hmd : (Number.int m).IsDouble) (hnd : (Number.int n).IsDouble) : ¬ Collide m n := by
  rw [← value_ofInt_eq_iff hm.natAbs_le hn.natAbs_le, value_eq_iff]
  intro h
  have hsame : (Number.int m).SameDouble (.int n) := h
  exact hne (sameValue_int_iff.mp (hsame.sameValue hmd hnd))

theorem decodes_integers (ns : List ℤ) :
    List.Forall₂ number.decoder.Decodes (ns.map .int) (ns.map fun n => .float (ofInt n)) := by
  rw [List.forall₂_map_left_iff, List.forall₂_map_right_iff, List.forall₂_same]
  exact fun n _ => decoder_number_int n

theorem distinct_ofInt_iff (hfits : ∀ n ∈ ns, FitsWord n) :
    Distinct Output.eqv (ns.map fun n => .float (ofInt n)) ↔ ns.Pairwise fun m n => ¬ Collide m n := by
  rw [Distinct, List.pairwise_map]
  refine List.Pairwise.iff_of_mem fun hm hn => ?_
  rw [← Bool.not_eq_true, eqv_ofInt_iff (hfits _ hm) (hfits _ hn)]

/-- **A set of integers has the outputs of the array** if no two of them collide. -/
theorem set_integers_eq_ok (hfits : ∀ n ∈ ns, FitsWord n) (h : ns.Pairwise fun m n => ¬ Collide m n) :
    (set number).decode (.array (ns.map .int)) = .ok (.list (ns.map fun n => .float (ofInt n))) := by
  have hdistinct := (distinct_ofInt_iff hfits).mpr h
  exact map_eq_ok_iff.mpr ⟨_, set_eq_ok_iff.mpr ⟨_, rfl, decodes_integers ns, hdistinct⟩, rfl⟩

/-- **If two of them collide**, the set is refused at an element that collides with an earlier one. -/
theorem set_integers_eq_error (hfits : ∀ n ∈ ns, FitsWord n) (h : ¬ ns.Pairwise fun m n => ¬ Collide m n) :
    ∃ (i first : ℕ) (m n : ℤ), first < i ∧ ns[first]? = some m ∧ ns[i]? = some n ∧ Collide m n ∧
      (set number).decode (.array (ns.map .int)) = .error ⟨[.index i], .duplicateValue first⟩ := by
  have hresults : results number.decoder (ns.map .int) = (ns.map fun n => .float (ofInt n)).map .ok :=
    results_eq_ok_iff.mpr (decodes_integers ns)
  have hfault : ¬ ∀ i, ¬ FaultAt (Output.eqv · ·) (results number.decoder (ns.map .int)) i := by
    intro hno
    obtain ⟨outputs, hdecodes, hdistinct, -⟩ := set_of_no_fault hno
    have hboth := (results_eq_ok_iff.mpr hdecodes).symm.trans hresults
    obtain rfl := (List.map_inj_right fun _ _ => Except.ok.inj).mp hboth
    exact h ((distinct_ofInt_iff hfits).mp hdistinct)
  have hresult : ∀ j : ℕ, (results number.decoder (ns.map .int))[j]? =
      ns[j]?.map fun n => Except.ok (Output.float (ofInt n)) := by
    intro j
    rw [hresults, List.map_map, List.getElem?_map]
    rfl
  obtain ⟨i, hi⟩ := exists_firstFaultAt hfault
  obtain ⟨n, hn⟩ : ∃ n, ns[i]? = some n := by
    have hlt := hi.1.lt_length
    rw [hresults, List.length_map, List.length_map] at hlt
    exact ⟨_, List.getElem?_eq_getElem hlt⟩
  have hx := hresult i
  rw [hn, Option.map_some] at hx
  obtain ⟨first, hlt, ⟨y, x, hy, hx', hsame⟩, hset⟩ := set_of_duplicate hi hx
  obtain rfl := Except.ok.inj (Option.some.inj (hx.symm.trans hx'))
  rw [hresult] at hy
  obtain ⟨m, hm, hfloat⟩ := Option.map_eq_some_iff.mp hy
  obtain rfl := Except.ok.inj hfloat
  have hcollide : Collide m n :=
    (eqv_ofInt_iff (hfits m (List.mem_of_getElem? hm)) (hfits n (List.mem_of_getElem? hn))).mp hsame
  exact ⟨i, first, m, n, hlt, hm, hn, hcollide, map_eq_error_iff.mpr hset⟩

/-- **Integers are decoded to their nearest doubles.**  Two integers of a 64-bit word are decoded alike exactly if
one double is nearest to both, which does not happen to different integers if one is less than `2^53` in
absolute value or both are doubles themselves.  A set of numbers accepts an array of integers if no double is
nearest to two of them, with the outputs of the array, and else refuses an element that collides with an earlier
one as a repetition. -/
theorem integers_as_doubles :
    (∀ n : ℤ, FitsWord n → ∃ x : Binary64, number.decode (.int n) = .ok (.float x) ∧ x.IsNearest n) ∧
    (∀ m n : ℤ, FitsWord m → FitsWord n →
      (resultEqv (number.decode (.int m)) (number.decode (.int n)) = true ↔ Collide m n)) ∧
    (∀ m n : ℤ, FitsWord m → FitsWord n → m ≠ n →
      m.natAbs < 2 ^ 53 ∨ (Number.int m).IsDouble ∧ (Number.int n).IsDouble → ¬ Collide m n) ∧
    ∀ ns : List ℤ, (∀ n ∈ ns, FitsWord n) →
      let input := Value.array (ns.map .int)
      ((ns.Pairwise fun m n => ¬ Collide m n) → ∃ outputs,
        (set number).decode input = .ok (.list outputs) ∧ (array number).decode input = .ok (.list outputs)) ∧
      (¬ (ns.Pairwise fun m n => ¬ Collide m n) → ∃ (i first : ℕ) (m n : ℤ),
        first < i ∧ ns[first]? = some m ∧ ns[i]? = some n ∧ Collide m n ∧
        (set number).decode input = .error ⟨[.index i], .duplicateValue first⟩) := by
  refine ⟨fun n hn => ?_, fun m n hm hn => ?_, fun m n hm hn hne h => ?_, fun ns hns => ⟨fun h => ?_, fun h => ?_⟩⟩
  · exact ⟨ofInt n, rfl, isNearest_ofInt hn.natAbs_le⟩
  · exact eqv_ofInt_iff hm hn
  · rcases h with hlt | ⟨hmd, hnd⟩
    · exact not_collide_of_natAbs_lt hn.natAbs_le hne hlt
    · exact not_collide_of_isDouble hm hn hne hmd hnd
  · have harray := array_eq_ok_iff.mpr ⟨_, rfl, decodes_integers ns⟩
    exact ⟨_, set_integers_eq_ok hns h, map_eq_ok_iff.mpr ⟨_, harray, rfl⟩⟩
  · exact set_integers_eq_error hns h

/-- The last integer before `2^53` and one beyond stay apart, `2^53` and its successor do not. -/
theorem integers_as_doubles_at_limit :
    FitsWord 9007199254740991 ∧ FitsWord 9007199254740993 ∧
      ¬ Collide 9007199254740991 9007199254740993 ∧
      (∃ outputs, (set number).decode (.array [.int 9007199254740991, .int 9007199254740993]) =
        .ok (.list outputs)) ∧
      Collide 9007199254740992 9007199254740993 ∧
      ∃ i first, first < i ∧
        (set number).decode (.array [.int 9007199254740992, .int 9007199254740993]) =
          .error ⟨[.index i], .duplicateValue first⟩ := by
  obtain ⟨-, hequal, hapart, hset⟩ := integers_as_doubles
  have hlast : FitsWord 9007199254740991 := by decide
  have hlimit : FitsWord 9007199254740992 := by decide
  have hnext : FitsWord 9007199254740993 := by decide
  have hnot := hapart _ _ hlast hnext (by decide) (Or.inl (by decide))
  have hcollide : Collide 9007199254740992 9007199254740993 := by
    have hdouble : ofInt 9007199254740992 = ofInt 9007199254740993 := by decide +kernel
    rw [← hequal _ _ hlimit hnext, resultEqv_number_int, hdouble]
    exact eqv_refl _
  refine ⟨hlast, hnext, hnot, ?_, hcollide, ?_⟩
  · obtain ⟨outputs, hok, -⟩ := (hset [9007199254740991, 9007199254740993] (by simp [hlast, hnext])).1
      (by simp [hnot])
    exact ⟨outputs, hok⟩
  · obtain ⟨i, first, -, -, hlt, -, -, -, herror⟩ :=
      (hset [9007199254740992, 9007199254740993] (by simp [hlimit, hnext])).2 (by simp [hcollide])
    exact ⟨i, first, hlt, herror⟩

/-- **Two different integers are decoded to one double**, and a set takes them for one. -/
theorem number_confuses_integers :
    FitsWord 9007199254740992 ∧ FitsWord 9007199254740993 ∧ (9007199254740992 : ℤ) ≠ 9007199254740993 ∧
      number.decode (.int 9007199254740992) = number.decode (.int 9007199254740993) ∧
      (set number).decode (.array [.int 9007199254740992, .int 9007199254740993]) =
        .error ⟨[.index 1], .duplicateValue 0⟩ := by
  have hdouble : ofInt 9007199254740992 = ofInt 9007199254740993 := by decide +kernel
  have hnumber : number.decode (.int 9007199254740992) = number.decode (.int 9007199254740993) := by
    rw [decode, decode, decoder_number_int, decoder_number_int, hdouble]
  have hsame : (Output.float (ofInt 9007199254740992)).eqv (.float (ofInt 9007199254740993)) = true := by
    rw [Output.eqv, hdouble]
    exact eqv_refl _
  have hseen : [Output.float (ofInt 9007199254740992)].findIdx?
      (Output.eqv · (.float (ofInt 9007199254740993))) = some 0 := by
    rw [List.findIdx?_cons, if_pos hsame]
  refine ⟨by decide, by decide, by decide, hnumber, map_eq_error_iff.mpr ?_⟩
  simp only [Decoder.set, expectArray, setFrom, bind, Except.bind, decoder_number_int, under_ok,
    List.findIdx?_nil, List.nil_append, hseen]
  rfl

end Schema

end TypedJson
