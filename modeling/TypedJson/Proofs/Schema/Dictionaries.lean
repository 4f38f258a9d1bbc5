import TypedJson.Proofs.Schema.Declarations

/-!
# Dictionaries are records of the keys that are there

A dictionary goes through the entries of the object, a record through its declarations, each of which it
looks up.  If the declarations are the keys of the object, every look-up finds the entry at hand and every
output goes behind those before it, as the keys increase.  So the two runs agree step by step
(`recordFrom_keys`), on the outputs as well as on the first fault.
-/

namespace TypedJson

/-- The run over declarations that are found, under keys beyond those decoded so far. -/
theorem Decoder.recordFrom_keys {α : Type} {d : Decoder α} {entries rest : List (String × Value)}
    {decoded : List (String × α)} (hfound : ∀ e ∈ rest, Value.lookup e.1 entries = some e.2)
    (hsorted : Entries.Sorted Text.order rest)
    (hbelow : ∀ output ∈ decoded, ∀ e ∈ rest, Text.order output.1 e.1 = .lt) :
    recordFrom entries decoded (rest.map fun e => (e.1, d)) =
      (dictFrom d rest).map (decoded ++ ·) := by
  induction rest generalizing decoded with
  | nil => simp [recordFrom, dictFrom, Except.map]
  | cons e rest ih =>
    obtain ⟨hlookup, hfound⟩ := List.forall_mem_cons.mp hfound
    obtain ⟨hlt, hsorted⟩ := Entries.sorted_cons.mp hsorted
    have hfield : field entries e.1 d = under (.field e.1) (d (some e.2)) := field_of_lookup_some hlookup d
    cases hv : d (some e.2) with
    | error inner =>
      rw [hv] at hfield
      simp [recordFrom, dictFrom, hfield, hv, bind, Except.bind, Except.map]
    | ok x =>
      have hlast : Entries.insert Text.order e.1 x decoded = decoded ++ [(e.1, x)] :=
        Entries.insert_of_forall_lt fun output ho => hbelow output ho e List.mem_cons_self
      have hbelow' : ∀ output ∈ decoded ++ [(e.1, x)], ∀ f ∈ rest, Text.order output.1 f.1 = .lt := by
        intro output ho f hf
        rcases List.mem_append.mp ho with ho | ho
        · exact hbelow output ho f (List.mem_cons_of_mem e hf)
        · rw [List.mem_singleton.mp ho]
          exact hlt f hf
      rw [hv, under_ok] at hfield
      rw [List.map_cons, recordFrom_cons hfield, hlast, ih hfound hsorted hbelow', dictFrom_cons hv]
      cases dictFrom d rest <;> simp [Except.map]

namespace Schema

open Decoder

theorem dict_eq_record {entries : List (String × Value)} (hs : Entries.Sorted Text.order entries)
    (s : Schema) :
    (dict s).decode (.object entries) =
      (record (entries.map fun e => (e.1, s))).decode (.object entries) := by
  have hfound : ∀ e ∈ entries, Value.lookup e.1 entries = some e.2 := fun e he =>
    Entries.find?_of_mem hs he
  have hrun : recordFrom entries [] (entries.map fun e => (e.1, s.decoder)) =
      dictFrom s.decoder entries := by
    rw [recordFrom_keys hfound hs (by simp)]
    cases dictFrom s.decoder entries <;> rfl
  have hfields : Decoder.record (fieldDecoders (entries.map fun e => (e.1, s))) (some (.object entries)) =
      Decoder.dict s.decoder (some (.object entries)) := by
    rw [fieldDecoders_eq_map, List.map_map]
    exact hrun
  rw [decode, decode, Schema.decoder, Schema.decoder, Decoder.map, Decoder.map, hfields]

theorem dict_of_not_object {s : Schema} {input : Option Value}
    (hinput : ∀ entries, input ≠ some (.object entries)) :
    (dict s).decoder input = .error (.shapeMismatch .object input) := by
  rw [Schema.decoder, Decoder.map_eq_error_iff, dict_eq_error_iff]
  exact Or.inl (expectObject_of_not_object hinput)

/-- **A dictionary is the record of the keys that are there.**  On every object the two have the same
result, be it the dictionary or the failure.  Every other input, and none at all, fails in the same way for
a dictionary and for every record, whatever it declares. -/
theorem dict_refines_record (s : Schema) :
    (∀ entries, Entries.Sorted Text.order entries →
      (dict s).decode (.object entries) =
        (record (entries.map fun e => (e.1, s))).decode (.object entries)) ∧
    ∀ input, (∀ entries, input ≠ some (.object entries)) →
      (dict s).decoder input = .error (.shapeMismatch .object input) ∧
      ∀ (r : Schema) declared, r.Declares declared →
        r.decoder input = .error (.shapeMismatch .object input) :=
  ⟨fun _ hs => dict_eq_record hs s,
    fun _ hinput => ⟨dict_of_not_object hinput, fun _ _ hr => hr.of_not_object hinput⟩⟩

/-- Both stop at the first of two faults. -/
theorem dict_refines_record_faults :
    let entries := [("a", Value.string "x"), ("b", .null), ("c", .bool true)]
    let e : Failure := ⟨[.field "b"], .typeMismatch "string" .null⟩
    (dict string).decode (.object entries) = .error e ∧
      (record [("a", string), ("b", string), ("c", string)]).decode (.object entries) = .error e := by
  intro entries e
  have hs : Entries.Sorted Text.order entries := by
    have hab : Text.order "a" "b" = .lt := by decide
    have hac : Text.order "a" "c" = .lt := by decide
    have hbc : Text.order "b" "c" = .lt := by decide
    simp [entries, Entries.Sorted, hab, hac, hbc]
  have he : (dict string).decode (.object entries) = .error e := rfl
  exact ⟨he, (dict_refines_record string).1 entries hs ▸ he⟩

end Schema

end TypedJson
