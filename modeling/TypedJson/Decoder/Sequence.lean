import TypedJson.Decoder.Basic
import TypedJson.Entries

/-!
# Decoders of arrays

Elements are decoded from left to right, and the first fault ends the run.  `set` also refuses an
element whose output equals an earlier one, and `map` reads pairs and refuses a pair whose key
equals an earlier one; the fault of an element itself comes before its being a duplicate.
-/

namespace TypedJson.Decoder

variable {α β κ : Type}

/-- The elements of an array, or a failure of shape. -/
def expectArray : Option Value → Except Failure (List Value)
  | some (.array items) => .ok items
  | input => .error (.shapeMismatch .array input)

/-- Decodes the elements from `position` on. -/
def arrayFrom (d : Decoder α) : (position : Nat) → List Value → Except Failure (List α)
  | _, [] => .ok []
  | position, v :: rest => do
    let x ← under (.index position) (d (some v))
    let xs ← arrayFrom d (position + 1) rest
    .ok (x :: xs)

/-- Decoding elements succeeds with the outputs of all of them. -/
theorem arrayFrom_eq_ok_iff {d : Decoder α} {position : Nat} {items : List Value}
    {outputs : List α} :
    arrayFrom d position items = .ok outputs ↔
      items.map (fun v => d (some v)) = outputs.map Except.ok := by
  induction items generalizing position outputs with
  | nil => cases outputs <;> simp [arrayFrom]
  | cons v rest ih =>
    simp only [arrayFrom, List.map_cons]
    cases hv : d (some v) with
    | error e => cases outputs <;> simp [bind, Except.bind]
    | ok x =>
      simp only [under_ok, bind, Except.bind]
      cases hr : arrayFrom d (position + 1) rest with
      | error e =>
        simp only [reduceCtorEq, false_iff]
        intro h
        cases outputs with
        | nil => simp at h
        | cons y ys =>
          have := (@ih (position + 1) _).mpr (List.cons.inj h).2
          rw [hr] at this
          exact absurd this (by simp)
      | ok xs =>
        have hxs := (@ih (position + 1) _).mp hr
        cases outputs with
        | nil => simp
        | cons y ys =>
          simp only [Except.ok.injEq, List.cons.injEq, List.map_cons, hxs]
          exact and_congr_right fun _ => (List.map_inj_right fun _ _ => Except.ok.inj).symm

/-- Decodes every element of an array. -/
def array (d : Decoder α) : Decoder (List α) := fun input => do
  arrayFrom d 0 (← expectArray input)

/-- Decodes the elements from `position` on, those before having given the outputs `seen`. -/
def setFrom (same : α → α → Bool) (d : Decoder α) :
    (seen : List α) → (position : Nat) → List Value → Except Failure (List α)
  | seen, _, [] => .ok seen
  | seen, position, v :: rest => do
    let x ← under (.index position) (d (some v))
    match seen.findIdx? (same · x) with
    | some first => .error ((Failure.ofCause (.duplicateValue first)).under (.index position))
    | none => setFrom same d (seen ++ [x]) (position + 1) rest

/-- Decodes an array whose elements have pairwise different outputs. -/
def set (same : α → α → Bool) (d : Decoder α) : Decoder (List α) := fun input => do
  setFrom same d [] 0 (← expectArray input)

/-- Decodes an array of length two by position. -/
def tuple (first : Decoder α) (second : Decoder β) : Decoder (α × β)
  | some (.array [v, w]) => do
    let x ← under (.index 0) (first (some v))
    let y ← under (.index 1) (second (some w))
    .ok (x, y)
  | input => .error (.shapeMismatch (.tuple 2) input)

/-- Decodes the pairs from `position` on, those before being `seen`, each with its position. -/
def mapFrom (order : κ → κ → Ordering) (entry : Decoder (κ × α)) :
    (seen : List (κ × Nat × α)) → (position : Nat) → List Value →
      Except Failure (List (κ × Nat × α))
  | seen, _, [] => .ok seen
  | seen, position, v :: rest => do
    let (key, x) ← under (.index position) (entry (some v))
    match Entries.find? order key seen with
    | some (first, _) => .error ((Failure.ofCause (.duplicateKey first)).under (.index position))
    | none => mapFrom order entry (Entries.insert order key (position, x) seen) (position + 1) rest

/-- Decodes an array of pairs with different keys to entries in the order of the keys. -/
def mapping (order : κ → κ → Ordering) (key : Decoder κ) (value : Decoder α) :
    Decoder (List (κ × α)) := fun input => do
  let entries ← mapFrom order (tuple key value) [] 0 (← expectArray input)
  .ok (entries.map fun (k, _, x) => (k, x))

end TypedJson.Decoder
