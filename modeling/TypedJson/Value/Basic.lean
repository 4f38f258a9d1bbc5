import TypedJson.Number
import TypedJson.Text.Order
import TypedJson.Entries

/-!
# Dynamic values

A dynamic value is a JSON value.  Objects are entries ordered by key; the type itself does not force
the order, `Value.WellFormed` states it and `Value.ofEntries` establishes it.  An input of a decoder
is an `Option Value`: `none` is a value that is not there at all, which differs from `null`.
-/

namespace TypedJson

/-- A JSON value. -/
inductive Value where
  | null
  | bool (value : Bool)
  | number (value : Number)
  | string (text : String)
  | array (items : List Value)
  | object (entries : List (String × Value))

/-- What an input is, at the coarsest: a kind of value, or nothing. -/
inductive Kind where
  | absent
  | null
  | boolean
  | number
  | string
  | array
  | object
deriving DecidableEq

namespace Kind

/-- The word for a kind. -/
def text : Kind → String
  | absent => "absent"
  | null => "null"
  | boolean => "boolean"
  | number => "number"
  | string => "string"
  | array => "array"
  | object => "object"

theorem text_inj {a b : Kind} (h : a.text = b.text) : a = b := by
  revert h
  cases a <;> cases b <;> decide

/-- The kind of an input. -/
def of : Option Value → Kind
  | none => absent
  | some .null => null
  | some (.bool _) => boolean
  | some (.number _) => number
  | some (.string _) => string
  | some (.array _) => array
  | some (.object _) => object

end Kind

namespace Value

instance : Inhabited Value := ⟨null⟩

/-- The value stored under a name of an object's entries. -/
def lookup (name : String) (entries : List (String × Value)) : Option Value :=
  Entries.find? Text.order name entries

/-- The object with the given entries, the last one winning under each name. -/
def ofEntries (pairs : List (String × Value)) : Value :=
  object (Entries.ofList Text.order pairs)

/-- The integer `n` as a value. -/
def int (n : Int) : Value := number (.int n)

/-- The natural number `n` as a value. -/
def nat (n : Nat) : Value := int n

mutual

/-- Every object inside has strictly increasing names. -/
def WellFormed : Value → Prop
  | array items => WellFormedItems items
  | object entries => Entries.Sorted Text.order entries ∧ WellFormedEntries entries
  | _ => True

/-- Every element is well formed. -/
def WellFormedItems : List Value → Prop
  | [] => True
  | v :: rest => WellFormed v ∧ WellFormedItems rest

/-- Every value of an entry is well formed. -/
def WellFormedEntries : List (String × Value) → Prop
  | [] => True
  | (_, v) :: rest => WellFormed v ∧ WellFormedEntries rest

end

end Value

end TypedJson
