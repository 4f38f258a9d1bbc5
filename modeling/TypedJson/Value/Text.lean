import TypedJson.Value.Basic

/-!
# The text of a value

Values are written as compact JSON: no blanks, entries in the order of their names, and of strings
only the quote, the backslash and the controls below the space are escaped.
-/

namespace TypedJson.Value

/-- The four hexadecimal digits of a code below `2^16`. -/
def hexCode (code : Nat) : String :=
  let digits := Nat.toDigits 16 code
  String.ofList (List.replicate (4 - digits.length) '0' ++ digits)

/-- The form of a character inside a JSON string. -/
def escapedChar (c : Char) : String :=
  if c = '"' then "\\\""
  else if c = '\\' then "\\\\"
  else if c = '\x08' then "\\b"
  else if c = '\t' then "\\t"
  else if c = '\n' then "\\n"
  else if c = '\x0c' then "\\f"
  else if c = '\r' then "\\r"
  else if c.toNat < 0x20 then "\\u" ++ hexCode c.toNat
  else String.singleton c

/-- A text as a JSON string. -/
def stringText (s : String) : String :=
  "\"" ++ String.join (s.toList.map escapedChar) ++ "\""

/-- Texts one after the other with a comma between neighbours. -/
def commaSeparated : List String → String
  | [] => ""
  | [s] => s
  | s :: rest => s ++ "," ++ commaSeparated rest

mutual

/-- The compact JSON text of a value. -/
def text : Value → String
  | null => "null"
  | bool b => if b then "true" else "false"
  | number n => n.text
  | string s => stringText s
  | array items => "[" ++ commaSeparated (itemTexts items) ++ "]"
  | object entries => "\x7b" ++ commaSeparated (entryTexts entries) ++ "\x7d"

/-- The text of each element. -/
def itemTexts : List Value → List String
  | [] => []
  | v :: rest => text v :: itemTexts rest

/-- The text of each entry. -/
def entryTexts : List (String × Value) → List String
  | [] => []
  | (k, v) :: rest => (stringText k ++ ":" ++ text v) :: entryTexts rest

end

end TypedJson.Value
