import TypedJson.Text.GraphemeExtend
import TypedJson.Text.Ignorable
import TypedJson.Text.Unprintable

/-!
# Quoted text

Messages show foreign text between double quotes and in a form that is safe to print: what would
end the quotes, act on the terminal, be invisible or attach to its neighbour is escaped, and
everything else stands for itself.
-/

namespace TypedJson.Text

/-- Lower-case hexadecimal digits. -/
def hex (n : Nat) : String := String.ofList (Nat.toDigits 16 n)

/-- The printed form of a character inside quotes. -/
def quotedChar (c : Char) : String :=
  if c = '\x00' then "\\0"
  else if c = '\t' then "\\t"
  else if c = '\r' then "\\r"
  else if c = '\n' then "\\n"
  else if c = '"' then "\\\""
  else if c = '\\' then "\\\\"
  else if attaches c || isIgnorable c || isUnprintable c then "\\u\x7b" ++ hex c.toNat ++ "\x7d"
  else String.singleton c

/-- A text between double quotes. -/
def quoted (s : String) : String := "\"" ++ String.join (s.toList.map quotedChar) ++ "\""

end TypedJson.Text
