import TypedJson.Failure.Basic
import TypedJson.Value.Text
import TypedJson.Text.Quoted

/-!
# The message of a failure

One line: what went wrong, then ` at ` and the path from the root.
-/

namespace TypedJson

/-- The text of a found value, or the word for its absence. -/
def foundText : Option Value → String
  | some v => v.text
  | none => Kind.absent.text

/-- What went wrong, in words. -/
def Cause.message {ε : Type} : Cause ε → String
  | typeMismatch expected found => "expected " ++ expected ++ ", found " ++ found.text
  | valueMismatch expected found =>
    "expected literal " ++ expected.text ++ ", found " ++ foundText found
  | shapeMismatch expected found => "expected " ++ expected.text ++ ", found " ++ found
  | missingField name => "missing required field " ++ Text.quoted name
  | unionExhausted failures =>
    "no alternative matched (" ++ toString failures.length ++ " tried)"
  | invalidTimestamp found reason => "invalid timestamp " ++ found ++ ": " ++ reason
  | duplicateValue first => "duplicate value, first seen at index " ++ toString first
  | duplicateKey first => "duplicate key, first seen at index " ++ toString first
  | depthExceeded limit => "input nested deeper than " ++ toString limit ++ " levels"

/-- The message of a failure. -/
def Failure.message (failure : Failure) : String :=
  failure.cause.message ++ " at " ++ pathText failure.path

end TypedJson
