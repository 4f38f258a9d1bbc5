import TypedJson.Failure.Basic
import TypedJson.Value.Equality

/-!
# Equality of failures

Two failures are equal when their paths, the kinds of their causes and all data agree, values being
compared by `Value.eqv`.
-/

namespace TypedJson

mutual

/-- Equality of failures. -/
def Failure.eqv : Failure → Failure → Bool
  | ⟨p, a⟩, ⟨q, b⟩ => decide (p = q) && causeEqv a b

/-- Equality of causes. -/
def causeEqv : Cause Failure → Cause Failure → Bool
  | .typeMismatch e f, .typeMismatch e' f' => e == e' && decide (f = f')
  | .valueMismatch e f, .valueMismatch e' f' => e.eqv e' && Value.eqvInput f f'
  | .shapeMismatch e f, .shapeMismatch e' f' => decide (e = e') && f == f'
  | .missingField n, .missingField n' => n == n'
  | .unionExhausted fs, .unionExhausted fs' => failuresEqv fs fs'
  | .invalidTimestamp f r, .invalidTimestamp f' r' => f == f' && r == r'
  | .duplicateValue i, .duplicateValue i' => i == i'
  | .duplicateKey i, .duplicateKey i' => i == i'
  | .depthExceeded n, .depthExceeded n' => n == n'
  | _, _ => false

/-- Equality of lists of failures. -/
def failuresEqv : List Failure → List Failure → Bool
  | [], [] => true
  | f :: fs, f' :: fs' => f.eqv f' && failuresEqv fs fs'
  | _, _ => false

end

end TypedJson
