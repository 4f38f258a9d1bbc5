/-!
# Tables of code points

A class of characters is a list of closed ranges of code points.
-/

namespace TypedJson.Text

/-- Whether a code point lies in one of the ranges. -/
def inRanges (table : List (Nat × Nat)) (code : Nat) : Bool :=
  table.any fun range => decide (range.1 ≤ code) && decide (code ≤ range.2)

theorem inRanges_iff {table : List (Nat × Nat)} {code : Nat} :
    inRanges table code = true ↔ ∃ range ∈ table, range.1 ≤ code ∧ code ≤ range.2 := by
  simp [inRanges]

end TypedJson.Text
