import TypedJson.Text.RangeTable

/-!
# Blank characters

The twenty-five code points with the Unicode property `White_Space`.
-/

namespace TypedJson.Text

/-- The ranges of the property. -/
def blankTable : List (Nat × Nat) :=
  [(0x0009, 0x000d), (0x0020, 0x0020), (0x0085, 0x0085), (0x00a0, 0x00a0), (0x1680, 0x1680),
   (0x2000, 0x200a), (0x2028, 0x2029), (0x202f, 0x202f), (0x205f, 0x205f), (0x3000, 0x3000)]

/-- Whether a character is blank. -/
def isBlank (c : Char) : Bool := inRanges blankTable c.toNat

/-- The text after its leading blanks. -/
def skipBlanks (cs : List Char) : List Char := cs.dropWhile isBlank

end TypedJson.Text
