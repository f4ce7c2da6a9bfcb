/-
# Blank text

The characters with the Unicode property White_Space, and the texts made of nothing else.
Names are refused when they are blank, so the boundary cases matter: U+0085, U+00A0, U+2028
and U+3000 are blank, the zero-width U+200B, U+FEFF and U+180E are not, and neither is the
separator U+001C.

* `isBlankChar` is the property itself, a finite list of ranges;
* `isBlank` holds of a text without any other character.
-/

namespace MeshNode.Text

/-- The code points with the property White_Space, as inclusive ranges. -/
def blankRanges : List (Nat × Nat) :=
  [(0x0009, 0x000D), (0x0020, 0x0020), (0x0085, 0x0085), (0x00A0, 0x00A0), (0x1680, 0x1680),
   (0x2000, 0x200A), (0x2028, 0x2029), (0x202F, 0x202F), (0x205F, 0x205F), (0x3000, 0x3000)]

/-- Whether the code point lies in one of the ranges. -/
def inRanges (ranges : List (Nat × Nat)) (n : Nat) : Bool :=
  ranges.any fun r => r.1 ≤ n && n ≤ r.2

/-- Whether a character has the property White_Space. -/
def isBlankChar (c : Char) : Bool := inRanges blankRanges c.toNat

/-- Whether a text consists of white space alone; the empty text does. -/
def isBlank (s : String) : Bool := s.toList.all isBlankChar

end MeshNode.Text
