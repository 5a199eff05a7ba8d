/-
# Blank characters

Which characters separate words on a line, and how a text is trimmed of them:

* `isBlank` : the White_Space property of Unicode;
* `trim` : a text without the blanks at its two ends.

Texts are lists of characters wherever they are taken apart.
-/

namespace RegisterMachine.Text

/-! ## The White_Space property -/

/-- The code points with the White_Space property, as closed ranges, ascending and apart. -/
def blankRanges : List (Nat × Nat) :=
  [(0x09, 0x0D), (0x20, 0x20), (0x85, 0x85), (0xA0, 0xA0), (0x1680, 0x1680), (0x2000, 0x200A),
   (0x2028, 0x2029), (0x202F, 0x202F), (0x205F, 0x205F), (0x3000, 0x3000)]

/-- A character is blank when it has the White_Space property. -/
def isBlank (c : Char) : Bool :=
  blankRanges.any fun range => decide (range.1 ≤ c.toNat) && decide (c.toNat ≤ range.2)

/-! ## Trimming -/

/-- Drops the blanks at the start of a text. -/
def trimStart (text : List Char) : List Char :=
  text.dropWhile isBlank

/-- Drops the blanks at both ends of a text. -/
def trim (text : List Char) : List Char :=
  (trimStart (trimStart text).reverse).reverse

end RegisterMachine.Text
