/-
# Columns

Texts of a least width, filled up with spaces. A text that is longer already stays as it is; widths
count characters.

* `alignRight`, `alignLeft` : the spaces stand before or after the text.
-/

namespace RegisterMachine.Text

/-- The spaces that a text lacks to the given width. -/
def fill (width : Nat) (text : String) : String :=
  String.ofList (List.replicate (width - text.length) ' ')

/-- Moves a text to the right end of a column. -/
def alignRight (width : Nat) (text : String) : String :=
  fill width text ++ text

/-- Moves a text to the left end of a column. -/
def alignLeft (width : Nat) (text : String) : String :=
  text ++ fill width text

end RegisterMachine.Text
