/-
# The stack

A stack of words, of any height. Depth counts from the top: the word at depth zero is the next one to
be popped.

* `Stack.toList`, `Stack.ofList` : the words from the bottom to the top;
* `Stack.push`, `Stack.pop?`, `Stack.top?` : the upper end;
* `Stack.get?` : the word at a depth; `Stack.at?` : the same by place from the bottom;
* `Cursor` : a walk over the words of a stack that may take the next one at either end.
-/
import RegisterMachine.Word

namespace RegisterMachine

/-- A stack of words; the top one comes first. -/
structure Stack where
  cells : List Word
  deriving DecidableEq, Repr

namespace Stack

/-! ## Words from the bottom to the top -/

/-- The stack without words. -/
def empty : Stack :=
  ⟨[]⟩

/-- The stack of words listed from the bottom to the top. -/
def ofList (words : List Word) : Stack :=
  ⟨words.reverse⟩

/-- The words of a stack from the bottom to the top. -/
def toList (stack : Stack) : List Word :=
  stack.cells.reverse

@[simp] theorem toList_ofList (words : List Word) : (ofList words).toList = words := by
  simp [ofList, toList]

@[simp] theorem ofList_toList (stack : Stack) : ofList stack.toList = stack := by
  simp [ofList, toList]

/-- Stacks with the same words are equal. -/
theorem toList_inj {s t : Stack} : s.toList = t.toList ↔ s = t := by
  constructor
  · intro h
    rw [← ofList_toList s, h, ofList_toList]
  · rintro rfl
    rfl

/-- The number of words. -/
def size (stack : Stack) : Nat :=
  stack.cells.length

@[simp] theorem length_toList (stack : Stack) : stack.toList.length = stack.size := by
  simp [toList, size]

/-- Whether there is no word. -/
def isEmpty (stack : Stack) : Bool :=
  stack.cells.isEmpty

/-! ## The upper end -/

/-- Puts a word on top. -/
def push (stack : Stack) (word : Word) : Stack :=
  ⟨word :: stack.cells⟩

/-- The word on top and the stack below it. -/
def pop? (stack : Stack) : Option (Word × Stack) :=
  match stack.cells with
  | [] => none
  | word :: below => some (word, ⟨below⟩)

/-- The word on top. -/
def top? (stack : Stack) : Option Word :=
  stack.cells.head?

@[simp] theorem toList_push (stack : Stack) (word : Word) :
    (stack.push word).toList = stack.toList ++ [word] := by
  simp [push, toList]

/-- What is popped had been pushed last. -/
theorem pop?_eq_some_iff {stack below : Stack} {word : Word} :
    stack.pop? = some (word, below) ↔ stack = below.push word := by
  cases stack with
  | mk cells =>
      cases below
      cases cells <;> simp [pop?, push]

/-! ## Words by depth -/

/-- The word at a depth. -/
def get? (stack : Stack) (depth : UInt64) : Option Word :=
  stack.cells[depth.toNat]?

/-- The place, counted from the bottom, of the word at a depth, in arithmetic of 64 bits. A depth
below the bottom wraps around to a place beyond the top. -/
def slot (stack : Stack) (depth : UInt64) : UInt64 :=
  UInt64.ofNat stack.size - 1 - depth

/-- The word at a depth, found by its place from the bottom. -/
def at? (stack : Stack) (depth : UInt64) : Option Word :=
  stack.toList[(stack.slot depth).toNat]?

/-- A stack as text, from the bottom to the top, with a bar at the top: `[1 2|]`. -/
def text (stack : Stack) : String :=
  "[" ++ " ".intercalate (stack.toList.map Word.text) ++ "|]"

end Stack

/-! ## Walking over a stack -/

/-- The words of a stack that a walk has not taken yet, from the top down. -/
structure Cursor where
  items : List Word
  deriving DecidableEq, Repr

/-- The end at which a walk takes its next word. -/
inductive Side
  | top
  | bottom
  deriving DecidableEq, Repr

/-- The start of a walk over a stack. -/
def Stack.cursor (stack : Stack) : Cursor :=
  ⟨stack.cells⟩

namespace Cursor

/-- The number of words that are left. -/
def size (cursor : Cursor) : Nat :=
  cursor.items.length

/-- Takes the word at one end, if any is left. -/
def take (cursor : Cursor) : Side → Option Word × Cursor
  | .top => (cursor.items.head?, ⟨cursor.items.tail⟩)
  | .bottom => (cursor.items.getLast?, ⟨cursor.items.dropLast⟩)

/-- The words taken at the given ends one after the other, each with the number of words that are
left after it. -/
def walk (cursor : Cursor) : List Side → List (Option Word × Nat)
  | [] => []
  | side :: sides =>
      let (word, rest) := cursor.take side
      (word, rest.size) :: rest.walk sides

end Cursor

end RegisterMachine
