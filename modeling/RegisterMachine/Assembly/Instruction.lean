/-
# Instructions

An instruction is what one line of a program says: a label, an opcode and operands, each of which may
be absent. A label alone is a bare label.

* `Instruction.text` : an instruction as it is listed, `label: MNEMONIC first, second`;
* `Instruction.ofLine?` : the instruction of a line. What follows the first `;` is a comment, the
  first `:` ends the label, and words are set apart by blanks and commas.

Reading never fails: a line without label and words holds no instruction, and any other line holds
one, whether the machine knows its opcode or not.
-/
import RegisterMachine.Assembly.Opcode
import RegisterMachine.Text.Split

namespace RegisterMachine

/-- A line of a program. Operands are kept as they are written. -/
structure Instruction where
  opcode : Option Opcode
  operands : List String
  label : Option String
  deriving DecidableEq, Repr

namespace Instruction

/-! ## Writing -/

/-- The label with its colon, and a space if something follows. -/
def labelChars (instruction : Instruction) : List Char :=
  match instruction.label with
  | none => []
  | some label => label.toList ++ if instruction.opcode.isSome then [':', ' '] else [':']

/-- The opcode, a space, and the operands with a comma and a space between them. -/
def bodyChars (instruction : Instruction) : List Char :=
  match instruction.opcode, instruction.operands with
  | none, _ => []
  | some opcode, [] => opcode.mnemonic.toList
  | some opcode, operands =>
      opcode.mnemonic.toList ++ ' ' :: [',', ' '].intercalate (operands.map String.toList)

/-- An instruction as it is listed, character by character. -/
def chars (instruction : Instruction) : List Char :=
  instruction.labelChars ++ instruction.bodyChars

/-- An instruction as it is listed. -/
def text (instruction : Instruction) : String :=
  String.ofList instruction.chars

/-! ## Reading -/

/-- A line without its comment and without the blanks around it. -/
def codeOf (line : List Char) : List Char :=
  Text.trim (line.takeWhile (· ≠ ';'))

/-- The label of a line of code, and the text after it. -/
def labelAndBody (code : List Char) : Option String × List Char :=
  match Text.cut? ':' code with
  | some (label, body) => (some (String.ofList (Text.trim label)), body)
  | none => (none, code)

/-- Without a colon there is no label. -/
theorem labelAndBody_of_notMem {code : List Char} (h : ':' ∉ code) :
    labelAndBody code = (none, code) := by
  rw [labelAndBody, Text.cut?_eq_none_iff.2 h]

/-- The first colon ends the label. -/
theorem labelAndBody_append {label : List Char} (h : ':' ∉ label) (body : List Char) :
    labelAndBody (label ++ ':' :: body) = (some (String.ofList (Text.trim label)), body) := by
  rw [labelAndBody, Text.cut?_eq_some_iff.2 ⟨rfl, h⟩]

/-- The instruction with this label and these words. -/
def ofWords? (label : Option String) : List (List Char) → Option Instruction
  | [] => label.map fun label => { opcode := none, operands := [], label := some label }
  | mnemonic :: operands =>
      some
        { opcode := some (Opcode.ofMnemonic (String.ofList mnemonic))
          operands := operands.map String.ofList
          label := label }

/-- The instruction that a line holds, if it holds one. -/
def ofLine? (line : List Char) : Option Instruction :=
  let (label, body) := labelAndBody (codeOf line)
  ofWords? label (Text.tokens body)

end Instruction

end RegisterMachine
