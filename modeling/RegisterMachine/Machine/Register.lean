/-
# Registers

The machine has five registers, `AX`, `BX`, `CX`, `DX` and `SP`, each of which holds a word. Register
names are matched exactly: `ax` names no register.

* `Register` : the names; `Registers` : the register file, a word for each name;
* `Registers.get`, `Registers.set` : reading and writing one register;
* `Registers.initial` : all zero but `SP`, which starts at sixteen.
-/
import RegisterMachine.Word

namespace RegisterMachine

/-! ## Names -/

/-- One of the five registers. -/
inductive Register
  | ax
  | bx
  | cx
  | dx
  | sp
  deriving DecidableEq, Repr

namespace Register

/-- Every register, in the order in which they are shown. -/
def all : List Register :=
  [ax, bx, cx, dx, sp]

/-- The name of a register, in upper case. -/
def name : Register → String
  | ax => "AX"
  | bx => "BX"
  | cx => "CX"
  | dx => "DX"
  | sp => "SP"

/-- The register with exactly this name. -/
def ofName? (name : String) : Option Register :=
  all.find? fun register => register.name = name

@[simp] theorem ofName?_name (register : Register) : ofName? register.name = some register := by
  cases register <;> decide

/-- A text is read as a register exactly when it is the register's name. -/
theorem ofName?_eq_some_iff {name : String} {register : Register} :
    ofName? name = some register ↔ register.name = name := by
  constructor
  · intro h
    simpa using List.find?_some h
  · rintro rfl
    exact ofName?_name register

end Register

/-! ## The register file -/

/-- A word for each register. -/
structure Registers where
  ax : Word
  bx : Word
  cx : Word
  dx : Word
  sp : Word
  deriving DecidableEq, Repr

namespace Registers

/-- All registers are zero at the start, except `SP`. -/
def initial : Registers :=
  { ax := 0, bx := 0, cx := 0, dx := 0, sp := 16 }

/-- The word in a register. -/
def get (registers : Registers) : Register → Word
  | .ax => registers.ax
  | .bx => registers.bx
  | .cx => registers.cx
  | .dx => registers.dx
  | .sp => registers.sp

/-- Puts a word into a register. -/
def set (registers : Registers) (register : Register) (word : Word) : Registers :=
  match register with
  | .ax => { registers with ax := word }
  | .bx => { registers with bx := word }
  | .cx => { registers with cx := word }
  | .dx => { registers with dx := word }
  | .sp => { registers with sp := word }

@[simp] theorem get_set_self (registers : Registers) (register : Register) (word : Word) :
    (registers.set register word).get register = word := by
  cases register <;> rfl

/-- Writing a register leaves the others alone. -/
theorem get_set_of_ne (registers : Registers) {r s : Register} (word : Word) (h : s ≠ r) :
    (registers.set r word).get s = registers.get s := by
  revert h
  cases r <;> cases s <;> simp [get, set]

/-- A register file is determined by what its registers hold. -/
theorem ext_get {s t : Registers} (h : ∀ register, s.get register = t.get register) : s = t := by
  cases s
  cases t
  simp only [Registers.mk.injEq]
  exact ⟨h .ax, h .bx, h .cx, h .dx, h .sp⟩

/-- The register file as text, `AX=0 BX=0 CX=0 DX=0 SP=16`. -/
def text (registers : Registers) : String :=
  " ".intercalate
    (Register.all.map fun register => register.name ++ "=" ++ Word.text (registers.get register))

/-- The text of a register file, register by register. -/
theorem text_eq (registers : Registers) :
    registers.text =
      "AX=" ++ Word.text registers.ax ++ " BX=" ++ Word.text registers.bx ++ " CX="
        ++ Word.text registers.cx ++ " DX=" ++ Word.text registers.dx ++ " SP="
        ++ Word.text registers.sp := by
  apply String.toList_inj.1
  simp [text, Register.all, get, Register.name]

end Registers

end RegisterMachine
