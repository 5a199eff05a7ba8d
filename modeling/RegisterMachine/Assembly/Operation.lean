/-
# Operations

The eleven operations of the machine:

* `mov`, `add`, `sub`, `mul` change a register;
* `cmp` compares, `jmp`, `je`, `jne` jump always, after equality, after inequality;
* `push` and `pop` use the stack;
* `hlt` emits a word and halts.

Each has a mnemonic, by which it is written, and a cost in cycles.
-/

namespace RegisterMachine

/-- What an instruction tells the machine to do. -/
inductive Operation
  | mov
  | add
  | sub
  | mul
  | cmp
  | jmp
  | je
  | jne
  | push
  | pop
  | hlt
  deriving DecidableEq, Repr

namespace Operation

/-- Every operation. -/
def all : List Operation :=
  [mov, add, sub, mul, cmp, jmp, je, jne, push, pop, hlt]

/-! ## Mnemonics -/

/-- The name of an operation, in upper case. -/
def mnemonic : Operation → String
  | mov => "MOV"
  | add => "ADD"
  | sub => "SUB"
  | mul => "MUL"
  | cmp => "CMP"
  | jmp => "JMP"
  | je => "JE"
  | jne => "JNE"
  | push => "PUSH"
  | pop => "POP"
  | hlt => "HLT"

/-- The operation with exactly this mnemonic. -/
def ofMnemonic? (name : String) : Option Operation :=
  all.find? fun operation => operation.mnemonic = name

@[simp] theorem ofMnemonic?_mnemonic (operation : Operation) :
    ofMnemonic? operation.mnemonic = some operation := by
  cases operation <;> decide

/-- A name is read as an operation exactly when it is the operation's mnemonic. -/
theorem ofMnemonic?_eq_some_iff {name : String} {operation : Operation} :
    ofMnemonic? name = some operation ↔ operation.mnemonic = name := by
  constructor
  · intro h
    simpa using List.find?_some h
  · rintro rfl
    exact ofMnemonic?_mnemonic operation

/-! ## Costs -/

/-- The cycles that an operation takes. -/
def cost : Operation → UInt64
  | mul => 3
  | pop => 2
  | hlt => 0
  | _ => 1

/-- No operation takes more than three cycles. -/
theorem cost_le_three (operation : Operation) : operation.cost ≤ 3 := by
  cases operation <;> decide

end Operation

end RegisterMachine
