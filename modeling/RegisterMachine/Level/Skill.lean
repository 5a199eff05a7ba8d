/-
# Skills

A skill is a law on what a program emits, given the two words that it started with. There are ten,
and each is found by its exact name:

* `Skill.accepts` : whether an output obeys the law of a skill;
* `Skill.find?` : the skill with a name;
* `Skill.match?` : the skill with a name, if the output obeys its law. No other skill is tried.
-/
import RegisterMachine.Word

namespace RegisterMachine

/-- The words in `AX` and `BX` at the start. -/
structure Inputs where
  a : Word
  b : Word
  deriving DecidableEq, Repr

/-- What a program is asked to do. -/
inductive Skill
  | addBeam
  | subStrike
  | mulCannon
  | maxPulse
  | countdownBurst
  | fibonacciStrike
  | stackFlip
  | tripleDouble
  | branchBlast
  | squareNuke
  deriving DecidableEq, Repr

namespace Skill

/-- Every skill. -/
def all : List Skill :=
  [addBeam, subStrike, mulCannon, maxPulse, countdownBurst, fibonacciStrike, stackFlip,
   tripleDouble, branchBlast, squareNuke]

/-! ## What is said about a skill -/

/-- The name of a skill. -/
def name : Skill → String
  | addBeam => "Add Beam"
  | subStrike => "Sub Strike"
  | mulCannon => "Mul Cannon"
  | maxPulse => "Max Pulse"
  | countdownBurst => "Countdown Burst"
  | fibonacciStrike => "Fibonacci Strike"
  | stackFlip => "Stack Flip"
  | tripleDouble => "Triple Double"
  | branchBlast => "Branch Blast"
  | squareNuke => "Square Nuke"

/-- What a player is told to compute. -/
def description : Skill → String
  | addBeam => "Compute AX + BX"
  | subStrike => "Compute AX - BX"
  | mulCannon => "Compute AX * BX"
  | maxPulse => "Output max(AX, BX)"
  | countdownBurst => "Output AX, AX-1, ... down to 1"
  | fibonacciStrike => "Output the first 6 Fibonacci numbers"
  | stackFlip => "Push AX then BX, pop both (outputs BX then AX)"
  | tripleDouble => "Output AX added to itself 3 times (AX * 3)"
  | branchBlast => "Output the larger of AX and BX using a jump"
  | squareNuke => "Output AX * AX"

/-- The damage that a skill does to the boss. -/
def damage (_ : Skill) : Nat :=
  100

/-- All that is said about a skill, on one line. -/
def summary (skill : Skill) : String :=
  "Skill \x7b name: \"" ++ skill.name ++ "\", description: \"" ++ skill.description
    ++ "\", damage: " ++ Text.numeral skill.damage ++ ", .. \x7d"

/-! ## The laws -/

/-- The words from `n` down to one. -/
def countdown : Nat → List Word
  | 0 => []
  | n + 1 => Int64.ofNat (n + 1) :: countdown n

/-- The first six Fibonacci numbers. -/
def fibonacci : List Word :=
  [1, 1, 2, 3, 5, 8]

/-- Whether an output obeys the law of a skill. Arithmetic wraps around as it does in the machine; a
countdown from a negative word is never obeyed. -/
def accepts (skill : Skill) (output : List Word) (inputs : Inputs) : Bool :=
  match skill with
  | addBeam => output == [inputs.a + inputs.b]
  | subStrike => output == [inputs.a - inputs.b]
  | mulCannon => output == [inputs.a * inputs.b]
  | maxPulse => output == [max inputs.a inputs.b]
  | countdownBurst =>
      decide ((output.length : Int) = inputs.a.toInt) && output == countdown output.length
  | fibonacciStrike => output == fibonacci
  | stackFlip => output == [inputs.b, inputs.a]
  | tripleDouble => output == [inputs.a * 3]
  | branchBlast => output == [max inputs.a inputs.b]
  | squareNuke => output == [inputs.a * inputs.a]

/-! ## Skills by name -/

/-- The skill with exactly this name. -/
def find? (name : String) : Option Skill :=
  all.find? fun skill => skill.name = name

/-- The skill with exactly this name, if the output obeys its law. -/
def match? (output : List Word) (inputs : Inputs) (name : String) : Option Skill :=
  (find? name).filter fun skill => skill.accepts output inputs

@[simp] theorem find?_name (skill : Skill) : find? skill.name = some skill := by
  cases skill <;> decide

/-- A name finds a skill exactly when it is the skill's name. -/
theorem find?_eq_some_iff {name : String} {skill : Skill} :
    find? name = some skill ↔ skill.name = name := by
  constructor
  · intro h
    simpa using List.find?_some h
  · rintro rfl
    exact find?_name skill

@[simp] theorem length_countdown (n : Nat) : (countdown n).length = n := by
  induction n with
  | zero => rfl
  | succ n ih => simp [countdown, ih]

end Skill

end RegisterMachine
