/-
# The levels

The ten levels of the game, each with a hint for the player.

* `Level.catalog` : the levels in the order in which they are played;
* `Level.find?` : the level with a number.
-/
import RegisterMachine.Level.Judge

namespace RegisterMachine.Level

/-- The levels of the game. -/
def catalog : List Level :=
  [⟨1, "Addition", Skill.addBeam.name, ⟨3, 4⟩, 5,
    ["; Level 1: Compute AX + BX",
     "; AX = 3, BX = 4",
     "; HLT with the result"]⟩,
   ⟨2, "Subtraction", Skill.subStrike.name, ⟨9, 4⟩, 5,
    ["; Level 2: Compute AX - BX",
     "; AX = 9, BX = 4",
     "; HLT with the result"]⟩,
   ⟨3, "Multiplication", Skill.mulCannon.name, ⟨6, 7⟩, 8,
    ["; Level 3: Compute AX * BX",
     "; AX = 6, BX = 7",
     "; HLT with the result"]⟩,
   ⟨4, "Maximum", Skill.maxPulse.name, ⟨5, 8⟩, 8,
    ["; Level 4: Output the larger of AX and BX",
     "; AX = 5, BX = 8",
     "; Hint: use CMP and JE/JNE"]⟩,
   ⟨5, "Countdown", Skill.countdownBurst.name, ⟨5, 0⟩, 25,
    ["; Level 5: HLT AX, then AX-1, down to 1",
     "; AX = 5  (count from 5 down to 1)",
     "; Hint: use a loop with CMP and JNE"]⟩,
   ⟨6, "Fibonacci", Skill.fibonacciStrike.name, ⟨0, 0⟩, 30,
    ["; Level 6: Output the first 6 Fibonacci numbers",
     "; 1, 1, 2, 3, 5, 8",
     "; Hint: use two registers to track prev and curr"]⟩,
   ⟨7, "Stack Flip", Skill.stackFlip.name, ⟨3, 7⟩, 10,
    ["; Level 7: Push AX then BX onto the stack",
     "; Then POP both (reverse order) and HLT each",
     "; AX = 3, BX = 7",
     "; Expected output: [7, 3]"]⟩,
   ⟨8, "Triple", Skill.tripleDouble.name, ⟨4, 0⟩, 15,
    ["; Level 8: Output AX * 3",
     "; AX = 4",
     "; Hint: ADD AX to itself, then ADD original value again"]⟩,
   ⟨9, "Branch", Skill.branchBlast.name, ⟨7, 3⟩, 10,
    ["; Level 9: Output the larger of AX and BX",
     "; AX = 7, BX = 3",
     "; You MUST use a jump instruction (JE or JNE)"]⟩,
   ⟨10, "Square", Skill.squareNuke.name, ⟨6, 0⟩, 10,
    ["; Level 10: Output AX * AX (AX squared)",
     "; AX = 6",
     "; Hint: MOV BX, AX  then MUL AX, BX"]⟩]

/-- The level with the given number. -/
def find? (number : Nat) : Option Level :=
  catalog.find? fun level => level.number = number

/-- The levels are numbered from one on. -/
theorem catalog_numbers : catalog.map number = (List.range' 1 catalog.length) := by
  decide

/-- Each level asks for a skill that there is. -/
theorem skill?_isSome_of_mem_catalog {level : Level} (h : level ∈ catalog) :
    level.skill?.isSome := by
  have hall : ∀ entry ∈ catalog, entry.skill?.isSome := by
    simp [catalog, skill?]
  exact hall level h

end RegisterMachine.Level
