/-
# Which levels can be won

A machine emits one word at most, so a level is won by the source texts that emit the right word. To
halt with a word takes one instruction and no cycles. So a level can be won exactly when some output of
one word obeys the law of its skill, and then the text that halts with this word wins it within any
budget.

* `Level.Winnable` : some source text wins the level;
* `Level.attempt_halt` : the text that halts with the right word wins;
* `Skill.HasAnswer` : the skills that an output of one word can obey;
* `Level.winnable_iff_exists_match` : which levels can be won, and how.
-/
import RegisterMachine.Proofs.Assembly.RoundTrip
import RegisterMachine.Proofs.Level.Verdicts
import RegisterMachine.Proofs.Machine.Operands
import RegisterMachine.Proofs.Machine.Output

namespace RegisterMachine

open Text

/-! ## Halting with a word -/

/-- The numeral of a word is a word of a line, after a label or not. -/
theorem Instruction.isWordAfter_text (label : Option String) (word : Word) :
    IsWordAfter label (Word.text word).toList := by
  rw [Word.text, signedNumeral, String.toList_ofList]
  have hmark : ∀ mark : Char, mark.isDigit = false → mark ≠ '-' →
      mark ∉ signedDecimal word.toInt := by
    intro mark hdigit hsign hmem
    rcases mem_signedDecimal hmem with h | h
    · exact Bool.false_ne_true (hdigit.symm.trans h)
    · exact hsign h
  have hseparator : ∀ c ∈ signedDecimal word.toInt, isSeparator c = false := by
    intro c hc
    rcases mem_signedDecimal hc with hdigit | rfl
    · exact isSeparator_of_isDigit hdigit
    · decide
  exact
    { isWord := ⟨signedDecimal_ne_nil word.toInt, hseparator⟩
      noComment := hmark ';' rfl (by decide)
      noLabel := fun _ => hmark ':' rfl (by decide) }

/-- So is the mnemonic of `HLT`. -/
theorem Instruction.isWordAfter_hlt (label : Option String) :
    IsWordAfter label (Opcode.known .hlt).mnemonic.toList := by
  have hmnemonic : (Opcode.known .hlt).mnemonic.toList = ['H', 'L', 'T'] := rfl
  have hseparator : ∀ c ∈ ['H', 'L', 'T'], isSeparator c = false := by
    simp only [List.forall_mem_cons]
    exact ⟨rfl, rfl, rfl, List.forall_mem_nil _⟩
  rw [hmnemonic]
  exact
    { isWord := ⟨List.cons_ne_nil _ _, hseparator⟩
      noComment := by decide
      noLabel := fun _ => by decide }

/-- The instruction that emits a given word. -/
def Instruction.halt (word : Word) : Instruction where
  opcode := some (.known .hlt)
  operands := [Word.text word]
  label := none

theorem Instruction.text_halt (word : Word) : (halt word).text = "HLT " ++ Word.text word := by
  apply String.toList_inj.1
  rw [Instruction.text, String.toList_ofList, String.toList_append]
  simp [chars, labelChars, bodyChars, halt, Opcode.mnemonic, Operation.mnemonic]

theorem Instruction.wellFormed_halt (word : Word) : (halt word).WellFormed where
  bare := by simp [halt]
  opcode := by
    intro opcode hopcode
    cases hopcode
    rfl
  words := by
    intro token htoken
    simp only [words, halt, List.map_cons, List.map_nil, List.mem_cons, List.not_mem_nil,
      or_false] at htoken
    rcases htoken with rfl | rfl
    · exact isWordAfter_hlt none
    · exact isWordAfter_text none word
  label := by simp [halt]

/-- The text that halts with a word. -/
theorem Program.parse_halt (word : Word) :
    Program.parse ("HLT " ++ Word.text word) = .ofInstructions [.halt word] := by
  rw [← Instruction.text_halt]
  exact parse_text (Instruction.wellFormed_halt word)

namespace Level

variable {level : Level} {source : String}

/-- This text halts with the word at its first step, and takes no cycles for it. -/
theorem reached_halt (level : Level) (word : Word) :
    level.reached ("HLT " ++ Word.text word) 1 =
      { level.machine with output := [word], halted := true, pc := 1 } := by
  have hexecutes : Machine.Executes (.ofInstructions [.halt word]) level.machine
      (.ok { level.machine with output := [word], halted := true, pc := 1 }) :=
    .known rfl rfl (.halted (.found rfl (Machine.denotes_text _ word)))
  rw [reached, Program.parse_halt, Machine.after_succ, Machine.after_zero]
  exact Machine.step_of_execute_ok level.isTerminal_machine (Machine.executes_iff.1 hexecutes)

/-- The text that halts with a word wins, when this word obeys the law of the skill. -/
theorem attempt_halt {skill : Skill} {word : Word} (hname : skill.name = level.skillName)
    (haccepts : skill.accepts [word] level.inputs = true) :
    level.attempt ("HLT " ++ Word.text word) = .success skill := by
  have hreached := reached_halt level word
  have hends : level.EndsAt ("HLT " ++ Word.text word) 1 := by
    refine ⟨⟨⟨le_rfl, by omega⟩, Or.inl ?_⟩, fun k hk => hk.1.1⟩
    show (level.reached ("HLT " ++ Word.text word) 1).isTerminal = true
    rw [hreached]
    rfl
  have hwins : level.Wins (level.reached ("HLT " ++ Word.text word) 1) skill := by
    rw [hreached]
    exact ⟨rfl, rfl, hname, haccepts⟩
  exact (Earns.success hends hwins).attempt_eq

/-! ## Winning -/

/-- Some source text wins the level. -/
def Winnable (level : Level) : Prop :=
  ∃ source, (level.attempt source).isSuccess = true

/-- A text that wins emits one word, and this word obeys the law of the skill. -/
theorem exists_accepts_of_isSuccess (h : (level.attempt source).isSuccess = true) :
    ∃ (skill : Skill) (word : Word), skill.name = level.skillName ∧
      skill.accepts [word] level.inputs = true := by
  obtain ⟨verdict, hearned⟩ := exists_earns level source
  rw [hearned.attempt_eq] at h
  cases hearned with
  | @success n skill hends hwins =>
      obtain ⟨hhalted, -, hname, haccepts⟩ := hwins
      have hstart : level.machine.Emits := rfl
      have hemits : (level.reached source n).Emits := Machine.emits_after hstart n
      obtain ⟨word, hword⟩ := hemits.exists_eq hhalted
      rw [hword] at haccepts
      exact ⟨skill, word, hname, haccepts⟩
  | stalled => cases h
  | budgetExceeded => cases h
  | runtimeError => cases h
  | wrongAnswer => cases h

/-- A level can be won exactly when some output of one word obeys the law of its skill. -/
theorem winnable_iff_exists_accepts :
    level.Winnable ↔
      ∃ (skill : Skill) (word : Word), skill.name = level.skillName ∧
      skill.accepts [word] level.inputs = true := by
  constructor
  · rintro ⟨source, h⟩
    exact exists_accepts_of_isSuccess h
  · rintro ⟨skill, word, hname, haccepts⟩
    refine ⟨"HLT " ++ Word.text word, ?_⟩
    rw [attempt_halt hname haccepts]
    rfl

end Level

/-! ## Skills that one word can obey -/

namespace Skill

/-- Whether an output of one word can obey the law of a skill. -/
def HasAnswer (skill : Skill) (inputs : Inputs) : Prop :=
  match skill with
  | countdownBurst => inputs.a = 1
  | fibonacciStrike => False
  | stackFlip => False
  | _ => True

/-- A countdown of one word counts from one. -/
theorem exists_accepts_countdownBurst_iff {inputs : Inputs} :
    (∃ word, countdownBurst.accepts [word] inputs = true) ↔ inputs.a = 1 := by
  have hone : inputs.a.toInt = (1 : Word).toInt ↔ inputs.a = 1 := Int64.toInt_inj
  simp only [accepts, Bool.and_eq_true, decide_eq_true_eq, beq_iff_eq, List.length_singleton]
  constructor
  · rintro ⟨word, hlength, -⟩
    exact hone.1 hlength.symm
  · intro ha
    exact ⟨1, (hone.2 ha).symm, rfl⟩

/-- The skills that an output of one word can obey. -/
theorem exists_accepts_iff_hasAnswer (skill : Skill) (inputs : Inputs) :
    (∃ word, skill.accepts [word] inputs = true) ↔ skill.HasAnswer inputs := by
  cases skill with
  | countdownBurst => exact exists_accepts_countdownBurst_iff
  | fibonacciStrike => simp [accepts, fibonacci, HasAnswer]
  | stackFlip => simp [accepts, HasAnswer]
  | _ => simp [accepts, HasAnswer]

/-- Different skills have different names. -/
theorem name_injective {s t : Skill} (h : s.name = t.name) : s = t := by
  have hfind := find?_name s
  rw [h, find?_name, Option.some.injEq] at hfind
  exact hfind.symm

theorem match?_isSome_iff {output : List Word} {inputs : Inputs} {name : String} :
    (match? output inputs name).isSome = true ↔
      ∃ skill : Skill, skill.name = name ∧ skill.accepts output inputs = true := by
  rw [Option.isSome_iff_exists]
  exact exists_congr fun skill => match?_eq_some_iff

end Skill

namespace Level

variable {level : Level}

/-- The level of a skill can be won exactly when one word can obey the law of the skill. -/
theorem winnable_iff_hasAnswer (skill : Skill) (h : level.skillName = skill.name) :
    level.Winnable ↔ skill.HasAnswer level.inputs := by
  rw [winnable_iff_exists_accepts, ← Skill.exists_accepts_iff_hasAnswer]
  constructor
  · rintro ⟨other, word, hname, haccepts⟩
    have hsame : other = skill := Skill.name_injective (hname.trans h)
    subst hsame
    exact ⟨word, haccepts⟩
  · rintro ⟨word, haccepts⟩
    exact ⟨skill, word, h.symm, haccepts⟩

/-- A level that asks for a skill that there is not cannot be won. -/
theorem not_winnable_of_forall_ne (h : ∀ skill : Skill, skill.name ≠ level.skillName) :
    ¬ level.Winnable := by
  rw [winnable_iff_exists_accepts]
  rintro ⟨skill, word, hname, -⟩
  exact h skill hname

/-- **Which levels can be won.** A level can be won exactly when some output of one word matches its
skill, and then the text that halts with this word wins it within any budget. So no text wins a level
for Fibonacci numbers, for two words or for an unknown skill, a countdown can be won exactly from one,
and a level for any other skill can always be won. -/
theorem winnable_iff_exists_match (level : Level) :
    (level.Winnable ↔
      ∃ word, (Skill.match? [word] level.inputs level.skillName).isSome = true) ∧
    (∀ word, (Skill.match? [word] level.inputs level.skillName).isSome = true →
      ∀ budget,
        ({ level with budget := budget }.attempt ("HLT " ++ Word.text word)).isSuccess = true) ∧
    (level.skillName = "Fibonacci Strike" → ¬ level.Winnable) ∧
    (level.skillName = "Stack Flip" → ¬ level.Winnable) ∧
    ((∀ skill : Skill, skill.name ≠ level.skillName) → ¬ level.Winnable) ∧
    (level.skillName = "Countdown Burst" → (level.Winnable ↔ level.inputs.a = 1)) ∧
    (level.skillName ∈ ["Add Beam", "Sub Strike", "Mul Cannon", "Max Pulse", "Triple Double",
      "Branch Blast", "Square Nuke"] → level.Winnable) := by
  refine ⟨?_, ?_, ?_, ?_, not_winnable_of_forall_ne, ?_, ?_⟩
  · rw [winnable_iff_exists_accepts, exists_comm]
    exact exists_congr fun word => Skill.match?_isSome_iff.symm
  · intro word hmatch budget
    obtain ⟨skill, hname, haccepts⟩ := Skill.match?_isSome_iff.1 hmatch
    have hwins : { level with budget := budget }.attempt ("HLT " ++ Word.text word) =
        .success skill :=
      attempt_halt hname haccepts
    rw [hwins]
    rfl
  · intro h
    exact (winnable_iff_hasAnswer .fibonacciStrike h).1
  · intro h
    exact (winnable_iff_hasAnswer .stackFlip h).1
  · intro h
    exact winnable_iff_hasAnswer .countdownBurst h
  · intro h
    simp only [List.mem_cons, List.not_mem_nil, or_false] at h
    rcases h with h | h | h | h | h | h | h
    · exact (winnable_iff_hasAnswer .addBeam h).2 trivial
    · exact (winnable_iff_hasAnswer .subStrike h).2 trivial
    · exact (winnable_iff_hasAnswer .mulCannon h).2 trivial
    · exact (winnable_iff_hasAnswer .maxPulse h).2 trivial
    · exact (winnable_iff_hasAnswer .tripleDouble h).2 trivial
    · exact (winnable_iff_hasAnswer .branchBlast h).2 trivial
    · exact (winnable_iff_hasAnswer .squareNuke h).2 trivial

/-- The least word is the answer to an addition, and wins without any budget. The levels of the game for
a countdown, for Fibonacci numbers and for the stack cannot be won. -/
theorem winnable_with_least_word :
    ((⟨1, "Addition", "Add Beam", ⟨Int64.minValue, 0⟩, 0, []⟩ : Level).attempt
      "HLT -9223372036854775808").isSuccess = true ∧
    ¬ (⟨5, "Countdown", "Countdown Burst", ⟨5, 0⟩, 25, []⟩ : Level).Winnable ∧
    ¬ (⟨6, "Fibonacci", "Fibonacci Strike", ⟨0, 0⟩, 30, []⟩ : Level).Winnable ∧
    ¬ (⟨7, "Stack Flip", "Stack Flip", ⟨3, 7⟩, 10, []⟩ : Level).Winnable := by
  have hsource : "HLT " ++ Word.text Int64.minValue = "HLT -9223372036854775808" := by
    decide +kernel
  refine ⟨?_, ?_, ?_, ?_⟩
  · rw [← hsource]
    exact (winnable_iff_exists_match ⟨1, "Addition", "Add Beam", ⟨Int64.minValue, 0⟩, 0, []⟩).2.1
      Int64.minValue (by decide +kernel) 0
  · intro hwin
    have hone := ((winnable_iff_exists_match
      ⟨5, "Countdown", "Countdown Burst", ⟨5, 0⟩, 25, []⟩).2.2.2.2.2.1 rfl).1 hwin
    exact absurd hone (by decide)
  · exact (winnable_iff_exists_match
      ⟨6, "Fibonacci", "Fibonacci Strike", ⟨0, 0⟩, 30, []⟩).2.2.1 rfl
  · exact (winnable_iff_exists_match
      ⟨7, "Stack Flip", "Stack Flip", ⟨3, 7⟩, 10, []⟩).2.2.2.1 rfl

end Level

end RegisterMachine
