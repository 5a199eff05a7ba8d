/-
# The laws of skills in whole numbers

What an output has to be for each skill, said of the numbers that its words stand for. Seven skills ask for
one number, which may not fit a word and is then reduced modulo `2^64`, two ask for a row of numbers, and one
asks for as many numbers as the first input says.

* `Skill.Law` : the law of each skill;
* `Skill.accepts_iff_law` : an output is accepted exactly when it obeys the law;
* `Skill.Law.eq` : no two outputs obey a law for the same inputs;
* `Skill.match?_eq_some_iff_and_unique` : so a name and an output match one skill at most, the one with this
  name, and no name matches two outputs.
-/
import Mathlib.Algebra.Group.Nat.Defs
import RegisterMachine.Proofs.Level.Verdicts

namespace RegisterMachine

/-! ## Words as whole numbers -/

/-- Outputs with the same numbers are equal. -/
theorem Word.map_toInt_inj {s t : List Word} : s.map Int64.toInt = t.map Int64.toInt ↔ s = t :=
  List.map_inj_right fun _ _ h => Int64.toInt_inj.1 h

/-- The larger of two words has the larger number. -/
theorem Word.toInt_max (v w : Word) : (max v w).toInt = max v.toInt w.toInt := by
  have hmax : max v w = if v ≤ w then w else v := rfl
  rw [hmax, Int.max_def]
  simp only [Int64.le_iff_toInt_le]
  split <;> rfl

namespace Skill

/-! ## The laws -/

/-- What an output has to be for a skill. A sum, a difference or a product is reduced to the number from
`-2^63` to `2^63 - 1` that differs from it by a multiple of `2^64`. -/
def Law (skill : Skill) (output : List Word) (inputs : Inputs) : Prop :=
  let a := inputs.a.toInt
  let b := inputs.b.toInt
  match skill with
  | addBeam => output.map Int64.toInt = [(a + b).bmod (2 ^ 64)]
  | subStrike => output.map Int64.toInt = [(a - b).bmod (2 ^ 64)]
  | mulCannon => output.map Int64.toInt = [(a * b).bmod (2 ^ 64)]
  | maxPulse => output.map Int64.toInt = [max a b]
  | countdownBurst =>
      0 ≤ a ∧ output.length = a ∧ ∀ (i : Nat) (h : i < output.length), output[i].toInt = a - i
  | fibonacciStrike => output.map Int64.toInt = [1, 1, 2, 3, 5, 8]
  | stackFlip => output.map Int64.toInt = [b, a]
  | tripleDouble => output.map Int64.toInt = [(3 * a).bmod (2 ^ 64)]
  | branchBlast => output.map Int64.toInt = [max a b]
  | squareNuke => output.map Int64.toInt = [(a * a).bmod (2 ^ 64)]

/-- An output is compared word by word, or number by number. -/
theorem beq_iff_map_toInt {output expected : List Word} {numbers : List Int}
    (h : expected.map Int64.toInt = numbers) :
    (output == expected) = true ↔ output.map Int64.toInt = numbers := by
  rw [beq_iff_eq, ← h, Word.map_toInt_inj]

/-! ## Countdowns -/

/-- The words of a countdown. -/
theorem getElem_countdown (n i : Nat) (h : i < (countdown n).length) :
    (countdown n)[i] = Int64.ofNat (n - i) := by
  induction n generalizing i with
  | zero => exact absurd h (Nat.not_lt_zero i)
  | succ n ih =>
      cases i with
      | zero => rfl
      | succ i =>
          rw [Nat.add_sub_add_right]
          exact ih i (Nat.lt_of_succ_lt_succ h)

/-- A word that is the length of a list counts down in this list by the numbers from itself to one. -/
theorem eq_countdown_iff {output : List Word} {a : Word} (h : (output.length : Int) = a.toInt) :
    output = countdown output.length ↔
      ∀ (i : Nat) (h : i < output.length), output[i].toInt = a.toInt - i := by
  have hnumber : ∀ i < output.length,
      (Int64.ofNat (output.length - i)).toInt = a.toInt - i := by
    intro i hi
    have hbound := a.toInt_lt
    rw [Int64.toInt_ofNat_of_lt (by omega)]
    omega
  constructor
  · intro heq i hi
    rw [List.getElem_of_eq heq hi, getElem_countdown, hnumber i hi]
  · intro hall
    apply List.ext_getElem (length_countdown output.length).symm
    intro i hi _
    rw [getElem_countdown, ← Int64.toInt_inj, hall i hi, hnumber i hi]

/-- A countdown is accepted when it has the length and the numbers that the first input says. -/
theorem accepts_countdownBurst_iff {output : List Word} {inputs : Inputs} :
    countdownBurst.accepts output inputs = true ↔ countdownBurst.Law output inputs := by
  rw [accepts, Bool.and_eq_true, decide_eq_true_eq, beq_iff_eq]
  constructor
  · rintro ⟨hlength, heq⟩
    exact ⟨by omega, hlength, (eq_countdown_iff hlength).1 heq⟩
  · rintro ⟨-, hlength, hall⟩
    exact ⟨hlength, (eq_countdown_iff hlength).2 hall⟩

/-! ## Acceptance -/

/-- **An output is accepted exactly when it obeys the law.** -/
theorem accepts_iff_law {skill : Skill} {output : List Word} {inputs : Inputs} :
    skill.accepts output inputs = true ↔ skill.Law output inputs := by
  cases skill with
  | addBeam => exact beq_iff_map_toInt (congrArg ([·]) (Int64.toInt_add ..))
  | subStrike => exact beq_iff_map_toInt (congrArg ([·]) (Int64.toInt_sub ..))
  | mulCannon => exact beq_iff_map_toInt (congrArg ([·]) (Int64.toInt_mul ..))
  | maxPulse => exact beq_iff_map_toInt (congrArg ([·]) (Word.toInt_max ..))
  | countdownBurst => exact accepts_countdownBurst_iff
  | fibonacciStrike => exact beq_iff_map_toInt rfl
  | stackFlip => exact beq_iff_map_toInt rfl
  | tripleDouble =>
      refine beq_iff_map_toInt (congrArg ([·]) ?_)
      rw [Int64.toInt_mul, Int.mul_comm]
      rfl
  | branchBlast => exact beq_iff_map_toInt (congrArg ([·]) (Word.toInt_max ..))
  | squareNuke => exact beq_iff_map_toInt (congrArg ([·]) (Int64.toInt_mul ..))

/-- No two outputs obey a law for the same inputs. -/
theorem Law.eq {skill : Skill} {output other : List Word} {inputs : Inputs}
    (h : skill.Law output inputs) (hother : skill.Law other inputs) : output = other := by
  cases skill with
  | countdownBurst =>
      obtain ⟨-, hlength, hall⟩ := h
      obtain ⟨-, hlength', hall'⟩ := hother
      have hsame : output.length = other.length := by omega
      apply List.ext_getElem hsame
      intro i hi hi'
      rw [← Int64.toInt_inj, hall i hi, hall' i hi']
  | _ => exact Word.map_toInt_inj.1 (Eq.trans h hother.symm)

/-! ## Countdowns from zero and below -/

/-- A countdown from zero has no words. -/
theorem law_countdownBurst_iff_of_eq_zero {output : List Word} {inputs : Inputs}
    (h : inputs.a.toInt = 0) : countdownBurst.Law output inputs ↔ output = [] := by
  constructor
  · rintro ⟨-, hlength, -⟩
    exact List.length_eq_zero_iff.1 (by omega)
  · rintro rfl
    exact ⟨h.ge, h.symm, fun i hi => absurd hi (Nat.not_lt_zero i)⟩

/-- There is no countdown from a negative word. -/
theorem not_law_countdownBurst_of_neg (output : List Word) {inputs : Inputs}
    (h : inputs.a.toInt < 0) : ¬ countdownBurst.Law output inputs := by
  rintro ⟨hnonneg, -, -⟩
  omega

/-! ## Skills by name -/

/-- The name of a skill matches the outputs that obey its law, and it finds this skill. -/
theorem match?_name_isSome_iff {skill : Skill} {output : List Word} {inputs : Inputs} :
    (match? output inputs skill.name).isSome = true ↔ skill.Law output inputs := by
  rw [match?, find?_name, Option.isSome_filter, Option.any_some, accepts_iff_law]

/-- **Matching is exact.** A name and an output match a skill exactly when the skill has this very name and
the output obeys its law. No two outputs match a name for the same inputs. A countdown from zero is the empty
output, and from a negative word there is none. -/
theorem match?_eq_some_iff_and_unique (inputs : Inputs) (name : String) :
    (∀ output skill, match? output inputs name = some skill ↔
      skill.name = name ∧ skill.Law output inputs) ∧
    (∀ output other, (match? output inputs name).isSome = true →
      (match? other inputs name).isSome = true → output = other) ∧
    (name = "Countdown Burst" →
      (inputs.a.toInt = 0 → ∀ output, (match? output inputs name).isSome = true ↔ output = []) ∧
      (inputs.a.toInt < 0 → ∀ output, match? output inputs name = none)) := by
  refine ⟨?_, ?_, ?_⟩
  · intro output skill
    rw [match?_eq_some_iff, accepts_iff_law]
  · intro output other hsome hother
    obtain ⟨skill, hskill⟩ := Option.isSome_iff_exists.1 hsome
    obtain ⟨rfl, -⟩ := match?_eq_some_iff.1 hskill
    exact (match?_name_isSome_iff.1 hsome).eq (match?_name_isSome_iff.1 hother)
  · intro hname
    have hcountdown : name = countdownBurst.name := hname
    subst hcountdown
    constructor
    · intro hzero output
      rw [match?_name_isSome_iff, law_countdownBurst_iff_of_eq_zero hzero]
    · intro hneg output
      rw [← Option.not_isSome_iff_eq_none, match?_name_isSome_iff]
      exact not_law_countdownBurst_of_neg output hneg

/-- Twice the greatest word is reduced to -2. A countdown from three has three words and no others, and there
is none from -2. -/
theorem match?_countdown_from_three :
    match? [-2] ⟨Int64.maxValue, Int64.maxValue⟩ "Add Beam" = some .addBeam ∧
      (match? [3, 2, 1] ⟨3, 0⟩ "Countdown Burst").isSome = true ∧
      (∀ other, (match? other ⟨3, 0⟩ "Countdown Burst").isSome = true → [3, 2, 1] = other) ∧
      (∀ output, (match? output ⟨0, 0⟩ "Countdown Burst").isSome = true ↔ output = []) ∧
      match? [] ⟨-2, 0⟩ "Countdown Burst" = none := by
  have hthree : (match? [3, 2, 1] ⟨3, 0⟩ "Countdown Burst").isSome = true := by decide +kernel
  obtain ⟨hexact, -, -⟩ := match?_eq_some_iff_and_unique ⟨.maxValue, .maxValue⟩ "Add Beam"
  obtain ⟨-, hunique, -⟩ := match?_eq_some_iff_and_unique ⟨3, 0⟩ "Countdown Burst"
  obtain ⟨-, -, hzero⟩ := match?_eq_some_iff_and_unique ⟨0, 0⟩ "Countdown Burst"
  obtain ⟨-, -, hneg⟩ := match?_eq_some_iff_and_unique ⟨-2, 0⟩ "Countdown Burst"
  refine ⟨(hexact _ _).2 ⟨rfl, rfl⟩, hthree, fun other => hunique _ _ hthree,
    (hzero rfl).1 rfl, (hneg rfl).2 (by decide) _⟩

end Skill

end RegisterMachine
