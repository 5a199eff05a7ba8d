/-
# Machine words

The numbers that the machine computes with: signed, 64 bits wide, with arithmetic that wraps around.

* `Word.ofInt?` : the word of an integer, when the integer fits;
* `Word.ofNumeral?` : the word that a decimal numeral denotes;
* `Word.text` : the decimal numeral of a word.
-/
import RegisterMachine.Text.Numeral

namespace RegisterMachine

/-- A signed number of 64 bits. -/
abbrev Word := Int64

namespace Word

/-! ## Integers and words -/

/-- The word equal to an integer, for the integers from `-2^63` to `2^63 - 1`. -/
def ofInt? (n : Int) : Option Word :=
  if Int64.minValue.toInt ≤ n ∧ n ≤ Int64.maxValue.toInt then some (Int64.ofInt n) else none

/-- An integer is a word exactly when some word has this value. -/
theorem ofInt?_eq_some_iff {n : Int} {w : Word} : ofInt? n = some w ↔ w.toInt = n := by
  unfold ofInt?
  constructor
  · intro h
    split at h
    · next hn =>
        cases h
        exact Int64.toInt_ofInt_of_le hn.1 (Int.lt_add_one_of_le hn.2)
    · cases h
  · rintro rfl
    rw [if_pos ⟨w.minValue_le_toInt, w.toInt_le⟩]
    simp

@[simp] theorem ofInt?_toInt (w : Word) : ofInt? w.toInt = some w :=
  ofInt?_eq_some_iff.2 rfl

/-! ## Numerals and words -/

/-- Reads a signed decimal numeral; one that is no word is refused, never wrapped around. -/
def ofNumeral? (numeral : String) : Option Word :=
  (Text.signed? numeral.toList).bind ofInt?

/-- The decimal numeral of a word. -/
def text (w : Word) : String :=
  Text.signedNumeral w.toInt

end Word

end RegisterMachine
