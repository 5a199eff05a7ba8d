/-
# What tokens stand for

A token is a register, or a literal word, or it is refused. It is a register when it is the name of one,
and a literal when it is a decimal numeral of an integer that fits a word.

* `Word.signed?_text` : the numeral of a word is read back;
* `Machine.denotes_text` : it is the name of no register, so it denotes the word;
* `Register.not_isNumeral_name` : the name of a register is no numeral;
* `Register.names` : the names of the registers;
* `Operand.ofToken?_eq_register_iff`, `ofToken?_eq_literal_iff`, `ofToken?_eq_none_iff` : the tokens of
  registers, those of literals, and all others;
* `Operand.ofToken?_and_read_and_destination` : what a token is, and what comes of reading it and of writing
  to it.
-/
import RegisterMachine.Proofs.Machine.Rules
import RegisterMachine.Proofs.Text.Numeral

namespace RegisterMachine

open Text

/-! ## Numerals of words -/

/-- The numeral of a word is read back. -/
theorem Word.signed?_text (word : Word) : signed? (Word.text word).toList = some word.toInt := by
  rw [Word.text, signedNumeral, String.toList_ofList]
  exact signed?_signedDecimal word.toInt

/-- A plus before it does not matter, where a minus is not. -/
theorem Word.isNumeral_plus_text {word : Word} (h : 0 ≤ word.toInt) :
    IsNumeral ("+" ++ Word.text word).toList word.toInt := by
  obtain ⟨n, hn⟩ := Int.eq_ofNat_of_zero_le h
  have hread : natural? (signedNumeral n).toList = some n := by
    rw [signedNumeral, String.toList_ofList]
    exact natural?_decimal n
  rw [Word.text, hn, ← signed?_eq_some_iff, String.toList_append]
  exact signed?_append .plus hread

/-- An integer is a word when it is in the range of words. -/
theorem Word.exists_toInt_eq_iff {n : Int} :
    (∃ word : Word, word.toInt = n) ↔ -2 ^ 63 ≤ n ∧ n ≤ 2 ^ 63 - 1 := by
  constructor
  · rintro ⟨word, rfl⟩
    have hlow := word.le_toInt
    have hhigh := word.toInt_lt
    omega
  · rintro ⟨hlow, hhigh⟩
    exact ⟨.ofInt n, Int64.toInt_ofInt_of_le hlow (Int.lt_of_le_sub_one hhigh)⟩

/-- What is read as a word are its numerals. -/
theorem Word.ofNumeral?_eq_some_iff {token : String} {word : Word} :
    ofNumeral? token = some word ↔ IsNumeral token.toList word.toInt := by
  unfold ofNumeral?
  rw [Option.bind_eq_some_iff, ← signed?_eq_some_iff]
  constructor
  · rintro ⟨n, hread, hword⟩
    rw [hread, ofInt?_eq_some_iff.1 hword]
  · intro hread
    exact ⟨word.toInt, hread, ofInt?_toInt word⟩

/-! ## Names of registers -/

theorem Register.signed?_name (register : Register) : signed? register.name.toList = none := by
  cases register <;> decide +kernel

/-- The name of a register is no numeral. -/
theorem Register.not_isNumeral_name (register : Register) (n : Int) :
    ¬ IsNumeral register.name.toList n := by
  rw [← signed?_eq_some_iff, register.signed?_name]
  exact Option.some_ne_none n ∘ Eq.symm

/-- No register is named by a numeral. -/
theorem Register.name_ne_text (register : Register) (word : Word) :
    register.name ≠ Word.text word := by
  intro hname
  have hnone := register.signed?_name
  rw [hname, Word.signed?_text] at hnone
  cases hnone

/-- The names of the registers. -/
def Register.names : List String :=
  ["AX", "BX", "CX", "DX", "SP"]

theorem Register.mem_names_iff {token : String} :
    token ∈ names ↔ ∃ register : Register, register.name = token := by
  constructor
  · intro h
    have hnames : token ∈ all.map name := h
    obtain ⟨register, -, hname⟩ := List.mem_map.1 hnames
    exact ⟨register, hname⟩
  · rintro ⟨register, rfl⟩
    cases register <;> decide

theorem Register.notMem_names_iff {token : String} :
    token ∉ names ↔ ∀ register : Register, register.name ≠ token := by
  rw [mem_names_iff, not_exists]

/-- The numeral of a word denotes this word. -/
theorem Machine.denotes_text (registers : Registers) (word : Word) :
    Denotes registers (Word.text word) word :=
  .literal (fun register => register.name_ne_text word) (Word.signed?_text word)

/-! ## Tokens -/

variable {token : String}

theorem Register.ofName?_eq_none_iff :
    ofName? token = none ↔ ∀ register : Register, register.name ≠ token := by
  rw [Option.eq_none_iff_forall_ne_some]
  simp only [ne_eq, ofName?_eq_some_iff]

namespace Operand

/-- A token is a register when it is its name. -/
theorem ofToken?_eq_register_iff {register : Register} :
    ofToken? token = some (.register register) ↔ register.name = token := by
  constructor
  · intro h
    unfold ofToken? at h
    split at h
    · next named hnamed =>
        cases h
        exact Register.ofName?_eq_some_iff.1 hnamed
    · obtain ⟨word, -, hword⟩ := Option.map_eq_some_iff.1 h
      cases hword
  · rintro rfl
    exact ofToken?_name register

/-- A token is a literal when it is a numeral of its word. -/
theorem ofToken?_eq_literal_iff {word : Word} :
    ofToken? token = some (.literal word) ↔ IsNumeral token.toList word.toInt := by
  rw [← Word.ofNumeral?_eq_some_iff]
  unfold ofToken?
  split
  · next named hnamed =>
      -- the name of a register is no numeral
      rw [← Register.ofName?_eq_some_iff.1 hnamed, Word.ofNumeral?_eq_some_iff]
      simp [named.not_isNumeral_name]
  · simp

/-- The integers of literals are in the range of words. -/
theorem exists_ofToken?_eq_literal_iff {n : Int} :
    (∃ word, ofToken? token = some (.literal word) ∧ word.toInt = n) ↔
      IsNumeral token.toList n ∧ -2 ^ 63 ≤ n ∧ n ≤ 2 ^ 63 - 1 := by
  simp only [ofToken?_eq_literal_iff]
  constructor
  · rintro ⟨word, hnumeral, rfl⟩
    exact ⟨hnumeral, Word.exists_toInt_eq_iff.1 ⟨word, rfl⟩⟩
  · rintro ⟨hnumeral, hrange⟩
    obtain ⟨word, rfl⟩ := Word.exists_toInt_eq_iff.2 hrange
    exact ⟨word, hnumeral, rfl⟩

/-- All other tokens are refused: no name, and no numeral in the range. -/
theorem ofToken?_eq_none_iff :
    ofToken? token = none ↔ token ∉ Register.names ∧
      ∀ n, IsNumeral token.toList n → n < -2 ^ 63 ∨ 2 ^ 63 - 1 < n := by
  constructor
  · intro h
    constructor
    · rw [Register.notMem_names_iff]
      intro register hname
      rw [← ofToken?_eq_register_iff, h] at hname
      cases hname
    · intro n hnumeral
      by_contra hout
      obtain ⟨word, hword, -⟩ :=
        exists_ofToken?_eq_literal_iff.2 ⟨hnumeral, by omega, by omega⟩
      rw [h] at hword
      cases hword
  · rintro ⟨hname, hnumeral⟩
    cases h : ofToken? token with
    | none => rfl
    | some operand =>
        cases operand with
        | register register =>
            exact absurd (ofToken?_eq_register_iff.1 h) (Register.notMem_names_iff.1 hname register)
        | literal word =>
            obtain ⟨hword, hlow, hhigh⟩ := exists_ofToken?_eq_literal_iff.1 ⟨word, h, rfl⟩
            have hout := hnumeral word.toInt hword
            omega

/-- The numeral of a word is its literal. -/
theorem ofToken?_text (word : Word) : ofToken? (Word.text word) = some (.literal word) :=
  ofToken?_eq_literal_iff.2 (signed?_eq_some_iff.1 (Word.signed?_text word))

end Operand

/-! ## Reading and writing -/

/-- Reading fails on the tokens that are refused. -/
theorem Registers.read_eq_error_iff {registers : Registers} {fault : Fault} :
    registers.read token = .error fault ↔
      Operand.ofToken? token = none ∧ fault = .invalidOperand token := by
  unfold Registers.read
  cases Operand.ofToken? token with
  | none => simp [eq_comm]
  | some operand => simp

/-- Only a register is written to. -/
theorem Register.destination_eq_ok_iff {register : Register} :
    destination token = .ok register ↔ register.name = token := by
  rw [← ofName?_eq_some_iff]
  unfold destination
  cases ofName? token with
  | none => simp
  | some named => simp

theorem Register.destination_eq_error_iff {fault : Fault} :
    destination token = .error fault ↔
      (∀ register : Register, register.name ≠ token) ∧ fault = .notARegister token := by
  rw [← ofName?_eq_none_iff]
  unfold destination
  cases ofName? token with
  | none => simp [eq_comm]
  | some named => simp

/-- **What tokens stand for.** A token is a register exactly when it is one of the five names, and a literal
exactly when it is a numeral of an integer from `-2^63` to `2^63 - 1`, which the literal then is. It is never
both, and any other token is refused. So the numeral of a word, with or without a plus where it has no minus,
is the literal of this word. Reading fails on the tokens that are refused, and writing on those that are no
registers. -/
theorem Operand.ofToken?_and_read_and_destination (token : String) :
    -- what a token is
    ((∃ register, ofToken? token = some (.register register)) ↔ token ∈ Register.names) ∧
    (∀ register, ofToken? token = some (.register register) ↔ register.name = token) ∧
    (∀ n : Int, (∃ word, ofToken? token = some (.literal word) ∧ word.toInt = n) ↔
      IsNumeral token.toList n ∧ -2 ^ 63 ≤ n ∧ n ≤ 2 ^ 63 - 1) ∧
    (ofToken? token = none ↔
      token ∉ Register.names ∧ ∀ n, IsNumeral token.toList n → n < -2 ^ 63 ∨ 2 ^ 63 - 1 < n) ∧
    ¬ (token ∈ Register.names ∧ ∃ n, IsNumeral token.toList n) ∧
    -- words as tokens
    (∀ word : Word, ofToken? (Word.text word) = some (.literal word) ∧
      (0 ≤ word.toInt → ofToken? ("+" ++ Word.text word) = some (.literal word))) ∧
    -- what comes of reading a token, and of writing to it
    (∀ (registers : Registers) fault, registers.read token = .error fault ↔
      ofToken? token = none ∧ fault = .invalidOperand token) ∧
    (∀ register, Register.destination token = .ok register ↔ register.name = token) ∧
    (∀ register, Register.destination token = .ok register →
      ∀ registers : Registers, registers.read token = .ok (registers.get register)) ∧
    ∀ fault, Register.destination token = .error fault ↔
      token ∉ Register.names ∧ fault = .notARegister token := by
  refine ⟨?_, fun _ => ofToken?_eq_register_iff, fun _ => exists_ofToken?_eq_literal_iff,
    ofToken?_eq_none_iff, ?_, ?_, fun _ _ => Registers.read_eq_error_iff,
    fun _ => Register.destination_eq_ok_iff, ?_, ?_⟩
  · simp only [ofToken?_eq_register_iff, Register.mem_names_iff]
  · rintro ⟨hmem, n, hnumeral⟩
    obtain ⟨register, rfl⟩ := Register.mem_names_iff.1 hmem
    exact register.not_isNumeral_name n hnumeral
  · intro word
    exact ⟨ofToken?_text word, fun h => ofToken?_eq_literal_iff.2 (Word.isNumeral_plus_text h)⟩
  · intro register hregister registers
    rw [← Register.destination_eq_ok_iff.1 hregister, Registers.read_name]
  · intro fault
    rw [Register.destination_eq_error_iff, Register.notMem_names_iff]

/-- The least word is read back, and the number after the greatest one is refused and not wrapped around. A
word may have a plus, and a register that can be written to can be read. -/
theorem Operand.ofToken?_at_limits :
    ofToken? "-9223372036854775808" = some (.literal .minValue) ∧
    ofToken? "9223372036854775808" = none ∧
    0 ≤ Int64.toInt 7 ∧ ofToken? "+7" = some (.literal 7) ∧
    Register.destination "SP" = .ok .sp ∧ Registers.initial.read "SP" = .ok 16 := by
  obtain ⟨-, -, -, hnone, -, -, -⟩ := ofToken?_and_read_and_destination "9223372036854775808"
  obtain ⟨-, -, -, -, -, hwords, -, -, hread, -⟩ := ofToken?_and_read_and_destination "SP"
  have hleast : Word.text .minValue = "-9223372036854775808" := by decide +kernel
  have hseven : "+" ++ Word.text 7 = "+7" := by decide +kernel
  refine ⟨hleast ▸ (hwords .minValue).1, hnone.2 ⟨by decide, fun n hn => ?_⟩, by decide,
    hseven ▸ (hwords 7).2 (by decide), rfl, hread .sp rfl .initial⟩
  have hvalue : signed? "9223372036854775808".toList = some 9223372036854775808 := by
    decide +kernel
  rw [← signed?_eq_some_iff, hvalue] at hn
  cases hn
  exact .inr (by decide)

end RegisterMachine
