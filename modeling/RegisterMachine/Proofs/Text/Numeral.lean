/-
# Numerals that are read back

The numeral that is written for a number is read as this number, and so is any other numeral: one or more
digits with leading zeros or without, behind at most one sign.

* `IsNumeral` : the numerals of an integer, by their form;
* `signed?_eq_some_iff` : what is read as an integer are its numerals;
* `value_decimal` : the digits of a natural number have its value;
* `signed?_signedDecimal` : the numeral of an integer is read back;
* `mem_signedDecimal` : a numeral holds digits and signs only, so nothing in it ends a word.
-/
import Mathlib.Data.List.Basic
import Mathlib.Data.List.Induction
import Mathlib.Data.Nat.Digits.Defs
import RegisterMachine.Text.Numeral
import RegisterMachine.Text.Split

namespace RegisterMachine.Text

/-! ## Digits -/

/-- The code point of a digit. -/
theorem toNat_digit {d : Nat} (h : d < 10) : (digit d).toNat = '0'.toNat + d := by
  have hdigits : ∀ d < 10, (digit d).toNat = '0'.toNat + d := by decide
  exact hdigits d h

theorem isDigit_digit {d : Nat} (h : d < 10) : (digit d).isDigit = true := by
  have hdigits : ∀ d < 10, (digit d).isDigit = true := by decide
  exact hdigits d h

/-- The code points of the digits. -/
theorem toNat_of_isDigit {c : Char} (h : c.isDigit = true) : 48 ≤ c.toNat ∧ c.toNat ≤ 57 := by
  simp only [Char.isDigit, Bool.and_eq_true, decide_eq_true_eq, ge_iff_le, UInt32.le_iff_toNat_le] at h
  exact h

/-- A digit is no separator. -/
theorem isSeparator_of_isDigit {c : Char} (h : c.isDigit = true) : isSeparator c = false := by
  obtain ⟨hlow, hhigh⟩ := toNat_of_isDigit h
  have hcomma : c ≠ ',' := by
    rintro rfl
    exact absurd hlow (by decide)
  have hblank : isBlank c = false := by
    -- the blanks before and after the digits
    have hranges : ∀ range ∈ blankRanges, range.2 < 48 ∨ 57 < range.1 := by decide
    refine List.any_eq_false.2 fun range hrange => ?_
    have hapart := hranges range hrange
    simp only [Bool.and_eq_true, decide_eq_true_eq]
    omega
  simp [isSeparator, hblank, hcomma]

/-! ## Natural numbers -/

/-- A further digit makes ten times as much of the digits before it. -/
theorem value_append_digit (digits : List Char) {d : Nat} (h : d < 10) :
    value (digits ++ [digit d]) = 10 * value digits + d := by
  have hdigit : (digit d).toNat - '0'.toNat = d := by
    rw [toNat_digit h]
    omega
  rw [value, List.foldl_append, List.foldl_cons, List.foldl_nil, hdigit]
  rfl

theorem decimal_of_lt {n : Nat} (h : n < 10) : decimal n = [digit n] := by
  rw [decimal, if_pos h]

theorem decimal_of_le {n : Nat} (h : 10 ≤ n) :
    decimal n = decimal (n / 10) ++ [digit (n % 10)] := by
  rw [decimal, if_neg (by omega)]

/-- The digits of a number have its value. -/
theorem value_decimal (n : Nat) : value (decimal n) = n := by
  induction n using Nat.strongRecOn with
  | _ n ih =>
      by_cases hn : n < 10
      · have hone := value_append_digit [] hn
        rw [decimal_of_lt hn]
        simpa [value] using hone
      · have hrest : value (decimal (n / 10)) = n / 10 := ih (n / 10) (by omega)
        rw [decimal_of_le (by omega), value_append_digit _ (by omega), hrest]
        omega

/-- A numeral of a natural number is made of digits. -/
theorem isDigit_of_mem_decimal {n : Nat} {c : Char} (h : c ∈ decimal n) : c.isDigit = true := by
  induction n using Nat.strongRecOn with
  | _ n ih =>
      by_cases hn : n < 10
      · rw [decimal_of_lt hn, List.mem_singleton] at h
        rw [h]
        exact isDigit_digit hn
      · rw [decimal_of_le (by omega), List.mem_append, List.mem_singleton] at h
        rcases h with h | h
        · exact ih (n / 10) (by omega) h
        · rw [h]
          exact isDigit_digit (by omega)

theorem decimal_ne_nil (n : Nat) : decimal n ≠ [] := by
  by_cases hn : n < 10
  · rw [decimal_of_lt hn]
    exact List.cons_ne_nil _ _
  · rw [decimal_of_le (by omega)]
    exact List.append_ne_nil_of_right_ne_nil _ (List.cons_ne_nil _ _)

/-- The numeral of a natural number is read back. -/
theorem natural?_decimal (n : Nat) : natural? (decimal n) = some n := by
  have hdigits : (decimal n).all Char.isDigit = true :=
    List.all_eq_true.2 fun c hc => isDigit_of_mem_decimal hc
  rw [natural?, if_pos ⟨decimal_ne_nil n, hdigits⟩, value_decimal]

/-! ## Integers -/

/-- A numeral that starts with a digit has no sign to be read. -/
theorem signed?_cons_of_isDigit {c : Char} (h : c.isDigit = true) (text : List Char) :
    signed? (c :: text) = (natural? (c :: text)).map fun n => (n : Int) := by
  have hplus : c ≠ '+' := by
    rintro rfl
    exact absurd h (by decide)
  have hminus : c ≠ '-' := by
    rintro rfl
    exact absurd h (by decide)
  rw [signed?]
  · intro digits heq
    exact hplus (List.cons.inj heq).1
  · intro digits heq
    exact hminus (List.cons.inj heq).1

/-- The numeral of an integer is read back. -/
theorem signed?_signedDecimal (n : Int) : signed? (signedDecimal n) = some n := by
  cases n with
  | ofNat n =>
      show signed? (decimal n) = some (n : Int)
      obtain ⟨c, text, hlist⟩ := List.exists_cons_of_ne_nil (decimal_ne_nil n)
      have hdigit : c.isDigit = true := isDigit_of_mem_decimal (hlist ▸ List.mem_cons_self)
      rw [hlist, signed?_cons_of_isDigit hdigit, ← hlist, natural?_decimal]
      rfl
  | negSucc n =>
      show (natural? (decimal (n + 1))).map (fun n => -(n : Int)) = some (Int.negSucc n)
      rw [natural?_decimal]
      rfl

/-- A numeral holds digits, and a sign. -/
theorem mem_signedDecimal {n : Int} {c : Char} (h : c ∈ signedDecimal n) :
    c.isDigit = true ∨ c = '-' := by
  cases n with
  | ofNat n => exact Or.inl (isDigit_of_mem_decimal h)
  | negSucc n =>
      rcases List.mem_cons.1 h with hsign | hdigit
      · exact Or.inr hsign
      · exact Or.inl (isDigit_of_mem_decimal hdigit)

theorem signedDecimal_ne_nil (n : Int) : signedDecimal n ≠ [] := by
  cases n with
  | ofNat n => exact decimal_ne_nil n
  | negSucc n => exact List.cons_ne_nil _ _

/-! ## The grammar of numerals -/

/-- What may stand before the digits of a numeral. -/
inductive Sign
  | absent
  | plus
  | minus
  deriving DecidableEq, Repr

/-- How a sign is written. -/
def Sign.chars : Sign → List Char
  | absent => []
  | plus => ['+']
  | minus => ['-']

/-- The integer of a sign and of what its digits say. -/
def Sign.apply : Sign → Nat → Int
  | absent => fun n => n
  | plus => fun n => n
  | minus => fun n => -n

/-- The numerals of an integer: at most one sign, and one or more digits in base ten, of which the first
counts most. -/
inductive IsNumeral : List Char → Int → Prop
  | mk (sign : Sign) {digits : List Nat} (hne : digits ≠ []) (hdigits : ∀ d ∈ digits, d < 10) :
      IsNumeral (sign.chars ++ digits.map digit) (sign.apply (Nat.ofDigits 10 digits.reverse))

/-- A digit is the digit of a number below ten. -/
theorem exists_eq_digit {c : Char} (h : c.isDigit = true) : ∃ d < 10, c = digit d := by
  obtain ⟨hlow, hhigh⟩ := toNat_of_isDigit h
  have hzero : '0'.toNat + (c.toNat - 48) = c.toNat := by
    show 48 + (c.toNat - 48) = c.toNat
    omega
  refine ⟨c.toNat - 48, by omega, ?_⟩
  rw [digit, hzero, Char.ofNat_toNat]

/-- A row of digits is made of the digits of numbers below ten. -/
theorem exists_eq_map_digit {text : List Char} (h : ∀ c ∈ text, c.isDigit = true) :
    ∃ digits : List Nat, (∀ d ∈ digits, d < 10) ∧ text = digits.map digit := by
  induction text with
  | nil => exact ⟨[], by simp, rfl⟩
  | cons c text ih =>
      obtain ⟨d, hd, rfl⟩ := exists_eq_digit (h c List.mem_cons_self)
      obtain ⟨digits, hdigits, rfl⟩ := ih fun c hc => h c (List.mem_cons_of_mem _ hc)
      exact ⟨d :: digits, List.forall_mem_cons.2 ⟨hd, hdigits⟩, rfl⟩

/-- The value of a row of digits is the number with these digits. -/
theorem value_map_digit {digits : List Nat} (h : ∀ d ∈ digits, d < 10) :
    value (digits.map digit) = Nat.ofDigits 10 digits.reverse := by
  induction digits using List.reverseRecOn with
  | nil => rfl
  | append_singleton digits d ih =>
      have hd : d < 10 := h d (by simp)
      have hrest := ih fun e he => h e (List.mem_append_left _ he)
      rw [List.map_append, List.map_singleton, value_append_digit _ hd, hrest,
        List.reverse_append, List.reverse_singleton, List.singleton_append, Nat.ofDigits_cons,
        Nat.add_comm]

/-- What is read as a natural number are its rows of digits. -/
theorem natural?_eq_some_iff {text : List Char} {n : Nat} :
    natural? text = some n ↔
      ∃ digits : List Nat, digits ≠ [] ∧ (∀ d ∈ digits, d < 10) ∧ text = digits.map digit ∧
        n = Nat.ofDigits 10 digits.reverse := by
  unfold natural?
  constructor
  · intro h
    split at h
    · next hrow =>
        cases h
        obtain ⟨digits, hdigits, rfl⟩ := exists_eq_map_digit (List.all_eq_true.1 hrow.2)
        have hne : digits ≠ [] := by
          rintro rfl
          exact hrow.1 rfl
        exact ⟨digits, hne, hdigits, rfl, value_map_digit hdigits⟩
    · cases h
  · rintro ⟨digits, hne, hdigits, rfl, rfl⟩
    have hall : ∀ c ∈ digits.map digit, c.isDigit = true := by
      intro c hc
      obtain ⟨d, hd, rfl⟩ := List.mem_map.1 hc
      exact isDigit_digit (hdigits d hd)
    rw [if_pos ⟨by simpa using hne, List.all_eq_true.2 hall⟩, value_map_digit hdigits]

/-- What is read as an integer is a sign before what is read as a natural number. -/
theorem exists_signed?_eq (text : List Char) :
    ∃ (sign : Sign) (row : List Char),
      text = sign.chars ++ row ∧ signed? text = (natural? row).map sign.apply := by
  unfold signed?
  split
  · next row =>
      refine ⟨.plus, row, rfl, ?_⟩
      cases natural? row <;> rfl
  · next row =>
      refine ⟨.minus, row, rfl, ?_⟩
      cases natural? row <;> rfl
  · refine ⟨.absent, text, rfl, ?_⟩
    cases natural? text <;> rfl

/-- A sign before a row of digits is read. -/
theorem signed?_append (sign : Sign) {row : List Char} {m : Nat} (h : natural? row = some m) :
    signed? (sign.chars ++ row) = some (sign.apply m) := by
  cases sign with
  | plus =>
      show signed? ('+' :: row) = some (m : Int)
      simp [signed?, h]
  | minus =>
      show signed? ('-' :: row) = some (-(m : Int))
      simp [signed?, h]
  | absent =>
      -- the row starts with a digit, which is no sign
      obtain ⟨digits, hne, hdigits, rfl, -⟩ := natural?_eq_some_iff.1 h
      obtain ⟨d, rest, rfl⟩ := List.exists_cons_of_ne_nil hne
      have hd := isDigit_digit (hdigits d List.mem_cons_self)
      show signed? (digit d :: rest.map digit) = some (m : Int)
      rw [signed?_cons_of_isDigit hd, ← List.map_cons, h]
      rfl

/-- **What is read as an integer are its numerals.** -/
theorem signed?_eq_some_iff {text : List Char} {n : Int} :
    signed? text = some n ↔ IsNumeral text n := by
  constructor
  · intro h
    obtain ⟨sign, row, rfl, hsigned⟩ := exists_signed?_eq text
    rw [hsigned] at h
    obtain ⟨m, hrow, rfl⟩ := Option.map_eq_some_iff.1 h
    obtain ⟨digits, hne, hdigits, rfl, rfl⟩ := natural?_eq_some_iff.1 hrow
    exact .mk sign hne hdigits
  · rintro ⟨sign, hne, hdigits⟩
    exact signed?_append sign (natural?_eq_some_iff.2 ⟨_, hne, hdigits, rfl, rfl⟩)

end RegisterMachine.Text
