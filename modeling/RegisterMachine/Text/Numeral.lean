/-
# Decimal numerals

Whole numbers in base ten, written and read:

* `decimal`, `signedDecimal` : the numeral of a number, without leading zeros, with `-` if negative;
* `numeral`, `signedNumeral` : the same as strings;
* `natural?`, `unsigned?`, `signed?` : the number of a numeral. A numeral is one or more ASCII digits,
  leading zeros allowed; an unsigned one may follow one `+`, a signed one a `+` or a `-`.
-/

namespace RegisterMachine.Text

/-! ## Writing -/

/-- The digit of a number below ten. -/
def digit (d : Nat) : Char :=
  Char.ofNat ('0'.toNat + d)

/-- The decimal numeral of a natural number. -/
def decimal (n : Nat) : List Char :=
  if n < 10 then [digit n] else decimal (n / 10) ++ [digit (n % 10)]

/-- The decimal numeral of an integer. -/
def signedDecimal : Int → List Char
  | .ofNat n => decimal n
  | .negSucc n => '-' :: decimal (n + 1)

/-- The decimal numeral of a natural number as a string. -/
def numeral (n : Nat) : String :=
  String.ofList (decimal n)

/-- The decimal numeral of an integer as a string. -/
def signedNumeral (n : Int) : String :=
  String.ofList (signedDecimal n)

/-! ## Reading -/

/-- The value of a row of digits. -/
def value (digits : List Char) : Nat :=
  digits.foldl (fun n c => 10 * n + (c.toNat - '0'.toNat)) 0

/-- Reads one or more digits. -/
def natural? (text : List Char) : Option Nat :=
  if text ≠ [] ∧ text.all Char.isDigit then some (value text) else none

/-- Reads digits after at most one `+`. -/
def unsigned? : List Char → Option Nat
  | '+' :: digits => natural? digits
  | text => natural? text

/-- Reads digits after at most one sign. -/
def signed? : List Char → Option Int
  | '+' :: digits => (natural? digits).map fun n => (n : Int)
  | '-' :: digits => (natural? digits).map fun n => -(n : Int)
  | text => (natural? text).map fun n => (n : Int)

end RegisterMachine.Text
