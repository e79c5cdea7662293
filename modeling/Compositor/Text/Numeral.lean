/-
  Numerals: natural numbers as digits and back.

  `decimal` and `hex` print; `ofDigits?` reads a non-empty run of digits in a base up to 16.
  `ofDigits?` looks at nothing but its digits: signs, separators and limits belong to the formats
  that use it.
-/

namespace Compositor.Text

/-- The value of a digit, letters standing for ten to fifteen in either case. -/
def digitValue? (c : Char) : Option Nat :=
  if '0' ≤ c ∧ c ≤ '9' then some (c.toNat - '0'.toNat)
  else if 'a' ≤ c ∧ c ≤ 'f' then some (c.toNat - 'a'.toNat + 10)
  else if 'A' ≤ c ∧ c ≤ 'F' then some (c.toNat - 'A'.toNat + 10)
  else none

/-- The value of a digit of base `base`. -/
def digit? (base : Nat) (c : Char) : Option Nat := (digitValue? c).filter (· < base)

/-- Is this one of the ten decimal digits? -/
def isDigit (c : Char) : Bool := '0' ≤ c && c ≤ '9'

/-- Continues a numeral whose digits so far have the value `value`. -/
def continueDigits? (base : Nat) : Nat → List Char → Option Nat
  | value, [] => some value
  | value, c :: cs =>
    match digit? base c with
    | some d => continueDigits? base (value * base + d) cs
    | none => none

/-- The number that a non-empty run of digits stands for. -/
def ofDigits? (base : Nat) : List Char → Option Nat
  | [] => none
  | cs => continueDigits? base 0 cs

/-- The decimal numeral of a number. -/
def decimal (n : Nat) : String := String.ofList (Nat.toDigits 10 n)

/-- The decimal numeral of an integer, with a minus sign below zero. -/
def signedDecimal (n : Int) : String := if n < 0 then "-" ++ decimal n.natAbs else decimal n.natAbs

/-- The hexadecimal numeral of a number, in lower case and without leading zeros. -/
def hex (n : Nat) : String := String.ofList (Nat.toDigits 16 n)

example : ofDigits? 10 "0420".toList = some 420 := by decide +kernel
example : ofDigits? 2 "102".toList = none := by decide +kernel
example : ofDigits? 16 "fF".toList = some 255 := by decide +kernel

end Compositor.Text
