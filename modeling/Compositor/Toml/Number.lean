import Compositor.Text.Numeral

/-
  Numbers and dates of TOML.

  All readers take a text and give a value with the text that follows it.  Integers have 64 bits and a
  sign, in four bases; of floats and dates only the form is checked, and that a date exists and a
  positive float is finite.
-/

namespace Compositor.Toml

open Compositor.Text (isDigit digit?)

/-- A value: what a setting can be, and anything else. -/
inductive Value where
  | integer (n : Int)
  /-- A text, float, boolean, date, array or table. -/
  | other
deriving DecidableEq, Repr

/-- Reads a value of type `α` off the front of a text. -/
abbrev Reader (α : Type) := List Char → Option (α × List Char)

/-! ## Digits -/

/-- The digits that continue a numeral.  An underscore may stand between two digits. -/
def moreDigits? (isDigit : Char → Bool) : Reader (List Char)
  | [] => some ([], [])
  | ['_'] => none
  | '_' :: d :: cs =>
    if isDigit d then (moreDigits? isDigit cs).map fun (ds, rest) => (d :: ds, rest) else none
  | c :: cs =>
    if isDigit c then (moreDigits? isDigit cs).map fun (ds, rest) => (c :: ds, rest)
    else some ([], c :: cs)

/-- A non-empty run of digits, which may start with zeros. -/
def digits? (isDigit : Char → Bool) : Reader (List Char)
  | c :: cs =>
    if isDigit c then (moreDigits? isDigit cs).map fun (ds, rest) => (c :: ds, rest) else none
  | [] => none

/-- A sign, if there is one: is it a minus? -/
def sign : List Char → Bool × List Char
  | '+' :: cs => (false, cs)
  | '-' :: cs => (true, cs)
  | cs => (false, cs)

/-- The digits of a decimal numeral, which has no superfluous zeros in front. -/
def decimalDigits? : Reader (List Char)
  | '0' :: cs => some (['0'], cs)
  | cs => digits? isDigit cs

/-! ## Integers -/

/-- An integer, if it fits 64 bits. -/
def integerOf? (n : Int) : Option Value :=
  if -0x8000000000000000 ≤ n ∧ n < 0x8000000000000000 then some (.integer n) else none

/-- An integer with a base mark in front, which takes no sign. -/
def basedInteger? (base : Nat) : Reader Value := fun cs => do
  let (ds, rest) ← digits? (fun c => (digit? base c).isSome) cs
  let n ← Text.ofDigits? base ds
  let v ← integerOf? n
  pure (v, rest)

/-- A decimal integer. -/
def decimalInteger? : Reader Value := fun cs => do
  let (negative, cs) := sign cs
  let (ds, rest) ← decimalDigits? cs
  let n ← Text.ofDigits? 10 ds
  let v ← integerOf? (if negative then -(n : Int) else n)
  pure (v, rest)

/-- An integer in any of the four bases. -/
def integer? : Reader Value
  | '0' :: 'x' :: cs => basedInteger? 16 cs
  | '0' :: 'o' :: cs => basedInteger? 8 cs
  | '0' :: 'b' :: cs => basedInteger? 2 cs
  | cs => decimalInteger? cs

/-! ## Floats -/

/-- The exponent of a float. -/
def exponent? : Reader Int
  | c :: cs =>
    if c = 'e' ∨ c = 'E' then do
      let (negative, cs) := sign cs
      let (ds, rest) ← digits? isDigit cs
      let n ← Text.ofDigits? 10 ds
      pure (if negative then -(n : Int) else n, rest)
    else none
  | [] => none

/-- Is `ds · 10 ^ e`, `ds` read as a whole number, too large for binary64?  The least such number is
half a unit above the largest finite one. -/
def overflows (ds : List Char) (e : Int) : Bool :=
  let ds := ds.dropWhile (· == '0')
  let top := (ds.length : Int) + e
  if ds.isEmpty || top < 309 then false
  else if 309 < top then true
  else
    match Text.ofDigits? 10 ds with
    | none => false
    | some n => Nat.pow 2 1024 - Nat.pow 2 970 ≤
      (if 0 ≤ e then n * Nat.pow 10 e.toNat else n / Nat.pow 10 (-e).toNat)

/-- The part of a float that follows its whole digits: fraction digits and exponent, at least one. -/
def floatTail? : Reader (List Char × Int)
  | '.' :: cs => do
    let (fraction, rest) ← digits? isDigit cs
    match rest with
    | c :: _ =>
      if c = 'e' ∨ c = 'E' then do
        let (e, rest) ← exponent? rest
        pure ((fraction, e), rest)
      else pure ((fraction, 0), rest)
    | [] => pure ((fraction, 0), [])
  | cs => do
    let (e, rest) ← exponent? cs
    pure (([], e), rest)

/-- A float with digits. -/
def digitFloat? : Reader Value := fun cs => do
  let (negative, cs) := sign cs
  let (whole, cs) ← decimalDigits? cs
  let ((fraction, e), rest) ← floatTail? cs
  if ! negative && overflows (whole ++ fraction) (e - fraction.length) then none
  else pure (.other, rest)

/-- Takes a word off the front of a text. -/
def word? (word : List Char) : Reader Value := fun cs =>
  if word.isPrefixOf cs then some (.other, cs.drop word.length) else none

/-- A float that is no number of digits. -/
def specialFloat? : Reader Value := fun cs =>
  let cs := (sign cs).2
  (word? "inf".toList cs).or (word? "nan".toList cs)

/-! ## Dates and times -/

/-- Exactly `count` digits, with a value from `low` to `high`. -/
def field? (count low high : Nat) : Reader Nat := fun cs =>
  let ds := cs.take count
  if ds.length = count ∧ ds.all isDigit then
    match Text.ofDigits? 10 ds with
    | some n => if low ≤ n ∧ n ≤ high then some (n, cs.drop count) else none
    | none => none
  else none

/-- Takes a character off the front of a text. -/
def char? (c : Char) : Reader Unit
  | c' :: cs => if c' = c then some ((), cs) else none
  | [] => none

/-- The number of days of a month. -/
def daysOf (year month : Nat) : Nat :=
  if month = 2 then
    if year % 4 = 0 ∧ (year % 100 ≠ 0 ∨ year % 400 = 0) then 29 else 28
  else if month = 4 ∨ month = 6 ∨ month = 9 ∨ month = 11 then 30
  else 31

/-- A date. -/
def date? : Reader Value := fun cs => do
  let (year, cs) ← field? 4 0 9999 cs
  let ((), cs) ← char? '-' cs
  let (month, cs) ← field? 2 1 12 cs
  let ((), cs) ← char? '-' cs
  let (_, cs) ← field? 2 1 (daysOf year month) cs
  pure (.other, cs)

/-- A time of day, with or without a fraction of the second. -/
def time? : Reader Value := fun cs => do
  let (_, cs) ← field? 2 0 23 cs
  let ((), cs) ← char? ':' cs
  let (_, cs) ← field? 2 0 59 cs
  let ((), cs) ← char? ':' cs
  let (_, cs) ← field? 2 0 60 cs
  match cs with
  | '.' :: d :: rest =>
    if isDigit d then pure (.other, rest.dropWhile isDigit) else pure (.other, cs)
  | _ => pure (.other, cs)

/-- What follows a time to say its distance from universal time, if anything. -/
def afterOffset (cs : List Char) : List Char :=
  match cs with
  | c :: rest =>
    if c = 'Z' ∨ c = 'z' then rest
    else if c = '+' ∨ c = '-' then
      match field? 2 0 23 rest with
      | some (_, ':' :: rest) =>
        match field? 2 0 59 rest with
        | some (_, rest) => rest
        | none => cs
      | _ => cs
    else cs
  | [] => []

/-- A date with or without a time, or a time. -/
def dateTime? : Reader Value := fun cs =>
  match date? cs with
  | some (v, rest) =>
    match rest with
    | c :: afterDelimiter =>
      if c = 'T' ∨ c = 't' ∨ c = ' ' then
        match time? afterDelimiter with
        | some (v, rest) => some (v, afterOffset rest)
        | none => some (v, rest)
      else some (v, rest)
    | [] => some (v, [])
  | none => time? cs

/-- A date, a float or an integer: the first of these that the text starts with. -/
def number? : Reader Value := fun cs =>
  (dateTime? cs).or ((digitFloat? cs).or ((specialFloat? cs).or (integer? cs)))

example : number? "1_000 ".toList = some (.integer 1000, [' ']) := by decide +kernel
example : number? "1__0".toList = none := by decide +kernel
example : number? "9223372036854775808".toList = none := by decide +kernel
example : number? "2023-02-29".toList = some (.integer 2023, "-02-29".toList) := by decide +kernel

end Compositor.Toml
