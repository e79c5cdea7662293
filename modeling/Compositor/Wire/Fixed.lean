import Compositor.Text.Numeral
import Compositor.Wire.Binary64

/-
  Signed 24.8 fixed-point numbers.

  The word of a fixed-point argument holds 256 times the number.  `ofBinary64` rounds to the nearest
  such number, ties to even, and saturates at the ends of the range; `toBits` is exact; `toInt` cuts
  toward zero; `text` is the exact decimal, which for these numbers is also the shortest one that
  reads back.
-/

namespace Compositor.Wire

/-- A fixed-point number: the word holds 256 times its value. -/
structure Fixed where
  raw : Int32
deriving DecidableEq, Repr

namespace Fixed

/-! ## From integers and binary64 numbers -/

/-- The nearest word of the range. -/
def clamp (n : Int) : Int32 :=
  if n < -0x80000000 then Int32.ofInt (-0x80000000)
  else if 0x80000000 - 1 < n then Int32.ofInt (0x80000000 - 1)
  else Int32.ofInt n

/-- An integer moved into place; one that does not fit loses its high bits. -/
def ofInt (n : Int32) : Fixed := ⟨n * 256⟩

/-- The nearest fixed-point number, ties to even.  What lies outside the range goes to its nearer
end, and what is no number goes to zero. -/
def ofBinary64 : Binary64 → Fixed
  | .nan => ⟨0⟩
  | .infinite negative => ⟨if negative then clamp (-0x80000000) else clamp (0x80000000)⟩
  | .finite negative m q =>
    let n := roundScaled m (q + 8)
    ⟨clamp (if negative then -(n : Int) else n)⟩

/-! ## To integers, binary64 numbers and text -/

/-- The integer part: the fraction is cut off toward zero. -/
def toInt (f : Fixed) : Int := Int.tdiv f.raw.toInt 256

/-- The same number in binary64, which holds every fixed-point number exactly. -/
def toBits (f : Fixed) : UInt64 := Binary64.bitsOf (f.raw < 0) f.raw.toInt.natAbs (-8)

/-- The digits after the point for `r` parts of 256: exact, without trailing zeros. -/
def fractionDigits (r : Nat) : List Char :=
  let digits := Nat.toDigits 10 (r * 390625)
  let padded := List.replicate (8 - digits.length) '0' ++ digits
  (padded.reverse.dropWhile (· == '0')).reverse

/-- The exact decimal; a point stands only before a fraction. -/
def text (f : Fixed) : String :=
  let n := f.raw.toInt.natAbs
  let sign := if f.raw < 0 then "-" else ""
  let whole := sign ++ Text.decimal (n / 256)
  if n % 256 = 0 then whole else whole ++ "." ++ String.ofList (fractionDigits (n % 256))

end Fixed

end Compositor.Wire
