/-
  Binary64 bit patterns as exact numbers.

  `Binary64.ofBits` reads a 64-bit pattern as the dyadic number it denotes: a finite pattern is
  `± m · 2 ^ q`, and nothing is rounded.  `roundHalfEven` is division of natural numbers to the
  nearest integer, ties to the even one; `roundHalfEven_near` and `roundHalfEven_tie` are its laws.
-/

namespace Compositor.Wire

/-- What a binary64 bit pattern denotes. -/
inductive Binary64 where
  | nan
  | infinite (negative : Bool)
  /-- The number `m · 2 ^ q`, negated when `negative` is set. -/
  | finite (negative : Bool) (m : Nat) (q : Int)
deriving DecidableEq, Repr

/-! ## Reading a bit pattern -/

/-- The leading bit of a normal number, which its pattern leaves out. -/
def Binary64.leadingBit : Nat := 0x10000000000000

/-- The number a bit pattern denotes. -/
def Binary64.ofBits (bits : UInt64) : Binary64 :=
  let n : Nat := bits.toNat
  let negative := decide (0x8000000000000000 ≤ n)
  let exponent : Nat := n / leadingBit % 0x800
  let fraction : Nat := n % leadingBit
  if exponent = 2047 then
    if fraction = 0 then .infinite negative else .nan
  else if exponent = 0 then .finite negative fraction (-1074)
  else .finite negative (leadingBit + fraction) ((exponent : Int) - 1075)

/-- The bit pattern of `± n · 2 ^ q`, for `n` below `2 ^ 53` and an exponent in the normal range.
The leading bit of `n` is implied, the others move up to fill the fraction. -/
def Binary64.bitsOf (negative : Bool) (n : Nat) (q : Int) : UInt64 :=
  if n = 0 then 0
  else
    let top := Nat.log2 n
    let sign := if negative then 0x8000000000000000 else 0
    let exponent := (q + top + 1023).toNat
    let fraction := n * Nat.pow 2 (52 - top) - leadingBit
    UInt64.ofNat (sign + exponent * leadingBit + fraction)

/-! ## Rounding to the nearest integer -/

/-- `n / d` to the nearest integer; half-way cases go to the even neighbour. -/
def roundHalfEven (n d : Nat) : Nat :=
  let k := n / d
  let r := n % d
  if 2 * r < d then k
  else if d < 2 * r then k + 1
  else if k % 2 = 0 then k else k + 1

/-- The rounded quotient is within half a unit of the exact one. -/
theorem roundHalfEven_near (n d : Nat) (h : 0 < d) :
    2 * n ≤ 2 * (roundHalfEven n d * d) + d ∧ 2 * (roundHalfEven n d * d) ≤ 2 * n + d := by
  have hr := Nat.mod_lt n h
  have hn := Nat.div_add_mod n d
  have hc : d * (n / d) = n / d * d := Nat.mul_comm _ _
  unfold roundHalfEven
  dsimp only
  split
  · omega
  · split
    · rw [Nat.add_mul, Nat.one_mul]; omega
    · split
      · omega
      · rw [Nat.add_mul, Nat.one_mul]; omega

/-- In a half-way case the result is even. -/
theorem roundHalfEven_tie (n d : Nat) (h : 2 * (n % d) = d) : roundHalfEven n d % 2 = 0 := by
  unfold roundHalfEven
  dsimp only
  rw [if_neg (by omega), if_neg (by omega)]
  split
  · assumption
  · omega

/-- Whole quotients stay as they are. -/
theorem roundHalfEven_exact (k d : Nat) (h : 0 < d) : roundHalfEven (k * d) d = k := by
  unfold roundHalfEven
  simp [Nat.mul_div_cancel _ h, h]

/-- `m · 2 ^ e` to the nearest integer. -/
def roundScaled (m : Nat) (e : Int) : Nat :=
  if 0 ≤ e then m * Nat.pow 2 e.toNat else roundHalfEven m (Nat.pow 2 (-e).toNat)

end Compositor.Wire
