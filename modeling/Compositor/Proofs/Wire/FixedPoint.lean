import Mathlib.Algebra.Order.Field.Power
import Mathlib.Data.Rat.Floor
import Mathlib.Tactic.FieldSimp
import Mathlib.Tactic.Linarith
import Mathlib.Tactic.NormNum
import Mathlib.Tactic.Positivity
import Mathlib.Tactic.Ring
import Compositor.Wire.Fixed

/-
  Fixed-point numbers as rational numbers.

  A binary64 pattern denotes a rational number, one of the two ends of the line, or nothing
  (`Binary64.denoted`, from the fields of the pattern).  A fixed-point word denotes its 256th part.  Between the
  two lies one rounding: `NearestEven x n` says that the integer `n` is the nearest one to `x`, the even one of
  two that are equally near.  It keeps the order (`NearestEven.mono`), and so does cutting off at the ends of the
  range, so the word for a number is determined and grows with it (`Fixed.Nearest`).  The conversion computes this
  word, by `roundScaled` (`nearestEven_roundScaled`).

  `faithful_conversions` has both directions, for every pattern and every word.
-/

namespace Compositor.Wire

/-! ## The nearest integer -/

/-- The integer `n` is nearest to `x`; where another one is as near, `n` is the even one. -/
structure NearestEven (x : ℚ) (n : ℤ) : Prop where
  near : |x - n| ≤ 1 / 2
  tie : |x - n| = 1 / 2 → Even n

namespace NearestEven

variable {x y : ℚ} {m n : ℤ}

theorem of_lt (h : |x - n| < 1 / 2) : NearestEven x n := ⟨h.le, fun heq => absurd heq h.ne⟩

theorem intCast (n : ℤ) : NearestEven (n : ℚ) n := by
  apply of_lt
  rw [sub_self, abs_zero]
  norm_num

theorem neg (h : NearestEven x n) : NearestEven (-x) (-n) := by
  have habs : |-x - ((-n : ℤ) : ℚ)| = |x - n| := by
    rw [Int.cast_neg, ← abs_neg]
    congr 1
    ring
  refine ⟨by rw [habs]; exact h.near, fun heq => ?_⟩
  rw [habs] at heq
  exact (h.tie heq).neg

/-- Rounding keeps the order. -/
theorem mono (hm : NearestEven x m) (hn : NearestEven y n) (hxy : x ≤ y) : m ≤ n := by
  by_contra hlt
  have hstep : (n : ℚ) + 1 ≤ m := by
    have hle : n + 1 ≤ m := by omega
    exact_mod_cast hle
  have hx := abs_le.1 hm.near
  have hy := abs_le.1 hn.near
  -- both are half way between two neighbours then, so that both neighbours are even
  have hx_eq : x - m = -(1 / 2) := by linarith
  have hy_eq : y - n = 1 / 2 := by linarith
  have hm_even : Even m := hm.tie (by rw [hx_eq, abs_neg]; norm_num)
  have hn_even : Even n := hn.tie (by rw [hy_eq]; norm_num)
  have hsucc : (m : ℚ) = n + 1 := by linarith
  have hm_eq : m = n + 1 := by exact_mod_cast hsucc
  rw [hm_eq, Int.even_add_one] at hm_even
  exact hm_even hn_even

end NearestEven

/-- Division of natural numbers that rounds half to even rounds their quotient. -/
theorem nearestEven_roundHalfEven (a : ℕ) {d : ℕ} (hd : 0 < d) :
    NearestEven ((a : ℚ) / d) (roundHalfEven a d : ℕ) := by
  have hpos : (0 : ℚ) < d := by exact_mod_cast hd
  have hsplit : (a : ℚ) / d = (a / d : ℕ) + ((a % d : ℕ) : ℚ) / d := by
    have hdiv : (d : ℚ) * (a / d : ℕ) + (a % d : ℕ) = a := by exact_mod_cast Nat.div_add_mod a d
    field_simp
    linarith
  have hrest : (0 : ℚ) ≤ ((a % d : ℕ) : ℚ) / d := by positivity
  have hrest_lt : ((a % d : ℕ) : ℚ) / d < 1 := by
    rw [div_lt_one hpos]
    exact_mod_cast Nat.mod_lt a hd
  -- the remainder against half the divisor, as the definition compares them
  rcases lt_trichotomy (2 * (a % d)) d with hlow | hmid | hhigh
  · have hround : roundHalfEven a d = a / d := if_pos hlow
    have hlt : ((a % d : ℕ) : ℚ) / d < 1 / 2 := by
      have hcast : 2 * ((a % d : ℕ) : ℚ) < d := by exact_mod_cast hlow
      rw [div_lt_div_iff₀ hpos (by norm_num)]
      linarith
    apply NearestEven.of_lt
    rw [hround, hsplit, Int.cast_natCast, add_sub_cancel_left, abs_of_nonneg hrest]
    exact hlt
  · have heven : Even (roundHalfEven a d) := Nat.even_iff.2 (roundHalfEven_tie a d hmid)
    have hhalf : ((a % d : ℕ) : ℚ) / d = 1 / 2 := by
      have hcast : 2 * ((a % d : ℕ) : ℚ) = d := by exact_mod_cast hmid
      rw [div_eq_div_iff hpos.ne' (by norm_num)]
      linarith
    refine ⟨?_, fun _ => by exact_mod_cast heven⟩
    have hnear : roundHalfEven a d = a / d ∨ roundHalfEven a d = a / d + 1 := by
      unfold roundHalfEven
      grind
    rw [hsplit, hhalf, Int.cast_natCast]
    obtain h | h := hnear <;> rw [h] <;> push_cast <;> norm_num
  · have hround : roundHalfEven a d = a / d + 1 := by
      unfold roundHalfEven
      rw [if_neg (by omega), if_pos hhigh]
    have hgt : 1 / 2 < ((a % d : ℕ) : ℚ) / d := by
      have hcast : (d : ℚ) < 2 * ((a % d : ℕ) : ℚ) := by exact_mod_cast hhigh
      rw [div_lt_div_iff₀ (by norm_num) hpos]
      linarith
    apply NearestEven.of_lt
    rw [hround, hsplit, Int.cast_natCast, Nat.cast_succ, add_sub_add_left_eq_sub, abs_lt]
    constructor <;> linarith

/-- Scaling by a power of two and rounding rounds the scaled number. -/
theorem nearestEven_roundScaled (m : ℕ) (e : ℤ) :
    NearestEven ((m : ℚ) * 2 ^ e) (roundScaled m e : ℕ) := by
  unfold roundScaled
  split
  case isTrue he =>
    obtain ⟨k, rfl⟩ := Int.eq_ofNat_of_zero_le he
    have hwhole : (m : ℚ) * 2 ^ (k : ℤ) = ((m * Nat.pow 2 k : ℕ) : ℤ) := by
      rw [zpow_natCast, Int.cast_natCast, Nat.cast_mul, Nat.pow_eq, Nat.cast_pow, Nat.cast_ofNat]
    rw [hwhole]
    exact NearestEven.intCast _
  case isFalse he =>
    obtain ⟨k, rfl⟩ : ∃ k : ℕ, e = -(k : ℤ) := ⟨(-e).toNat, by omega⟩
    have hquotient : (m : ℚ) * 2 ^ (-(k : ℤ)) = (m : ℚ) / (Nat.pow 2 k : ℕ) := by
      rw [zpow_neg, zpow_natCast, Nat.pow_eq, Nat.cast_pow, Nat.cast_ofNat, div_eq_mul_inv]
    rw [hquotient, neg_neg, Int.toNat_natCast]
    exact nearestEven_roundHalfEven m (Nat.two_pow_pos k)

/-! ## What a pattern denotes -/

/-- The line of the rational numbers with its two ends. -/
abbrev Line : Type := WithBot (WithTop ℚ)

/-- A number as a point of the line. -/
def Line.point (x : ℚ) : Line := ((x : WithTop ℚ) : WithBot (WithTop ℚ))

theorem Line.point_le_point {x y : ℚ} : Line.point x ≤ Line.point y ↔ x ≤ y := by
  unfold Line.point
  rw [WithBot.coe_le_coe, WithTop.coe_le_coe]

namespace Binary64

/-- The number that the fields of a pattern denote, on the line with its two ends.  The exponent of
all ones is kept for the ends and for what is no number, and the exponent zero for the numbers
without a leading bit. -/
def denoted (bits : UInt64) : Option Line :=
  let sign : ℚ := if bits.toNat < 2 ^ 63 then 1 else -1
  let exponent : ℕ := bits.toNat / 2 ^ 52 % 2 ^ 11
  let fraction : ℕ := bits.toNat % 2 ^ 52
  if exponent = 2047 then
    if fraction = 0 then some (if bits.toNat < 2 ^ 63 then ⊤ else ⊥) else none
  else if exponent = 0 then some (.point (sign * (fraction / 2 ^ 52) * 2 ^ (-1022 : ℤ)))
  else some (.point (sign * (1 + fraction / 2 ^ 52) * 2 ^ ((exponent : ℤ) - 1023)))

/-- The number of a pattern that has been read. -/
def value : Binary64 → Option Line
  | nan => none
  | infinite negative => some (if negative then ⊥ else ⊤)
  | finite negative m q => some (.point ((if negative then -1 else 1) * (m * 2 ^ q)))

/-- A fraction of 52 digits moves its point by 52 places. -/
theorem two_zpow_sub_width (k : ℤ) : (2 : ℚ) ^ (k - 52) = 2 ^ k / 2 ^ 52 := by
  rw [zpow_sub₀ two_ne_zero]
  rfl

/-- Reading a pattern gives what it denotes. -/
theorem value_ofBits (bits : UInt64) : (ofBits bits).value = denoted bits := by
  have hlead : leadingBit = 2 ^ 52 := rfl
  have hwidth : 0x800 = 2 ^ 11 := rfl
  have hsign : (0x8000000000000000 ≤ bits.toNat) ↔ ¬ bits.toNat < 2 ^ 63 := by omega
  have hsubnormal : ∀ f : ℕ, (f : ℚ) * 2 ^ (-1074 : ℤ) = f / 2 ^ 52 * 2 ^ (-1022 : ℤ) := by
    intro f
    rw [show (-1074 : ℤ) = -1022 - 52 by norm_num, two_zpow_sub_width]
    ring
  have hnormal : ∀ e f : ℕ, ((2 ^ 52 + f : ℕ) : ℚ) * 2 ^ ((e : ℤ) - 1075) =
      (1 + f / 2 ^ 52) * 2 ^ ((e : ℤ) - 1023) := by
    intro e f
    rw [show (e : ℤ) - 1075 = e - 1023 - 52 by ring, two_zpow_sub_width]
    rw [Nat.cast_add, Nat.cast_pow, Nat.cast_ofNat]
    field_simp
  unfold ofBits denoted
  dsimp only
  rw [hlead, hwidth]
  generalize bits.toNat / 2 ^ 52 % 2 ^ 11 = exponent
  generalize bits.toNat % 2 ^ 52 = fraction
  by_cases hpos : bits.toNat < 2 ^ 63
  all_goals
    simp only [hsign, hpos, not_true, not_false_iff, decide_true, decide_false, if_true,
      if_false]
    split_ifs <;> simp only [value, hsubnormal, hnormal, mul_assoc, if_true, if_false, reduceCtorEq]

/-- The fields of a normal number, put together, denote it. -/
theorem denoted_fields (negative : Bool) {e f : ℕ} (he_pos : 0 < e) (he : e < 2047) (hf : f < 2 ^ 52) :
    denoted (UInt64.ofNat ((if negative then 0x8000000000000000 else 0) + e * leadingBit + f)) =
      some (.point ((if negative then -1 else 1) * ((1 + f / 2 ^ 52) * 2 ^ ((e : ℤ) - 1023)))) := by
  have hlead : leadingBit = 2 ^ 52 := rfl
  rw [hlead]
  generalize hword : (if negative then 0x8000000000000000 else 0) + e * 2 ^ 52 + f = word
  have hsign : word < 2 ^ 63 ↔ negative = false := by
    cases negative
    case false =>
      rw [if_neg Bool.false_ne_true] at hword
      exact iff_of_true (by omega) rfl
    case true =>
      rw [if_pos rfl] at hword
      exact iff_of_false (by omega) (by decide)
  have hfit : word < 2 ^ 64 := by
    split at hword <;> omega
  have hexponent : word / 2 ^ 52 % 2 ^ 11 = e := by
    split at hword <;> omega
  have hfraction : word % 2 ^ 52 = f := by
    split at hword <;> omega
  unfold denoted
  dsimp only
  rw [UInt64.toNat_ofNat_of_lt' hfit, hexponent, hfraction, if_neg he.ne, if_neg he_pos.ne', mul_assoc]
  cases negative <;> simp only [hsign, Bool.false_eq_true, reduceCtorEq, if_true, if_false]

/-- The pattern of a number with at most 53 digits denotes it, when its leading digit stands in the
range of the normal exponents. -/
theorem denoted_bitsOf {negative : Bool} {n : ℕ} {q : ℤ} (hn : n < 2 ^ 53) (hlow : -1022 ≤ q)
    (hhigh : q + 52 ≤ 1023) :
    denoted (bitsOf negative n q) =
      some (.point ((if negative then -1 else 1) * (n * 2 ^ q))) := by
  unfold bitsOf
  by_cases hzero : n = 0
  · rw [if_pos hzero, hzero]
    simp [denoted]
  rw [if_neg hzero]
  have htop : Nat.log2 n ≤ 52 := by
    have := (Nat.log2_lt hzero).2 hn
    omega
  have hself := Nat.log2_self_le hzero
  have hlt := Nat.lt_log2_self (n := n)
  dsimp only
  generalize Nat.log2 n = top at *
  -- moved up, the leading digit of `n` is digit 52
  have hpow : 2 ^ top * 2 ^ (52 - top) = 2 ^ 52 := by
    rw [← pow_add, Nat.add_sub_cancel' htop]
  have hlead : leadingBit ≤ n * Nat.pow 2 (52 - top) := by
    calc leadingBit = 2 ^ top * 2 ^ (52 - top) := hpow.symm
      _ ≤ n * Nat.pow 2 (52 - top) := Nat.mul_le_mul_right _ hself
  have hfraction : n * Nat.pow 2 (52 - top) - leadingBit < 2 ^ 52 := by
    have hdouble : n * Nat.pow 2 (52 - top) < 2 ^ (top + 1) * 2 ^ (52 - top) :=
      Nat.mul_lt_mul_of_pos_right hlt (Nat.two_pow_pos _)
    rw [pow_succ, mul_right_comm, hpow] at hdouble
    have : leadingBit = 2 ^ 52 := rfl
    omega
  obtain ⟨e, he⟩ := Int.eq_ofNat_of_zero_le (show 0 ≤ q + top + 1023 by omega)
  rw [denoted_fields negative (by omega) (by omega) hfraction, he, Int.toNat_natCast,
    Nat.cast_sub hlead, show (e : ℤ) - 1023 = q + top by omega, zpow_add₀ two_ne_zero]
  have hmoved : ((n * Nat.pow 2 (52 - top) : ℕ) : ℚ) * 2 ^ (top : ℤ) = n * 2 ^ 52 := by
    rw [zpow_natCast]
    exact_mod_cast (by rw [Nat.pow_eq, mul_assoc, mul_comm (2 ^ _), hpow] :
      n * Nat.pow 2 (52 - top) * 2 ^ top = n * 2 ^ 52)
  have hunit : ((leadingBit : ℕ) : ℚ) = 2 ^ 52 := by
    rw [show leadingBit = 2 ^ 52 from rfl]
    norm_num
  have hpoint : (1 + (((n * Nat.pow 2 (52 - top) : ℕ) : ℚ) - (leadingBit : ℕ)) / 2 ^ 52) *
      (2 ^ q * 2 ^ (top : ℤ)) = n * 2 ^ q := by
    calc _ = (((n * Nat.pow 2 (52 - top) : ℕ) : ℚ) * 2 ^ (top : ℤ)) * 2 ^ q / 2 ^ 52 := by
          rw [hunit]
          ring
      _ = n * 2 ^ q := by
          rw [hmoved]
          field_simp
  rw [hpoint]

end Binary64

/-! ## The range of the words -/

namespace Fixed

/-- Cutting off at the ends of the range. -/
theorem toInt_clamp (n : ℤ) : (clamp n).toInt = max (-2 ^ 31) (min n (2 ^ 31 - 1)) := by
  unfold clamp
  split_ifs with hlow hhigh
  · rw [min_eq_left (by omega), max_eq_left (by omega)]
    rfl
  · rw [min_eq_right (by omega)]
    rfl
  · rw [Int32.toInt_ofInt_of_le (by omega) (by omega), min_eq_left (by omega), max_eq_right (by omega)]

/-- The word for a point of the line: the number times 256, rounded and cut off at the ends of the
range. -/
inductive Nearest : Line → ℤ → Prop
  | below : Nearest ⊥ (-2 ^ 31)
  | number {x : ℚ} {n : ℤ} (h : NearestEven (256 * x) n) :
      Nearest (.point x) (max (-2 ^ 31) (min n (2 ^ 31 - 1)))
  | above : Nearest ⊤ (2 ^ 31 - 1)

/-- The words keep the order of the line. -/
theorem Nearest.mono {x y : Line} {m n : ℤ} (hx : Nearest x m) (hy : Nearest y n) (hxy : x ≤ y) :
    m ≤ n := by
  cases hx with
  | below =>
    cases hy with
    | below => exact le_rfl
    | number _ => exact le_max_left _ _
    | above => norm_num
  | number hm =>
    cases hy with
    | below => exact absurd hxy (by simp [Line.point])
    | number hn =>
      have hle := hm.mono hn (mul_le_mul_of_nonneg_left (Line.point_le_point.1 hxy) (by norm_num))
      omega
    | above => exact max_le (by norm_num) (min_le_right _ _)
  | above =>
    cases hy with
    | below => exact absurd hxy (by simp)
    | number _ => exact absurd hxy (by simp [Line.point])
    | above => exact le_rfl

theorem Nearest.unique {x : Line} {m n : ℤ} (hm : Nearest x m) (hn : Nearest x n) : m = n :=
  le_antisymm (hm.mono hn le_rfl) (hn.mono hm le_rfl)

/-- The conversion gives the word for what was read. -/
theorem nearest_ofBinary64 {b : Binary64} {x : Line} (h : b.value = some x) :
    Nearest x (ofBinary64 b).raw.toInt := by
  cases b with
  | nan => exact absurd h (by simp [Binary64.value])
  | infinite negative =>
    obtain rfl := Option.some.inj h
    cases negative
    case false => exact .above
    case true => exact .below
  | finite negative m q =>
    obtain rfl := Option.some.inj h
    have hmagnitude := nearestEven_roundScaled m (q + 8)
    have hscale : (m : ℚ) * 2 ^ (q + 8) = 256 * (m * 2 ^ q) := by
      rw [zpow_add₀ two_ne_zero]
      ring
    rw [hscale] at hmagnitude
    dsimp only [ofBinary64]
    rw [toInt_clamp]
    apply Nearest.number
    cases negative
    case false =>
      rw [if_neg Bool.false_ne_true, if_neg Bool.false_ne_true, one_mul]
      exact hmagnitude
    case true =>
      rw [if_pos rfl, if_pos rfl, neg_one_mul, mul_neg]
      exact hmagnitude.neg

-- half way between two words: from 1.5 up to 2, from 0.5 down to 0
example : (ofBinary64 (.ofBits 0x3f78000000000000)).raw = 2 := by decide +kernel
example : (ofBinary64 (.ofBits 0x3f60000000000000)).raw = 0 := by decide +kernel

/-- The pattern of a word denotes its 256th part. -/
theorem denoted_toBits (f : Fixed) : Binary64.denoted f.toBits = some (.point (f.raw.toInt / 256)) := by
  have hlow := f.raw.le_toInt
  have hhigh := f.raw.toInt_lt
  have hneg : f.raw < 0 ↔ f.raw.toInt < 0 := Int32.lt_iff_toInt_lt
  unfold toBits
  have hsigned : (if decide (f.raw < 0) then -1 else 1) * (f.raw.toInt.natAbs : ℚ) = f.raw.toInt := by
    by_cases h : f.raw < 0
    · have habs : -(f.raw.toInt.natAbs : ℤ) = f.raw.toInt := by have := hneg.1 h; omega
      rw [if_pos (decide_eq_true h), neg_one_mul, ← Int.cast_natCast, ← Int.cast_neg, habs]
    · have habs : (f.raw.toInt.natAbs : ℤ) = f.raw.toInt := by have := mt hneg.2 h; omega
      rw [if_neg (by rw [decide_eq_true_eq]; exact h), one_mul, ← Int.cast_natCast, habs]
  rw [Binary64.denoted_bitsOf (by omega) (by norm_num) (by norm_num), ← mul_assoc, hsigned, zpow_neg]
  rfl

/-- A word is the one for its 256th part. -/
theorem nearest_self (f : Fixed) : Nearest (.point (f.raw.toInt / 256)) f.raw.toInt := by
  have hlow := f.raw.le_toInt
  have hhigh := f.raw.toInt_lt
  have hwhole : NearestEven (256 * ((f.raw.toInt : ℚ) / 256)) f.raw.toInt := by
    rw [mul_div_cancel₀ _ (by norm_num)]
    exact NearestEven.intCast _
  have hword := Nearest.number hwhole
  rwa [min_eq_left (by omega), max_eq_right (by omega)] at hword

/-- Every word comes back from binary64. -/
theorem ofBinary64_ofBits_toBits (f : Fixed) : ofBinary64 (Binary64.ofBits f.toBits) = f := by
  have hback : Nearest (.point (f.raw.toInt / 256)) (ofBinary64 (Binary64.ofBits f.toBits)).raw.toInt := by
    apply nearest_ofBinary64
    rw [Binary64.value_ofBits, denoted_toBits]
  exact congrArg Fixed.mk (Int32.toInt_inj.1 (hback.unique f.nearest_self))

/-- The integer part is cut off toward zero. -/
theorem toInt_eq (f : Fixed) :
    f.toInt = if 0 ≤ f.raw then ⌊(f.raw.toInt : ℚ) / 256⌋ else ⌈(f.raw.toInt : ℚ) / 256⌉ := by
  have hnonneg : 0 ≤ f.raw ↔ 0 ≤ f.raw.toInt := Int32.le_iff_toInt_le
  unfold toInt
  split
  case isTrue h =>
    have hfloor := Rat.floor_intCast_div_natCast f.raw.toInt 256
    rw [Nat.cast_ofNat] at hfloor
    rw [hfloor, Int.tdiv_eq_ediv_of_nonneg (hnonneg.1 h)]
    rfl
  case isFalse h =>
    have hceil := Rat.ceil_intCast_div_natCast f.raw.toInt 256
    rw [Nat.cast_ofNat] at hceil
    have hneg : 0 ≤ -f.raw.toInt := by have := mt hnonneg.2 h; omega
    rw [hceil, ← Int.tdiv_eq_ediv_of_nonneg hneg, Int.neg_tdiv, neg_neg]
    rfl

/-! ## Both directions -/

/-- What the conversions between binary64 and words, and to integers, answer. -/
structure FaithfulConversions : Prop where
  /-- The word is the nearest one to the number, the even one of two that are equally near, and an
  end of the range for what lies beyond it. -/
  rounds : ∀ bits x, Binary64.denoted bits = some x →
    Nearest x (ofBinary64 (Binary64.ofBits bits)).raw.toInt
  /-- What is no number becomes zero. -/
  blank : ∀ bits, Binary64.denoted bits = none → ofBinary64 (Binary64.ofBits bits) = ⟨0⟩
  /-- A greater number never has a smaller word. -/
  mono : ∀ bits bits' x y, Binary64.denoted bits = some x → Binary64.denoted bits' = some y → x ≤ y →
    (ofBinary64 (Binary64.ofBits bits)).raw ≤ (ofBinary64 (Binary64.ofBits bits')).raw
  /-- The way to binary64 loses nothing, -/
  exact : ∀ f : Fixed, Binary64.denoted f.toBits = some (.point (f.raw.toInt / 256))
  /-- and the way back finds the word again. -/
  back : ∀ f : Fixed, ofBinary64 (Binary64.ofBits f.toBits) = f
  /-- The integer part is cut off toward zero. -/
  truncates : ∀ f : Fixed,
    f.toInt = if 0 ≤ f.raw then ⌊(f.raw.toInt : ℚ) / 256⌋ else ⌈(f.raw.toInt : ℚ) / 256⌉

theorem faithful_conversions : FaithfulConversions where
  rounds bits x h := nearest_ofBinary64 (by rw [Binary64.value_ofBits, h])
  blank bits h := by
    rw [← Binary64.value_ofBits] at h
    cases hread : Binary64.ofBits bits with
    | nan => rfl
    | infinite negative => rw [hread] at h; exact absurd h (Option.some_ne_none _)
    | finite negative m q => rw [hread] at h; exact absurd h (Option.some_ne_none _)
  mono bits bits' x y hx hy hxy := by
    have hword := nearest_ofBinary64 (by rw [Binary64.value_ofBits, hx])
    have hword' := nearest_ofBinary64 (by rw [Binary64.value_ofBits, hy])
    exact Int32.le_iff_toInt_le.2 (hword.mono hword' hxy)
  exact := denoted_toBits
  back := ofBinary64_ofBits_toBits
  truncates := toInt_eq

end Fixed

end Compositor.Wire
