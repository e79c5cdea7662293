import Compositor.Text.Numeral

/-
  Numerals are read back.

  The decimal numeral of a number is a non-empty run of digits that does not start with a zero, unless it is the
  zero, and `ofDigits?` finds the number in it again.
-/

namespace Compositor.Text

variable {c : Char} {n : Nat}

theorem digit?_of_isDigit (h : isDigit c) : digit? 10 c = some (c.toNat - '0'.toNat) := by
  have hrange : '0' ≤ c ∧ c ≤ '9' := by
    simpa [isDigit] using h
  have hle : c.toNat ≤ 57 := hrange.2
  unfold digit? digitValue?
  rw [if_pos hrange, Option.filter_some, if_pos]
  rw [decide_eq_true_eq, show '0'.toNat = 48 from rfl]
  omega

/-- Digits carry the value so far on to the value of the whole numeral. -/
theorem continueDigits?_eq {ds : List Char} (h : ∀ c ∈ ds, isDigit c) (value : Nat) :
    continueDigits? 10 value ds = some (Nat.ofDigitChars 10 ds value) := by
  induction ds generalizing value with
  | nil => rfl
  | cons c ds ih =>
    have hrest : ∀ c ∈ ds, isDigit c := fun c hc => h c (List.mem_cons_of_mem _ hc)
    rw [continueDigits?, digit?_of_isDigit (h c List.mem_cons_self), Nat.ofDigitChars_cons,
      Nat.mul_comm 10]
    exact ih hrest _

theorem isDigit_of_mem_toDigits (h : c ∈ Nat.toDigits 10 n) : isDigit c :=
  Nat.isDigit_of_mem_toDigits (by decide) (by decide) h

/-- A number is read back from its numeral. -/
theorem ofDigits?_toDigits (n : Nat) : ofDigits? 10 (Nat.toDigits 10 n) = some n := by
  cases hds : Nat.toDigits 10 n with
  | nil => exact absurd hds Nat.toDigits_ne_nil
  | cons d ds =>
    show continueDigits? 10 0 (d :: ds) = some n
    rw [← hds, continueDigits?_eq (fun c => isDigit_of_mem_toDigits), Nat.ofDigitChars_ten_toDigits]

/-- The numeral of a number above zero does not start with a zero. -/
theorem head?_toDigits_ne_zero (hn : n ≠ 0) : (Nat.toDigits 10 n).head? ≠ some '0' := by
  have hdigit : ∀ k < 10, k ≠ 0 → [k.digitChar].head? ≠ some '0' := by decide
  induction n using Nat.strongRecOn with
  | ind n ih =>
    rw [Nat.toDigits_eq_if (by decide)]
    split
    case isTrue hlt => exact hdigit n hlt hn
    case isFalse hlt =>
      -- the digits in front are the numeral of a smaller number
      cases hfront : Nat.toDigits 10 (n / 10) with
      | nil => exact absurd hfront Nat.toDigits_ne_nil
      | cons d ds =>
        have hd := ih (n / 10) (by omega) (by omega)
        rwa [hfront] at hd

end Compositor.Text
