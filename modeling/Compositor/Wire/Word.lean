/-
  Words and padding.

  A message is a sequence of 32-bit words, lowest byte first.  `Word.bytes` writes a word and
  `Word.ofBytes` reads one; `ofBytes_bytes` and `bytes_ofBytes` say that each undoes the other.
  Texts and arrays are filled up to whole words: `padded` is the length after filling, `padding` the
  number of bytes added.
-/

namespace Compositor.Wire

/-! ## Words -/

namespace Word

/-- The four bytes of a word, lowest first. -/
def bytes (w : UInt32) : List UInt8 :=
  [UInt8.ofNat w.toNat, UInt8.ofNat (w.toNat / 0x100), UInt8.ofNat (w.toNat / 0x10000),
    UInt8.ofNat (w.toNat / 0x1000000)]

/-- The word whose bytes are given, lowest first. -/
def ofBytes (b0 b1 b2 b3 : UInt8) : UInt32 :=
  UInt32.ofNat (b0.toNat + b1.toNat * 0x100 + b2.toNat * 0x10000 + b3.toNat * 0x1000000)

@[simp] theorem length_bytes (w : UInt32) : (bytes w).length = 4 := rfl

theorem toNat_ofBytes (b0 b1 b2 b3 : UInt8) : (ofBytes b0 b1 b2 b3).toNat =
    b0.toNat + b1.toNat * 0x100 + b2.toNat * 0x10000 + b3.toNat * 0x1000000 := by
  have h0 := b0.toNat_lt
  have h1 := b1.toNat_lt
  have h2 := b2.toNat_lt
  have h3 := b3.toNat_lt
  rw [ofBytes, UInt32.toNat_ofNat', Nat.mod_eq_of_lt]
  omega

theorem ofBytes_bytes (w : UInt32) :
    ofBytes (UInt8.ofNat w.toNat) (UInt8.ofNat (w.toNat / 0x100)) (UInt8.ofNat (w.toNat / 0x10000))
      (UInt8.ofNat (w.toNat / 0x1000000)) = w := by
  have h := w.toNat_lt
  apply UInt32.toNat_inj.1
  rw [toNat_ofBytes]
  simp only [UInt8.toNat_ofNat']
  omega

theorem bytes_ofBytes (b0 b1 b2 b3 : UInt8) : bytes (ofBytes b0 b1 b2 b3) = [b0, b1, b2, b3] := by
  have h0 := b0.toNat_lt
  have h1 := b1.toNat_lt
  have h2 := b2.toNat_lt
  have h3 := b3.toNat_lt
  rw [bytes, toNat_ofBytes]
  congr 1
  · apply UInt8.toNat_inj.1; rw [UInt8.toNat_ofNat']; omega
  · congr 1
    · apply UInt8.toNat_inj.1; rw [UInt8.toNat_ofNat']; omega
    · congr 1
      · apply UInt8.toNat_inj.1; rw [UInt8.toNat_ofNat']; omega
      · congr 1
        apply UInt8.toNat_inj.1; rw [UInt8.toNat_ofNat']; omega

end Word

/-! ## Padding -/

/-- A length rounded up to whole words. -/
def padded (len : Nat) : Nat := (len + 3) / 4 * 4

/-- The number of bytes that fill a length up to whole words. -/
def padding (len : Nat) : Nat := padded len - len

/-- A 64-bit length rounded up to whole words, when the result fits 64 bits too. -/
def padded64? (len : Nat) : Option Nat := if len + 3 < 0x10000000000000000 then some (padded len) else none

theorem le_padded (len : Nat) : len ≤ padded len := by unfold padded; omega

theorem padded_lt (len : Nat) : padded len < len + 4 := by unfold padded; omega

theorem padded_mod (len : Nat) : padded len % 4 = 0 := by unfold padded; omega

theorem add_padding (len : Nat) : len + padding len = padded len := by
  have := le_padded len
  unfold padding
  omega

/-- Whatever holds a length in whole words holds its padded length. -/
theorem padded_le_of_le {len n : Nat} (hn : n % 4 = 0) (h : len ≤ n) : padded len ≤ n := by
  unfold padded; omega

example : padded 5 = 8 := by decide
example : padded64? (0x10000000000000000 - 4) = some (0x10000000000000000 - 4) ∧ padded64? (0x10000000000000000 - 3) = none := by decide

end Compositor.Wire
