/-
  Texts as byte strings.

  A message carries text as UTF-8, and every length on the wire counts bytes.  `utf8` gives the
  bytes of a text as a list, `ofUtf8?` reads them back and refuses byte strings that are not UTF-8.
  `ofUtf8?_eq_some_iff` says that the two are inverse to each other.

  `fitting` is the longest beginning of a text, cut between characters, that stays within a given
  number of bytes (`utf8Size_fitting_le`).
-/

namespace Compositor.Text

/-! ## Bytes of a text -/

/-- The UTF-8 bytes of a text. -/
def utf8 (s : String) : List UInt8 := s.toUTF8.data.toList

/-- The text a byte string spells, when it is UTF-8. -/
def ofUtf8? (bytes : List UInt8) : Option String := String.fromUTF8? ⟨bytes.toArray⟩

theorem ofUtf8?_utf8 (s : String) : ofUtf8? (utf8 s) = some s := by
  have hb : (⟨(utf8 s).toArray⟩ : ByteArray) = s.toByteArray := by simp [utf8, String.toUTF8]
  simp only [ofUtf8?, String.fromUTF8?, hb, dif_pos s.isValidUTF8]
  rfl

theorem eq_utf8_of_ofUtf8? {bytes : List UInt8} {s : String} (h : ofUtf8? bytes = some s) :
    bytes = utf8 s := by
  unfold ofUtf8? String.fromUTF8? at h
  split at h
  · injection h with h
    subst h
    simp [utf8, String.toUTF8, String.fromUTF8]
  · nomatch h

theorem ofUtf8?_eq_some_iff {bytes : List UInt8} {s : String} :
    ofUtf8? bytes = some s ↔ bytes = utf8 s :=
  ⟨eq_utf8_of_ofUtf8?, fun h => h ▸ ofUtf8?_utf8 s⟩

/-! ## Cutting a text to a number of bytes -/

/-- The number of bytes a list of characters takes in UTF-8. -/
def utf8Size : List Char → Nat
  | [] => 0
  | c :: cs => c.utf8Size + utf8Size cs

/-- The longest beginning that takes at most `room` bytes. -/
def fitting (room : Nat) : List Char → List Char
  | [] => []
  | c :: cs => if c.utf8Size ≤ room then c :: fitting (room - c.utf8Size) cs else []

theorem utf8Size_fitting_le (room : Nat) (cs : List Char) : utf8Size (fitting room cs) ≤ room := by
  induction cs generalizing room with
  | nil => simp [fitting, utf8Size]
  | cons c cs ih =>
    unfold fitting
    split
    · have := ih (room - c.utf8Size)
      simp only [utf8Size]
      omega
    · simp [utf8Size]

theorem exists_eq_fitting_append (room : Nat) (cs : List Char) : ∃ rest, cs = fitting room cs ++ rest := by
  induction cs generalizing room with
  | nil => exact ⟨[], rfl⟩
  | cons c cs ih =>
    unfold fitting
    split
    · obtain ⟨rest, h⟩ := ih (room - c.utf8Size)
      exact ⟨rest, by rw [List.cons_append, ← h]⟩
    · exact ⟨c :: cs, rfl⟩

end Compositor.Text
