import Compositor.Text.Utf8

/-
  Characters in UTF-8.

  A text is cut at a number of bytes by going back from there to the nearest boundary between characters.  A
  boundary is told from the byte that follows it: only the first byte of a character does not continue one
  (`isBoundary_iff`).  So going back stops, at the latest at the beginning, and what is before that place is the
  longest beginning of the text, cut between characters, that stays within the number of bytes
  (`boundaryBefore?_utf8`, `utf8_fitting`).
-/

namespace Compositor.Text

/-! ## Bytes of characters -/

/-- Only NUL has a zero byte in its UTF-8 form. -/
theorem zero_mem_utf8EncodeChar (c : Char) : (0 : UInt8) ∈ String.utf8EncodeChar c ↔ c = '\x00' := by
  have hc : c = '\x00' ↔ c.val.toNat = 0 := by
    rw [← Char.val_inj, ← UInt32.toNat_inj]; rfl
  have hz : ∀ n : Nat, (0 : UInt8) = UInt8.ofNat n ↔ n % 256 = 0 := by
    intro n
    rw [← UInt8.toNat_inj, UInt8.toNat_ofNat', eq_comm]
    exact Iff.rfl
  rw [hc]
  unfold String.utf8EncodeChar
  dsimp only
  -- a single byte is the code itself; in longer forms every byte has its top bit set
  split
  · rw [List.mem_singleton, hz]; omega
  · split
    · simp only [List.mem_cons, hz, List.not_mem_nil, or_false]; omega
    · split
      · simp only [List.mem_cons, hz, List.not_mem_nil, or_false]; omega
      · simp only [List.mem_cons, hz, List.not_mem_nil, or_false]; omega

/-- The bytes of a text are the bytes of its characters, one after the other. -/
theorem utf8_eq_flatMap (s : String) : utf8 s = s.toList.flatMap String.utf8EncodeChar := by
  have h : s.toUTF8 = s.toList.utf8Encode := by
    rw [String.utf8Encode_toList]; rfl
  rw [utf8, h, List.utf8Encode, List.data_toByteArray]

/-- Does this byte continue a character? -/
def continues (b : UInt8) : Bool := 0x80 ≤ b.toNat && b.toNat < 0xC0

theorem continues_ofNat_iff (n : Nat) :
    continues (UInt8.ofNat n) = true ↔ 0x80 ≤ n % 256 ∧ n % 256 < 0xC0 := by
  unfold continues
  rw [UInt8.toNat_ofNat', Bool.and_eq_true, decide_eq_true_iff, decide_eq_true_iff]

/-- Of the bytes of a character, all but the first continue it. -/
theorem exists_utf8EncodeChar (c : Char) : ∃ b bs, String.utf8EncodeChar c = b :: bs ∧
    continues b = false ∧ ∀ b' ∈ bs, continues b' = true := by
  have hv := c.val.toNat_lt
  unfold String.utf8EncodeChar
  simp only [Bool.eq_false_iff, ne_eq]
  -- one form for each number of bytes
  split
  · refine ⟨_, _, rfl, ?_, nofun⟩
    rw [continues_ofNat_iff]
    omega
  · split
    · refine ⟨_, _, rfl, ?_⟩
      simp only [List.forall_mem_cons, List.not_mem_nil, false_implies, implies_true, and_true,
        continues_ofNat_iff]
      omega
    · split
      · refine ⟨_, _, rfl, ?_⟩
        simp only [List.forall_mem_cons, List.not_mem_nil, false_implies, implies_true, and_true,
          continues_ofNat_iff]
        omega
      · refine ⟨_, _, rfl, ?_⟩
        simp only [List.forall_mem_cons, List.not_mem_nil, false_implies, implies_true, and_true,
          continues_ofNat_iff]
        omega

/-! ## Sizes -/

theorem utf8ByteSize_ofList (cs : List Char) : (String.ofList cs).utf8ByteSize = utf8Size cs := by
  induction cs with
  | nil => rfl
  | cons c cs ih =>
    rw [String.ofList_cons, String.utf8ByteSize_append, String.utf8ByteSize_singleton, ih]
    rfl

theorem utf8Size_toList (s : String) : utf8Size s.toList = s.utf8ByteSize := by
  rw [← utf8ByteSize_ofList, String.ofList_toList]

theorem utf8Size_append (cs cs' : List Char) : utf8Size (cs ++ cs') = utf8Size cs + utf8Size cs' := by
  induction cs with
  | nil => simp [utf8Size]
  | cons c cs ih => simp only [List.cons_append, utf8Size, ih, Nat.add_assoc]

theorem length_flatMap_utf8EncodeChar (cs : List Char) :
    (cs.flatMap String.utf8EncodeChar).length = utf8Size cs := by
  induction cs with
  | nil => rfl
  | cons c cs ih => rw [List.flatMap_cons, List.length_append, String.length_utf8EncodeChar, ih, utf8Size]

/-! ## Boundaries -/

/-- Is there a boundary between characters before the byte at a position, or at the end? -/
def isBoundary (bytes : List UInt8) (position : Nat) : Bool :=
  position == 0 ||
    match bytes[position]? with
    | some b => ! continues b
    | none => position == bytes.length

/-- The nearest boundary, going back from a position; there is nothing to go back to from the beginning. -/
def boundaryBefore? (bytes : List UInt8) : Nat → Option Nat
  | 0 => if isBoundary bytes 0 then some 0 else none
  | position + 1 =>
    if isBoundary bytes (position + 1) then some (position + 1) else boundaryBefore? bytes position

/-- There is no boundary within a character. -/
theorem isBoundary_within {c : Char} {n : Nat} (hpos : 0 < n) (hlt : n < c.utf8Size) (rest : List UInt8) :
    isBoundary (String.utf8EncodeChar c ++ rest) n = false := by
  obtain ⟨b, bs, hbytes, -, hcontinue⟩ := exists_utf8EncodeChar c
  have hlength : (b :: bs).length = c.utf8Size := by rw [← hbytes, String.length_utf8EncodeChar]
  obtain ⟨k, rfl⟩ : ∃ k, n = k + 1 := ⟨n - 1, by omega⟩
  have hk : k < bs.length := by
    rw [List.length_cons] at hlength
    omega
  have hbyte : (String.utf8EncodeChar c ++ rest)[k + 1]? = some bs[k] := by
    rw [hbytes, List.cons_append, List.getElem?_cons_succ, List.getElem?_append_left hk,
      List.getElem?_eq_getElem hk]
  unfold isBoundary
  rw [hbyte]
  simp [hcontinue _ (List.getElem_mem hk)]

/-- Behind a character the boundaries are those of what follows. -/
theorem isBoundary_behind (c : Char) (cs : List Char) (n : Nat) :
    isBoundary ((c :: cs).flatMap String.utf8EncodeChar) (c.utf8Size + n) =
      isBoundary (cs.flatMap String.utf8EncodeChar) n := by
  have hpos := c.utf8Size_pos
  have hlength := String.length_utf8EncodeChar c
  have hbyte : ((c :: cs).flatMap String.utf8EncodeChar)[c.utf8Size + n]? =
      (cs.flatMap String.utf8EncodeChar)[n]? := by
    rw [List.flatMap_cons, List.getElem?_append_right (by omega)]
    congr 1
    omega
  have hnonzero : (c.utf8Size + n == 0) = false := by simp; omega
  unfold isBoundary
  rw [hbyte, hnonzero, Bool.false_or]
  cases n with
  | zero =>
    -- at once behind the character stands the first byte of the next one, or the end
    cases cs with
    | nil => simp [hlength]
    | cons d ds =>
      obtain ⟨b, bs, hbytes, hfirst, -⟩ := exists_utf8EncodeChar d
      rw [List.flatMap_cons, hbytes]
      simp [hfirst]
  | succ n =>
    cases (cs.flatMap String.utf8EncodeChar)[n + 1]? with
    | some b => simp
    | none =>
      rw [Bool.eq_iff_iff]
      simp [List.flatMap_cons, hlength]

/-- The boundaries of a text are where beginnings of it end that are cut between characters. -/
theorem isBoundary_iff {cs : List Char} {n : Nat} :
    isBoundary (cs.flatMap String.utf8EncodeChar) n = true ↔ ∃ pre, pre <+: cs ∧ utf8Size pre = n := by
  induction cs generalizing n with
  | nil =>
    constructor
    · intro h
      have hn : n = 0 := by simpa [isBoundary] using h
      exact ⟨[], List.nil_prefix, hn.symm⟩
    · rintro ⟨pre, hpre, rfl⟩
      rw [List.prefix_nil.1 hpre]
      rfl
  | cons c cs ih =>
    rcases Nat.eq_zero_or_pos n with rfl | hpos
    · exact ⟨fun _ => ⟨[], List.nil_prefix, rfl⟩, fun _ => rfl⟩
    rcases Nat.lt_or_ge n c.utf8Size with hlt | hge
    · rw [List.flatMap_cons, isBoundary_within hpos hlt]
      refine ⟨nofun, ?_⟩
      rintro ⟨pre, hpre, rfl⟩
      cases pre with
      | nil => exact absurd hpos (Nat.lt_irrefl 0)
      | cons d pre =>
        rw [List.cons_prefix_cons] at hpre
        rw [utf8Size, hpre.1] at hlt
        omega
    · obtain ⟨k, rfl⟩ := Nat.exists_eq_add_of_le hge
      rw [isBoundary_behind, ih]
      constructor
      · rintro ⟨pre, hpre, rfl⟩
        exact ⟨c :: pre, List.cons_prefix_cons.2 ⟨rfl, hpre⟩, rfl⟩
      · rintro ⟨pre, hpre, hsize⟩
        cases pre with
        | nil =>
          have := c.utf8Size_pos
          rw [utf8Size] at hsize
          omega
        | cons d pre =>
          rw [List.cons_prefix_cons] at hpre
          rw [utf8Size, hpre.1] at hsize
          exact ⟨pre, hpre.2, by omega⟩

/-! ## Cutting -/

theorem utf8Size_le_of_isPrefix {pre cs : List Char} (h : pre <+: cs) : utf8Size pre ≤ utf8Size cs := by
  obtain ⟨rest, rfl⟩ := h
  rw [utf8Size_append]
  exact Nat.le_add_right _ _

theorem fitting_isPrefix (room : Nat) (cs : List Char) : fitting room cs <+: cs := by
  obtain ⟨rest, hrest⟩ := exists_eq_fitting_append room cs
  exact ⟨rest, hrest.symm⟩

/-- Every beginning that fits is a beginning of the longest one. -/
theorem isPrefix_fitting {pre cs : List Char} {room : Nat} (h : pre <+: cs) (hfits : utf8Size pre ≤ room) :
    pre <+: fitting room cs := by
  induction cs generalizing pre room with
  | nil => rwa [fitting]
  | cons c cs ih =>
    cases pre with
    | nil => exact List.nil_prefix
    | cons d pre =>
      obtain ⟨rfl, hpre⟩ := List.cons_prefix_cons.1 h
      rw [utf8Size] at hfits
      rw [fitting, if_pos (by omega)]
      exact List.cons_prefix_cons.2 ⟨rfl, ih hpre (by omega)⟩

/-- Going back stops at the last boundary on the way. -/
theorem boundaryBefore?_eq_some {bytes : List UInt8} {m n : Nat} (hle : m ≤ n) (hm : isBoundary bytes m = true)
    (hnone : ∀ k, m < k → k ≤ n → isBoundary bytes k = false) : boundaryBefore? bytes n = some m := by
  induction n with
  | zero =>
    obtain rfl : m = 0 := by omega
    rw [boundaryBefore?, if_pos hm]
  | succ n ih =>
    rw [boundaryBefore?]
    rcases Nat.lt_or_eq_of_le hle with hlt | rfl
    · rw [hnone (n + 1) hlt (Nat.le_refl _), if_neg Bool.false_ne_true]
      exact ih (by omega) fun k hk hkn => hnone k hk (by omega)
    · rw [if_pos hm]

/-- Going back from the end of the room that there is for a text, or from the end of the text, finds the end of
the longest beginning that fits. -/
theorem boundaryBefore?_utf8 (s : String) (room : Nat) :
    boundaryBefore? (utf8 s) (min s.utf8ByteSize room) = some (utf8Size (fitting room s.toList)) := by
  rw [utf8_eq_flatMap]
  have hsize := utf8Size_le_of_isPrefix (fitting_isPrefix room s.toList)
  rw [utf8Size_toList] at hsize
  refine boundaryBefore?_eq_some (Nat.le_min.2 ⟨hsize, utf8Size_fitting_le room _⟩)
    (isBoundary_iff.2 ⟨_, fitting_isPrefix room _, rfl⟩) fun k hlt hle => ?_
  rw [Bool.eq_false_iff]
  intro hk
  obtain ⟨pre, hpre, rfl⟩ := isBoundary_iff.1 hk
  have := utf8Size_le_of_isPrefix (isPrefix_fitting hpre (Nat.le_trans hle (Nat.min_le_right _ _)))
  omega

/-- The bytes before that place are those of this beginning. -/
theorem utf8_fitting (s : String) (room : Nat) : utf8 (String.ofList (fitting room s.toList)) =
    (utf8 s).take (utf8Size (fitting room s.toList)) := by
  obtain ⟨rest, hrest⟩ := fitting_isPrefix room s.toList
  have hsplit : s.toList.flatMap String.utf8EncodeChar =
      (fitting room s.toList).flatMap String.utf8EncodeChar ++ rest.flatMap String.utf8EncodeChar := by
    rw [← List.flatMap_append, hrest]
  rw [utf8_eq_flatMap, utf8_eq_flatMap, String.toList_ofList, ← length_flatMap_utf8EncodeChar, hsplit]
  exact List.take_left.symm

end Compositor.Text
