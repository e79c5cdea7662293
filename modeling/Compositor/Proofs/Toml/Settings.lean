import Mathlib.Data.List.Basic
import Compositor.Proofs.Text.Numerals
import Compositor.Toml.Document

/-
  Documents that set numbers.

  A setting is written as its key, an equals sign and a decimal numeral on a line of its own.  The reader of
  numbers tries dates and floats first, but a numeral that ends with its line is none of these: where a date or a
  time goes on with a dash or a colon there is a digit or the end of the line (`field?_next`).  So the line is
  read as the integer (`number?_toDigits`), each line is one assignment, and a document of such lines has the
  settings as its entries, in order (`Entries.ofText?_settingLines`).
-/

namespace Compositor.Toml

open Compositor.Text (isDigit isDigit_of_mem_toDigits ofDigits?_toDigits head?_toDigits_ne_zero)

/-! ## Numerals at the end of a line -/

section Numerals

variable {ds rest : List Char} {n : Nat}

/-- The digits of a numeral are read up to the end of the line. -/
theorem moreDigits?_append (hds : ∀ c ∈ ds, isDigit c) (rest : List Char) :
    moreDigits? isDigit (ds ++ '\n' :: rest) = some (ds, '\n' :: rest) := by
  induction ds with
  | nil => rfl
  | cons d ds ih =>
    have hd : isDigit d := hds d List.mem_cons_self
    have hmark : d ≠ '_' := by
      rintro rfl
      exact absurd hd (by decide)
    have hrest := ih fun c hc => hds c (List.mem_cons_of_mem _ hc)
    rw [List.cons_append, moreDigits?, if_pos hd, hrest]
    · rfl
    · intro h _
      exact hmark h
    · intro c cs h _
      exact hmark h

/-- A fixed number of digits in front of a numeral leaves a digit or the end of the line. -/
theorem field?_next (hds : ∀ c ∈ ds, isDigit c) {count low high value : Nat} {after : List Char}
    (h : field? count low high (ds ++ '\n' :: rest) = some (value, after)) :
    ∃ c cs, after = c :: cs ∧ (isDigit c ∨ c = '\n') := by
  unfold field? at h
  dsimp only at h
  split at h
  case isFalse => nomatch h
  case isTrue htaken =>
    have hafter : after = (ds ++ '\n' :: rest).drop count := by
      split at h
      · split at h
        · exact (Prod.ext_iff.1 (Option.some.inj h)).2.symm
        · nomatch h
      · nomatch h
    -- the end of the line is no digit, so all digits that were taken belong to the numeral
    have hcount : count ≤ ds.length := by
      by_contra hlt
      have hmem : '\n' ∈ (ds ++ '\n' :: rest).take count := by
        rw [List.take_append, List.mem_append, show count - ds.length = count - ds.length - 1 + 1 by omega]
        exact .inr List.mem_cons_self
      exact absurd (List.all_eq_true.1 htaken.2 _ hmem) (by decide)
    rw [List.drop_append_of_le_length hcount] at hafter
    cases hdrop : ds.drop count with
    | nil => exact ⟨'\n', rest, by rw [hafter, hdrop]; rfl, .inr rfl⟩
    | cons c cs =>
      have hc : c ∈ ds := List.mem_of_mem_drop (by rw [hdrop]; exact List.mem_cons_self)
      exact ⟨c, cs ++ '\n' :: rest, by rw [hafter, hdrop]; rfl, .inl (hds c hc)⟩

/-- So nothing is read there that has a mark behind its first field. -/
theorem marked_eq_none {α : Type} (hds : ∀ c ∈ ds, isDigit c) {mark : Char} (hmark : ¬ isDigit mark)
    (hend : mark ≠ '\n') (count low high : Nat) (next : Nat × List Char → Unit × List Char → Option α) :
    ((field? count low high (ds ++ '\n' :: rest)).bind fun r => (char? mark r.2).bind (next r)) = none := by
  cases hfield : field? count low high (ds ++ '\n' :: rest) with
  | none => rfl
  | some r =>
    obtain ⟨c, cs, hafter, hc⟩ := field?_next hds hfield
    have hchar : char? mark r.2 = none := by
      rw [hafter]
      apply if_neg
      rintro rfl
      exact hc.elim hmark hend
    rw [Option.bind_some, hchar, Option.bind_none]

/-- A numeral is no date, -/
theorem date?_eq_none (hds : ∀ c ∈ ds, isDigit c) : date? (ds ++ '\n' :: rest) = none :=
  marked_eq_none hds (by decide : ¬ isDigit '-') (by decide) 4 0 9999 _

/-- nor a time. -/
theorem time?_eq_none (hds : ∀ c ∈ ds, isDigit c) : time? (ds ++ '\n' :: rest) = none :=
  marked_eq_none hds (by decide : ¬ isDigit ':') (by decide) 2 0 23 _

theorem dateTime?_eq_none (hds : ∀ c ∈ ds, isDigit c) : dateTime? (ds ++ '\n' :: rest) = none := by
  unfold dateTime?
  rw [date?_eq_none hds, time?_eq_none hds]

/-- A numeral has a digit in front, and so nothing else; and it has no superfluous zero there. -/
theorem exists_cons_toDigits (n : Nat) :
    ∃ d ds, Nat.toDigits 10 n = d :: ds ∧ (∀ c, ¬ isDigit c → d ≠ c) ∧ (n ≠ 0 → d ≠ '0') := by
  cases hnumeral : Nat.toDigits 10 n with
  | nil => exact absurd hnumeral Nat.toDigits_ne_nil
  | cons d ds =>
    have hd : isDigit d := isDigit_of_mem_toDigits (n := n) (by rw [hnumeral]; exact List.mem_cons_self)
    refine ⟨d, ds, rfl, fun c hc h => hc (h ▸ hd), ?_⟩
    rintro hn rfl
    exact head?_toDigits_ne_zero hn (by rw [hnumeral]; rfl)

/-- The digits of a decimal numeral are all of it. -/
theorem decimalDigits?_toDigits (n : Nat) (rest : List Char) :
    decimalDigits? (Nat.toDigits 10 n ++ '\n' :: rest) = some (Nat.toDigits 10 n, '\n' :: rest) := by
  by_cases hn : n = 0
  · rw [hn]
    rfl
  · obtain ⟨d, ds, hnumeral, -, hlead⟩ := exists_cons_toDigits n
    have hds : ∀ c ∈ d :: ds, isDigit c := fun c hc => isDigit_of_mem_toDigits (hnumeral ▸ hc)
    have hmore := moreDigits?_append (fun c hc => hds c (List.mem_cons_of_mem _ hc)) rest
    rw [hnumeral, List.cons_append, decimalDigits?, digits?, if_pos (hds d List.mem_cons_self), hmore]
    · rfl
    · exact fun cs h => hlead hn (List.cons.inj h).1

theorem sign_toDigits (n : Nat) (rest : List Char) :
    sign (Nat.toDigits 10 n ++ rest) = (false, Nat.toDigits 10 n ++ rest) := by
  obtain ⟨d, ds, hnumeral, hd, -⟩ := exists_cons_toDigits n
  rw [hnumeral, List.cons_append, sign]
  · exact fun cs h => hd '+' (by decide) (List.cons.inj h).1
  · exact fun cs h => hd '-' (by decide) (List.cons.inj h).1

theorem digitFloat?_eq_none (n : Nat) (rest : List Char) :
    digitFloat? (Nat.toDigits 10 n ++ '\n' :: rest) = none := by
  unfold digitFloat?
  rw [sign_toDigits]
  dsimp only
  rw [decimalDigits?_toDigits]
  rfl

theorem specialFloat?_eq_none (n : Nat) (rest : List Char) :
    specialFloat? (Nat.toDigits 10 n ++ '\n' :: rest) = none := by
  obtain ⟨d, ds, hnumeral, hd, -⟩ := exists_cons_toDigits n
  have hinf : 'i' ≠ d := (hd 'i' (by decide)).symm
  have hnan : 'n' ≠ d := (hd 'n' (by decide)).symm
  unfold specialFloat?
  rw [sign_toDigits, hnumeral]
  simp [word?, hinf, hnan]

theorem decimalInteger?_toDigits (hn : n < 0x8000000000000000) (rest : List Char) :
    decimalInteger? (Nat.toDigits 10 n ++ '\n' :: rest) = some (.integer n, '\n' :: rest) := by
  have hfit : integerOf? (n : Int) = some (.integer n) := if_pos ⟨by omega, by omega⟩
  unfold decimalInteger?
  rw [sign_toDigits]
  dsimp only
  rw [decimalDigits?_toDigits, Option.bind_eq_bind, Option.bind_some, ofDigits?_toDigits,
    Option.bind_eq_bind, Option.bind_some]
  dsimp only
  rw [if_neg Bool.false_ne_true, hfit]
  rfl

theorem integer?_toDigits (n : Nat) (rest : List Char) :
    integer? (Nat.toDigits 10 n ++ '\n' :: rest) = decimalInteger? (Nat.toDigits 10 n ++ '\n' :: rest) := by
  by_cases hn : n = 0
  · rw [hn]
    rfl
  · obtain ⟨d, ds, hnumeral, -, hlead⟩ := exists_cons_toDigits n
    rw [hnumeral, List.cons_append, integer?]
    all_goals exact fun cs h => hlead hn (List.cons.inj h).1

/-- A decimal numeral of 64 bits is read as the integer that it stands for. -/
theorem number?_toDigits (hn : n < 0x8000000000000000) (rest : List Char) :
    number? (Nat.toDigits 10 n ++ '\n' :: rest) = some (.integer n, '\n' :: rest) := by
  unfold number?
  rw [dateTime?_eq_none (fun c => isDigit_of_mem_toDigits), digitFloat?_eq_none, specialFloat?_eq_none,
    integer?_toDigits, decimalInteger?_toDigits hn]
  rfl

/-- And so it is as a value. -/
theorem value?_toDigits (hn : n < 0x8000000000000000) (depth : Nat) (rest : List Char) :
    value? depth (Nat.toDigits 10 n ++ '\n' :: rest) = some (.integer n, '\n' :: rest) := by
  have hnumber := number?_toDigits hn rest
  obtain ⟨d, ds, hnumeral, hd, -⟩ := exists_cons_toDigits n
  rw [hnumeral, List.cons_append] at hnumber ⊢
  have hscalar : value?.scalar? (d :: (ds ++ '\n' :: rest)) = some (.integer n, '\n' :: rest) := by
    unfold value?.scalar?
    dsimp only
    have hquotes : ¬ (d = '"' ∨ d = '\x27') := not_or.2 ⟨hd _ (by decide), hd _ (by decide)⟩
    rw [if_neg hquotes, if_neg (hd 't' (by decide)), if_neg (hd 'f' (by decide)), hnumber]
  cases depth with
  | zero => exact hscalar
  | succ depth =>
    rw [value?, hscalar]
    · exact fun cs h => hd '[' (by decide) (List.cons.inj h).1
    · exact fun cs h => hd '\x7b' (by decide) (List.cons.inj h).1

end Numerals

/-! ## Lines -/

/-- A key that is written without quotes. -/
def IsBareKey (key : String) : Prop := key ≠ "" ∧ key.toList.all isBare

/-- The line of a setting: a key, and its number as a decimal numeral. -/
def settingLine (s : String × Nat) : List Char :=
  s.1.toList ++ ' ' :: '=' :: ' ' :: (Nat.toDigits 10 s.2 ++ ['\n'])

/-- The lines of settings. -/
def settingLines (settings : List (String × Nat)) : List Char := settings.flatMap settingLine

section Lines

variable {key : String} {n : Nat}

theorem IsBareKey.isBare_of_mem (hkey : IsBareKey key) : ∀ c ∈ key.toList, isBare c :=
  List.all_eq_true.1 hkey.2

/-- A bare key starts with a bare character. -/
theorem IsBareKey.exists_cons (hkey : IsBareKey key) :
    ∃ c cs, key.toList = c :: cs ∧ ∀ mark, ¬ isBare mark → c ≠ mark := by
  cases hchars : key.toList with
  | nil => exact absurd (String.toList_eq_nil_iff.1 hchars) hkey.1
  | cons c cs =>
    have hc : isBare c := hkey.isBare_of_mem c (by rw [hchars]; exact List.mem_cons_self)
    exact ⟨c, cs, rfl, fun mark hmark h => hmark (h ▸ hc)⟩

theorem skipBlanks_cons {c : Char} (hspace : c ≠ ' ') (htab : c ≠ '\t') (cs : List Char) :
    skipBlanks (c :: cs) = c :: cs := by
  apply List.dropWhile_cons_of_neg
  simp [isBlank, hspace, htab]

theorem skipBlanks_key (hkey : IsBareKey key) (rest : List Char) :
    skipBlanks (key.toList ++ rest) = key.toList ++ rest := by
  obtain ⟨c, cs, hchars, hc⟩ := hkey.exists_cons
  rw [hchars, List.cons_append]
  exact skipBlanks_cons (hc ' ' (by decide)) (hc '\t' (by decide)) _

theorem keyPart?_bare (hkey : IsBareKey key) (rest : List Char) :
    keyPart? (key.toList ++ ' ' :: rest) = some (key, ' ' :: rest) := by
  obtain ⟨c, cs, hchars, hc⟩ := hkey.exists_cons
  have htake : (key.toList ++ ' ' :: rest).takeWhile isBare = key.toList := by
    rw [List.takeWhile_append_of_pos hkey.isBare_of_mem, List.takeWhile_cons_of_neg (by decide), List.append_nil]
  have hdrop : (key.toList ++ ' ' :: rest).dropWhile isBare = ' ' :: rest := by
    rw [List.dropWhile_append_of_pos hkey.isBare_of_mem, List.dropWhile_cons_of_neg (by decide)]
  have hfull : key.toList.isEmpty = false := by rw [hchars]; rfl
  rw [keyPart?, htake, hdrop, hfull, if_neg Bool.false_ne_true, String.ofList_toList]
  all_goals
    intro rest' h
    rw [hchars, List.cons_append] at h
  · exact hc '"' (by decide) (List.cons.inj h).1
  · exact hc '\x27' (by decide) (List.cons.inj h).1

/-- A key without quotes is read up to the blank in front of the equals sign. -/
theorem key?_bare (hkey : IsBareKey key) (rest : List Char) :
    key? (key.toList ++ ' ' :: '=' :: rest) = some (⟨[], key⟩, '=' :: rest) := by
  have hpart : keyParts? maxDepth (key.toList ++ ' ' :: '=' :: rest) = some ([key], '=' :: rest) := by
    rw [show maxDepth = 78 + 1 from rfl, keyParts?, skipBlanks_key hkey, keyPart?_bare hkey,
      Option.bind_eq_bind, Option.bind_some]
    rfl
  unfold key?
  rw [hpart]
  rfl

/-- The line of a setting is an assignment, and nothing is left of it but its end. -/
theorem assignment?_setting (hkey : IsBareKey key) (hn : n < 0x8000000000000000) (depth : Nat)
    (rest : List Char) :
    assignment? (value? depth) (settingLine (key, n) ++ rest) =
      some ((⟨[], key⟩, .integer n), '\n' :: rest) := by
  have hline : settingLine (key, n) ++ rest =
      key.toList ++ ' ' :: '=' :: ' ' :: (Nat.toDigits 10 n ++ '\n' :: rest) := by
    simp [settingLine]
  obtain ⟨d, ds, hnumeral, hd, -⟩ := exists_cons_toDigits n
  have hskip : skipBlanks (' ' :: (Nat.toDigits 10 n ++ '\n' :: rest)) = Nat.toDigits 10 n ++ '\n' :: rest := by
    rw [hnumeral]
    exact skipBlanks_cons (hd ' ' (by decide)) (hd '\t' (by decide)) _
  unfold assignment?
  rw [hline, key?_bare hkey, Option.bind_eq_bind, Option.bind_some]
  show (value? depth (skipBlanks (' ' :: (Nat.toDigits 10 n ++ '\n' :: rest))) >>= _) = _
  rw [hskip, value?_toDigits hn]
  rfl

/-- The line of a setting is none of the other lines, and is read as its assignment. -/
theorem lines?_settingLine (hkey : IsBareKey key) (hn : n < 0x8000000000000000) (fuel : Nat)
    (rest : List Char) :
    lines? (fuel + 1) (settingLine (key, n) ++ rest) =
      (lines? fuel rest).map (.assignment ⟨[], key⟩ (.integer n) :: ·) := by
  have hassignment := assignment?_setting hkey hn maxDepth rest
  have hskip : skipBlanks (settingLine (key, n) ++ rest) = settingLine (key, n) ++ rest := by
    rw [settingLine, List.append_assoc, skipBlanks_key hkey]
  obtain ⟨c, cs, hchars, hc⟩ := hkey.exists_cons
  obtain ⟨tail, hline⟩ : ∃ tail, settingLine (key, n) ++ rest = c :: tail :=
    ⟨_, by rw [settingLine, hchars, List.cons_append, List.cons_append]⟩
  have hnewline : newline? (c :: tail) = none := by
    rw [newline?]
    · exact fun rest h => hc '\n' (by decide) (List.cons.inj h).1
    · exact fun rest h => hc '\r' (by decide) (List.cons.inj h).1
  rw [lines?, hskip, hline]
  rw [hline] at hassignment
  split
  case h_1 h => nomatch h
  case h_2 h => exact absurd (List.cons.inj h).1 (hc '#' (by decide))
  case h_3 h => exact absurd (List.cons.inj h).1 (hc '[' (by decide))
  case h_4 =>
    rw [hnewline]
    dsimp only
    rw [hassignment]
    show (lines? fuel rest >>= _) = _
    cases lines? fuel rest <;> rfl

/-- Lines of settings are read as one assignment each. -/
theorem lines?_settingLines {settings : List (String × Nat)}
    (hbare : ∀ s ∈ settings, IsBareKey s.1) (hfit : ∀ s ∈ settings, s.2 < 0x8000000000000000)
    {fuel : Nat} (hfuel : settings.length < fuel) :
    lines? fuel (settingLines settings) = some (settings.map fun s => .assignment ⟨[], s.1⟩ (.integer s.2)) := by
  induction settings generalizing fuel with
  | nil =>
    obtain ⟨fuel, rfl⟩ := Nat.exists_eq_add_one_of_ne_zero (Nat.ne_of_gt hfuel)
    rfl
  | cons s settings ih =>
    obtain ⟨fuel, rfl⟩ := Nat.exists_eq_add_one_of_ne_zero (Nat.ne_zero_of_lt hfuel)
    have hrest : lines? fuel (settingLines settings) = _ :=
      ih (fun s hs => hbare s (List.mem_cons_of_mem _ hs)) (fun s hs => hfit s (List.mem_cons_of_mem _ hs))
        (Nat.lt_of_succ_lt_succ hfuel)
    have hfirst := lines?_settingLine (hbare s List.mem_cons_self) (hfit s List.mem_cons_self) fuel
      (settingLines settings)
    rw [settingLines, List.flatMap_cons]
    exact hfirst.trans (by rw [hrest]; rfl)

end Lines

/-! ## Entries -/

section Entries

variable {settings : List (String × Nat)}

/-- The entry of a setting. -/
def settingEntry (s : String × Nat) : String × Item := (s.1, .value (.integer s.2))

theorem sectionsOf_settings (settings : List (String × Nat)) :
    sectionsOf (settings.map fun s => .assignment ⟨[], s.1⟩ (.integer s.2)) =
      (settings.map fun s => (⟨[], s.1⟩, .integer s.2), []) := by
  induction settings with
  | nil => rfl
  | cons s settings ih => rw [List.map_cons, sectionsOf, ih]; rfl

/-- A new key comes last. -/
theorem Entries.alter_of_absent {es : Entries} {key : String} (hkey : key ∉ es.map (·.1))
    {f : Option Item → Option Item} {item : Item} (hf : f none = some item) :
    es.alter f key = some (es ++ [(key, item)]) := by
  induction es with
  | nil =>
    rw [alter, hf]
    rfl
  | cons e es ih =>
    rw [List.map_cons, List.mem_cons, not_or] at hkey
    rw [alter, if_neg (Ne.symm hkey.1), ih hkey.2]
    rfl

/-- Settings of different keys all become entries, in order. -/
theorem Entries.assignAll_settings {es : Entries}
    (hnodup : (es.map (·.1) ++ settings.map (·.1)).Nodup) :
    assignAll (settings.map fun s => (⟨[], s.1⟩, .integer s.2)) es = some (es ++ settings.map settingEntry) := by
  induction settings generalizing es with
  | nil => rw [List.map_nil, List.map_nil, List.append_nil]; rfl
  | cons s settings ih =>
    have hnew : s.1 ∉ es.map (·.1) := fun h =>
      (List.nodup_append.1 hnodup).2.2 s.1 h s.1 List.mem_cons_self rfl
    have hrest : ((es ++ [settingEntry s]).map (·.1) ++ settings.map (·.1)).Nodup := by
      simpa [settingEntry] using hnodup
    have hstep : es.assign (.integer s.2) s.1 [] = some (es ++ [settingEntry s]) := alter_of_absent hnew rfl
    show (es.assign (.integer s.2) s.1 [] >>= assignAll (settings.map fun s => (⟨[], s.1⟩, .integer s.2))) = _
    rw [hstep, Option.bind_eq_bind, Option.bind_some, ih hrest, List.append_assoc]
    rfl

theorem length_le_length_settingLines (settings : List (String × Nat)) :
    settings.length ≤ (settingLines settings).length := by
  induction settings with
  | nil => exact Nat.le_refl 0
  | cons s settings ih =>
    simp only [settingLines, List.flatMap_cons, settingLine, List.length_append, List.length_cons] at ih ⊢
    omega

/-- A document of settings has them as its entries. -/
theorem Entries.ofText?_settingLines {text : String} (htext : text.toList = settingLines settings)
    (hbare : ∀ s ∈ settings, IsBareKey s.1) (hfit : ∀ s ∈ settings, s.2 < 0x8000000000000000)
    (hnodup : (settings.map (·.1)).Nodup) : ofText? text = some (settings.map settingEntry) := by
  have hmark : ∀ cs, settingLines settings ≠ '\ufeff' :: cs := by
    intro cs h
    cases settings with
    | nil => nomatch h
    | cons s settings =>
      obtain ⟨c, key, hchars, hc⟩ := (hbare s List.mem_cons_self).exists_cons
      rw [settingLines, List.flatMap_cons, settingLine, hchars] at h
      exact hc '\ufeff' (by decide) (List.cons.inj h).1
  have hlines := lines?_settingLines hbare hfit (Nat.lt_succ_of_le (length_le_length_settingLines settings))
  have hentries : assignAll (settings.map fun s => (⟨[], s.1⟩, .integer s.2)) [] = some _ :=
    assignAll_settings hnodup
  unfold ofText?
  rw [htext]
  split
  case h_1 cs h => exact absurd h (hmark cs)
  case h_2 =>
    dsimp only
    rw [hlines, Option.bind_eq_bind, Option.bind_some, sectionsOf_settings]
    dsimp only
    rw [hentries]
    rfl

theorem Entries.get?_cons (e : String × Item) (es : Entries) (key : String) :
    get? (e :: es) key = if e.1 = key then some e.2 else es.get? key := by
  unfold get?
  rw [List.find?_cons]
  split
  case h_1 h => rw [if_pos (eq_of_beq h)]; rfl
  case h_2 h => rw [if_neg (ne_of_beq_false h)]

/-- A setting is found by its key, -/
theorem Entries.get?_setting {s : String × Nat} (hnodup : (settings.map (·.1)).Nodup) (hs : s ∈ settings) :
    get? (settings.map settingEntry) s.1 = some (.value (.integer s.2)) := by
  induction settings with
  | nil => nomatch hs
  | cons t settings ih =>
    obtain ⟨hnew, hrest⟩ := List.nodup_cons.1 hnodup
    rw [List.map_cons, get?_cons]
    obtain rfl | hs := List.mem_cons.1 hs
    · exact if_pos rfl
    · have hne : t.1 ≠ s.1 := fun h => hnew (List.mem_map.2 ⟨s, hs, h.symm⟩)
      rw [settingEntry, if_neg hne]
      exact ih hrest hs

/-- and a key that is not set is not. -/
theorem Entries.get?_eq_none {key : String} (hkey : key ∉ settings.map (·.1)) :
    get? (settings.map settingEntry) key = none := by
  induction settings with
  | nil => rfl
  | cons s settings ih =>
    rw [List.map_cons, List.mem_cons, not_or] at hkey
    rw [List.map_cons, get?_cons, settingEntry, if_neg (Ne.symm hkey.1)]
    exact ih hkey.2

end Entries

end Compositor.Toml
