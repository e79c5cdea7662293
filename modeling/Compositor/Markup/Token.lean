import Compositor.Markup.Reference

/-
  Tokens of markup.

  `Token.next?` splits off the token at the front of a text.  Tags, character data, text and document
  types become tokens; comments, instructions and declarations become `skipped`.  Names and
  attributes are not looked into here.  `next?_length` says that a token takes at least one character.
-/

namespace Compositor.Markup

/-! ## Where a construct ends -/

/-- Splits a text at the first place where `mark` stands, into what comes before and after it. -/
def splitAt? (mark : List Char) : List Char → Option (List Char × List Char)
  | [] => none
  | c :: cs =>
    if mark.isPrefixOf (c :: cs) then some ([], (c :: cs).drop mark.length)
    else (splitAt? mark cs).map fun (before, after) => (c :: before, after)

/-- Splits a text at the first `>` that is not between quotes; `quote` is the quote that is open. -/
def splitTag? : (quote : Option Char) → List Char → Option (List Char × List Char)
  | _, [] => none
  | some q, c :: cs =>
    (splitTag? (if c = q then none else some q) cs).map fun (before, after) => (c :: before, after)
  | none, c :: cs =>
    if c = '>' then some ([], cs)
    else
      let quote := if c = '"' ∨ c = '\x27' then some c else none
      (splitTag? quote cs).map fun (before, after) => (c :: before, after)

/-- Splits a text at the `>` that closes the `depth` open brackets and the one before them. -/
def splitNested? : (depth : Nat) → List Char → Option (List Char × List Char)
  | _, [] => none
  | 0, c :: cs =>
    if c = '>' then some ([], cs)
    else (splitNested? (if c = '<' then 1 else 0) cs).map fun (before, after) => (c :: before, after)
  | depth + 1, c :: cs =>
    let depth' := if c = '<' then depth + 2 else if c = '>' then depth else depth + 1
    (splitNested? depth' cs).map fun (before, after) => (c :: before, after)

theorem splitAt?_length {mark cs before after : List Char} (h : splitAt? mark cs = some (before, after)) :
    after.length ≤ cs.length := by
  induction cs generalizing before with
  | nil => nomatch h
  | cons c cs ih =>
    unfold splitAt? at h
    split at h
    · injection h with h
      injection h with _ h
      subst h
      rw [List.length_drop]
      omega
    · obtain ⟨⟨b, a⟩, hs, he⟩ := Option.map_eq_some_iff.1 h
      injection he with _ he
      have := ih (he ▸ hs)
      simp only [List.length_cons]
      omega

theorem splitTag?_length {quote : Option Char} {cs before after : List Char}
    (h : splitTag? quote cs = some (before, after)) : after.length ≤ cs.length := by
  induction cs generalizing quote before with
  | nil => cases quote <;> nomatch h
  | cons c cs ih =>
    cases quote with
    | some q =>
      unfold splitTag? at h
      obtain ⟨⟨b, a⟩, hs, he⟩ := Option.map_eq_some_iff.1 h
      injection he with _ he
      have := ih (he ▸ hs)
      simp only [List.length_cons]
      omega
    | none =>
      unfold splitTag? at h
      split at h
      · injection h with h
        injection h with _ h
        subst h
        simp
      · obtain ⟨⟨b, a⟩, hs, he⟩ := Option.map_eq_some_iff.1 h
        injection he with _ he
        have := ih (he ▸ hs)
        simp only [List.length_cons]
        omega

theorem splitNested?_length {depth : Nat} {cs before after : List Char}
    (h : splitNested? depth cs = some (before, after)) : after.length ≤ cs.length := by
  induction cs generalizing depth before with
  | nil => cases depth <;> nomatch h
  | cons c cs ih =>
    cases depth with
    | zero =>
      unfold splitNested? at h
      split at h
      · injection h with h
        injection h with _ h
        subst h
        simp
      · obtain ⟨⟨b, a⟩, hs, he⟩ := Option.map_eq_some_iff.1 h
        injection he with _ he
        have := ih (he ▸ hs)
        simp only [List.length_cons]
        omega
    | succ depth =>
      unfold splitNested? at h
      obtain ⟨⟨b, a⟩, hs, he⟩ := Option.map_eq_some_iff.1 h
      injection he with _ he
      have := ih (he ▸ hs)
      simp only [List.length_cons]
      omega

/-! ## Tokens -/

/-- A token; texts stand as they are written. -/
inductive Token where
  /-- A start tag: its name, what follows the name, and whether it closes itself. -/
  | start (name rest : List Char) (closed : Bool)
  | stop (name : List Char)
  | text (raw : List Char)
  | data (raw : List Char)
  | documentType
  /-- A comment, an instruction or a declaration. -/
  | skipped
deriving DecidableEq

/-- The start tag with a given text between its brackets. -/
def startTag (content : List Char) : Token :=
  let closed := content.getLast? == some '/'
  let content := if closed then content.dropLast else content
  .start (content.takeWhile (! isBlank ·)) (content.dropWhile (! isBlank ·)) closed

/-- A text without the blanks at its end. -/
def trimEnd (cs : List Char) : List Char := (cs.reverse.dropWhile isBlank).reverse

/-- The end tag with a given text between its brackets.  Blanks after the name do not count. -/
def stopTag (content : List Char) : Token :=
  .stop (if content.all isBlank then content else trimEnd content)

/-- Is this the text of a document type?  Its keyword is in either case, and something follows it. -/
def isDocumentType (content : List Char) : Bool :=
  (content.take 7).map Char.toUpper == "DOCTYPE".toList && (content.drop 7).any (! isBlank ·)

/-- The token that starts with `<!`, and the text after it. -/
def declarationToken? (cs : List Char) : Option (Token × List Char) :=
  match cs with
  | '-' :: '-' :: cs =>
    (splitAt? "-->".toList cs).map fun (_, after) => (.skipped, after)
  | '[' :: cs =>
    match splitAt? "]]>".toList cs with
    | some (raw, after) =>
      if "CDATA[".toList.isPrefixOf raw then some (.data (raw.drop 6), after) else none
    | none => none
  | cs =>
    match splitNested? 0 cs with
    | some (content, after) => if isDocumentType content then some (.documentType, after) else none
    | none => none

/-- The token that starts with `<`, and the text after it. -/
def tagToken? (cs : List Char) : Option (Token × List Char) :=
  match cs with
  | [] => none
  | '!' :: cs => declarationToken? cs
  | '/' :: cs => (splitTag? none cs).map fun (content, after) => (stopTag content, after)
  | '?' :: '>' :: _ => none
  | '?' :: cs => (splitAt? "?>".toList cs).map fun (_, after) => (.skipped, after)
  | cs => (splitTag? none cs).map fun (content, after) => (startTag content, after)

/-- The token at the front of a text, and the text after it. -/
def Token.next? (cs : List Char) : Option (Token × List Char) :=
  match cs with
  | [] => none
  | '<' :: cs => tagToken? cs
  | c :: cs => some (.text (c :: cs.takeWhile (· != '<')), cs.dropWhile (· != '<'))

theorem declarationToken?_length {cs after : List Char} {t : Token}
    (h : declarationToken? cs = some (t, after)) : after.length ≤ cs.length := by
  unfold declarationToken? at h
  split at h
  · obtain ⟨⟨b, a⟩, hs, he⟩ := Option.map_eq_some_iff.1 h
    injection he with _ he
    have := splitAt?_length (he ▸ hs)
    simp only [List.length_cons]
    omega
  · split at h
    · rename_i hs
      split at h
      · injection h with h
        injection h with _ h
        subst h
        have := splitAt?_length hs
        simp only [List.length_cons]
        omega
      · nomatch h
    · nomatch h
  · split at h
    · rename_i hs
      split at h
      · injection h with h
        injection h with _ h
        subst h
        exact splitNested?_length hs
      · nomatch h
    · nomatch h

theorem tagToken?_length {cs after : List Char} {t : Token}
    (h : tagToken? cs = some (t, after)) : after.length ≤ cs.length := by
  unfold tagToken? at h
  split at h
  · nomatch h
  · have := declarationToken?_length h
    simp only [List.length_cons]
    omega
  · obtain ⟨⟨b, a⟩, hs, he⟩ := Option.map_eq_some_iff.1 h
    injection he with _ he
    have := splitTag?_length (he ▸ hs)
    simp only [List.length_cons]
    omega
  · nomatch h
  · obtain ⟨⟨b, a⟩, hs, he⟩ := Option.map_eq_some_iff.1 h
    injection he with _ he
    have := splitAt?_length (he ▸ hs)
    simp only [List.length_cons]
    omega
  · obtain ⟨⟨b, a⟩, hs, he⟩ := Option.map_eq_some_iff.1 h
    injection he with _ he
    exact splitTag?_length (he ▸ hs)

/-- A token takes at least one character. -/
theorem Token.next?_length {cs after : List Char} {t : Token}
    (h : Token.next? cs = some (t, after)) : after.length < cs.length := by
  unfold Token.next? at h
  split at h
  · nomatch h
  · have := tagToken?_length h
    simp only [List.length_cons]
    omega
  · injection h with h
    injection h with _ h
    subst h
    exact Nat.lt_succ_of_le (List.dropWhile_sublist _).length_le

end Compositor.Markup
