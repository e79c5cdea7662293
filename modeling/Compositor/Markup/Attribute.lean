import Compositor.Markup.Token

/-
  Attributes of a tag, and names.

  `leadingAttributes` reads the attributes at the front of what follows the name in a tag, and gives
  back what is left; `attributes?` wants all of it read and all names to differ.  Values stay as they
  are written.
-/

namespace Compositor.Markup

/-- An attribute as written: its name, and its value between the quotes. -/
structure Attribute where
  name : List Char
  raw : List Char
deriving DecidableEq

/-- The attribute at the front of a text without leading blanks, and the text after it.  The name
has at least one character, whichever it is, and goes on to the next blank or equals sign. -/
def Attribute.next? : List Char → Option (Attribute × List Char)
  | [] => none
  | c :: cs =>
    let name := c :: cs.takeWhile fun d => ! isBlank d && d != '='
    match (cs.dropWhile fun d => ! isBlank d && d != '=').dropWhile isBlank with
    | '=' :: rest =>
      match rest.dropWhile isBlank with
      | q :: rest =>
        if q = '"' ∨ q = '\x27' then
          (splitAt? [q] rest).map fun (raw, after) => (⟨name, raw⟩, after)
        else none
      | [] => none
    | _ => none

theorem Attribute.next?_length {cs after : List Char} {a : Attribute}
    (h : Attribute.next? cs = some (a, after)) : after.length < cs.length := by
  unfold Attribute.next? at h
  split at h
  · nomatch h
  · rename_i c cs
    have h1 := (List.dropWhile_sublist (fun d => ! isBlank d && d != '=') (l := cs)).length_le
    have h2 := (List.dropWhile_sublist isBlank
      (l := cs.dropWhile fun d => ! isBlank d && d != '=')).length_le
    dsimp only at h
    split at h
    · rename_i rest hr
      rw [hr, List.length_cons] at h2
      have h3 := (List.dropWhile_sublist isBlank (l := rest)).length_le
      split at h
      · rename_i q rest' hq
        rw [hq, List.length_cons] at h3
        split at h
        · obtain ⟨⟨b, a'⟩, hs, he⟩ := Option.map_eq_some_iff.1 h
          obtain rfl : a' = after := congrArg Prod.snd he
          have := splitAt?_length hs
          rw [List.length_cons]
          omega
        · nomatch h
      · nomatch h
    · nomatch h

/-- The attributes at the front of a text, in order, and what is left of it: nothing, or a text that
starts with no attribute. -/
def leadingAttributes (cs : List Char) : List Attribute × List Char :=
  match hc : cs.dropWhile isBlank with
  | [] => ([], [])
  | c :: rest =>
    match h : Attribute.next? (c :: rest) with
    | none => ([], c :: rest)
    | some (a, after) =>
      have : after.length < cs.length := by
        have h1 := Attribute.next?_length h
        have h2 := (List.dropWhile_sublist isBlank (l := cs)).length_le
        rw [hc] at h2
        omega
      let (as, rest) := leadingAttributes after
      (a :: as, rest)
termination_by cs.length

/-- The attributes of a tag, all well formed and with different names. -/
def attributes? (cs : List Char) : Option (List Attribute) :=
  match leadingAttributes cs with
  | (as, []) => if (as.map (·.name)).Nodup then some as else none
  | (_, _ :: _) => none

/-! ## Names -/

/-- A name without its prefix: what follows the first colon. -/
def localName (name : List Char) : List Char :=
  match name.dropWhile (· != ':') with
  | [] => name
  | _ :: rest => rest

/-- The prefix of a name: what precedes the first colon, if there is one. -/
def prefixOf? (name : List Char) : Option (List Char) :=
  match name.dropWhile (· != ':') with
  | [] => none
  | _ :: _ => some (name.takeWhile (· != ':'))

/-- A name with a prefix is the prefix, a colon and the local name. -/
theorem eq_append_of_prefixOf? {name p : List Char} (h : prefixOf? name = some p) :
    name = p ++ ':' :: localName name := by
  have hsplit := (List.takeWhile_append_dropWhile (p := (· != ':')) (l := name)).symm
  have hhead := List.head?_dropWhile_not (· != ':') name
  unfold prefixOf? at h
  unfold localName
  split at h
  · nomatch h
  · rename_i c rest hcons
    rw [hcons] at hsplit hhead
    have hc : c = ':' := by simpa using hhead
    injection h with h
    rw [h, hc] at hsplit
    exact hsplit

end Compositor.Markup
