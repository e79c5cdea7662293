import Compositor.Text.Numeral

/-
  References in markup text.

  `&name;` stands for one of five characters and `&#n;` for the character with number `n`.  `resolve?`
  replaces every reference in a text, and fails on an ampersand that starts none.
-/

namespace Compositor.Markup

/-- White space of markup. -/
def isBlank (c : Char) : Bool := c == ' ' || c == '\t' || c == '\n' || c == '\r'

/-- The character with a given number, which is neither zero nor a surrogate. -/
def charOf? (n : Nat) : Option Char :=
  if n = 0 then none
  else if h : n.isValidChar then some (Char.ofNatAux n h)
  else none

/-- The character that a reference stands for; `name` is what precedes the semicolon. -/
def referenced? (name : List Char) : Option Char :=
  match name with
  | '#' :: 'x' :: digits => (Text.ofDigits? 16 digits).bind charOf?
  | '#' :: digits => (Text.ofDigits? 10 digits).bind charOf?
  | _ =>
    if name = "lt".toList then some '<'
    else if name = "gt".toList then some '>'
    else if name = "amp".toList then some '&'
    else if name = "apos".toList then some '\x27'
    else if name = "quot".toList then some '"'
    else none

/-- Resolves the references of a text.  While a reference is open, `open?` holds its name so far,
last character first. -/
def resolveFrom? : (open? : Option (List Char)) → List Char → Option (List Char)
  | none, [] => some []
  | some _, [] => none
  | none, c :: cs => if c = '&' then resolveFrom? (some []) cs else (resolveFrom? none cs).map (c :: ·)
  | some name, c :: cs =>
    if c = ';' then
      match referenced? name.reverse with
      | some r => (resolveFrom? none cs).map (r :: ·)
      | none => none
    else if c = '&' then none
    else resolveFrom? (some (c :: name)) cs

/-- A text with all its references replaced. -/
def resolve? (cs : List Char) : Option (List Char) := resolveFrom? none cs

/-- A text without ampersands stands for itself. -/
theorem resolve?_eq_self (cs : List Char) (h : '&' ∉ cs) : resolve? cs = some cs := by
  unfold resolve?
  induction cs with
  | nil => rfl
  | cons c cs ih =>
    simp only [List.mem_cons, not_or] at h
    have hc : c ≠ '&' := fun e => h.1 e.symm
    simp [resolveFrom?, hc, ih h.2]

example : resolve? "a&lt;&#65;&#x42;;".toList = some "a<AB;".toList := by decide +kernel
example : resolve? "a & b".toList = none := by decide +kernel

end Compositor.Markup
