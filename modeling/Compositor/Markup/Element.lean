import Compositor.Markup.Token

/-
  Elements: markup as a tree.

  `Element.ofText?` reads the root element of a document, and stops there: what follows the root is
  not looked at.  Start and end tags must match by name.  Attributes and references are kept as they
  are written.
-/

namespace Compositor.Markup

/-- A part of a document. -/
inductive Node where
  /-- An element: its name, the text of its attributes, and its content. -/
  | element (name attributes : List Char) (content : List Node)
  | text (raw : List Char)
  | data (raw : List Char)
  | documentType

/-- An element: its name, the text of its attributes, and its content. -/
structure Element where
  name : List Char
  attributes : List Char
  content : List Node

/-- An element whose end is not yet read; the content so far is in reverse. -/
structure OpenElement where
  name : List Char
  attributes : List Char
  reversed : List Node

/-- The open element with one more part. -/
def OpenElement.add (e : OpenElement) (n : Node) : OpenElement := { e with reversed := n :: e.reversed }

/-- Reads on inside the innermost of the open elements, until the outermost is closed. -/
def readFrom? (top : OpenElement) (outer : List OpenElement) (cs : List Char) : Option Element :=
  match h : Token.next? cs with
  | none => none
  | some (token, rest) =>
    have : rest.length < cs.length := Token.next?_length h
    match token with
    | .skipped => readFrom? top outer rest
    | .text raw => readFrom? (top.add (.text raw)) outer rest
    | .data raw => readFrom? (top.add (.data raw)) outer rest
    | .documentType => readFrom? (top.add .documentType) outer rest
    | .start name attributes true => readFrom? (top.add (.element name attributes [])) outer rest
    | .start name attributes false => readFrom? ⟨name, attributes, []⟩ (top :: outer) rest
    | .stop name =>
      if name ≠ top.name then none
      else match outer with
        | [] => some ⟨top.name, top.attributes, top.reversed.reverse⟩
        | next :: outer =>
          readFrom? (next.add (.element top.name top.attributes top.reversed.reverse)) outer rest
termination_by cs.length

/-- Reads the root element; only blanks, document types and skipped constructs may precede it. -/
def rootFrom? (cs : List Char) : Option Element :=
  match h : Token.next? cs with
  | none => none
  | some (token, rest) =>
    have : rest.length < cs.length := Token.next?_length h
    match token with
    | .skipped | .documentType => rootFrom? rest
    | .text raw => if raw.all isBlank then rootFrom? rest else none
    | .start name attributes true => some ⟨name, attributes, []⟩
    | .start name attributes false => readFrom? ⟨name, attributes, []⟩ [] rest
    | .data _ => none
    | .stop _ => none
termination_by cs.length

/-- The root element of a document, which may start with a byte order mark. -/
def Element.ofText? (text : String) : Option Element :=
  match text.toList with
  | '\ufeff' :: cs => rootFrom? cs
  | cs => rootFrom? cs

end Compositor.Markup
