import Compositor.Markup.Element
import Compositor.Markup.Namespace

/-
  Content: what is asked of the parts of an element, by how closely they are read.

  Content that is read to be used later has to be sound all through (`isSound`); of content that is
  skipped only the tag that it starts with counts (`isSkippable`).  `isSkippable_of_isSound` says that
  the second asks for less.  `textOf?` is the text of content without elements.
-/

namespace Compositor.Markup

/-! ## Soundness -/

mutual

/-- Do all tags in a node, its own included, bind prefixes as they may, and do all references in its
texts stand for characters? -/
def Node.isSound : Node → Bool
  | .element _ attributes content => mayBind attributes && isSound content
  | .text raw => (resolve? raw).isSome
  | .data _ => true
  | .documentType => true

/-- Is every node in some content sound? -/
def isSound : List Node → Bool
  | [] => true
  | n :: ns => n.isSound && isSound ns

end

/-- Is a node a text of blanks? -/
def Node.isBlank : Node → Bool
  | .text raw => raw.all Markup.isBlank
  | _ => false

/-- May content be skipped?  If the first thing in it is a tag, its bindings have to be allowed. -/
def isSkippable (content : List Node) : Bool :=
  match content.dropWhile Node.isBlank with
  | .element _ attributes _ :: _ => mayBind attributes
  | _ => true

theorem isSound_of_mem {n : Node} {content : List Node} (h : isSound content = true) (hn : n ∈ content) :
    n.isSound = true := by
  induction content with
  | nil => nomatch hn
  | cons m ms ih =>
    rw [isSound, Bool.and_eq_true] at h
    rcases List.mem_cons.1 hn with rfl | hn
    · exact h.1
    · exact ih h.2 hn

/-- Sound content may be skipped. -/
theorem isSkippable_of_isSound {content : List Node} (h : isSound content = true) :
    isSkippable content = true := by
  unfold isSkippable
  split
  · rename_i attributes _ _ hd
    have hmem := (List.dropWhile_sublist Node.isBlank (l := content)).subset
      (hd ▸ List.mem_cons_self (l := _))
    have := isSound_of_mem h hmem
    rw [Node.isSound, Bool.and_eq_true] at this
    exact this.1
  · rfl

/-! ## Text -/

/-- Splits content at its document types. -/
def runs : List Node → List (List Node)
  | [] => [[]]
  | .documentType :: ns => [] :: runs ns
  | n :: ns =>
    match runs ns with
    | [] => [[n]]
    | run :: rest => (n :: run) :: rest

/-- The text of a run.  If the last of its nodes is a text, that text ends before its last blanks. -/
def joined? : List Node → Option (List Char)
  | [] => some []
  | .data raw :: ns => (joined? ns).map (raw ++ ·)
  | .text raw :: ns =>
    match resolve? (if ns.isEmpty then trimEnd raw else raw) with
    | some cs => (joined? ns).map (cs ++ ·)
    | none => none
  | .element _ _ _ :: _ => none
  | .documentType :: _ => none

/-- The text of a run whose first node is not blank.  If it is a text, it starts after its blanks. -/
def textOfRun? : List Node → Option (List Char)
  | .text raw :: ns => joined? (.text (raw.dropWhile Markup.isBlank) :: ns)
  | ns => joined? ns

/-- The text of content without elements.  Blanks around it do not count, and document types must not
part it. -/
def textOf? (content : List Node) : Option (List Char) :=
  match ((runs content).map (·.dropWhile Node.isBlank)).filter (! ·.isEmpty) with
  | [] => some []
  | [run] => textOfRun? run
  | _ => none

example : textOf? [.text " a&lt;".toList, .data " b ".toList, .text " c ".toList] = some "a< b  c".toList := by
  decide +kernel
example : textOf? [.text "a".toList, .documentType, .text "b".toList] = none := by decide +kernel

end Compositor.Markup
