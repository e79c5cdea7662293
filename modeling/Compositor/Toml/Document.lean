import Compositor.Toml.Text

/-
  TOML documents.

  A document is a list of sections, each a header and assignments; `Document.ofText?` reads them and
  puts them together to one tree of entries, in which no key is defined twice.  `Entries.assign` and
  `Entries.define` say what an assignment and a header may extend.
-/

namespace Compositor.Toml

/-! ## Keys -/

/-- The longest key in parts, and the deepest nesting of values, that is read. -/
def maxDepth : Nat := 79

/-- A character of a key without quotes. -/
def isBare (c : Char) : Bool := c.isAlphanum || c == '_' || c == '-'

/-- One part of a key. -/
def keyPart? : Reader String
  | '"' :: cs => (basicText? (cs.length + 1) cs).map fun (s, rest) => (String.ofList s, rest)
  | '\x27' :: cs => (literalText? cs).map fun (s, rest) => (String.ofList s, rest)
  | cs =>
    let part := cs.takeWhile isBare
    if part.isEmpty then none else some (String.ofList part, cs.dropWhile isBare)

/-- The parts of a key, between dots and blanks.  `fuel` bounds their number. -/
def keyParts? : (fuel : Nat) → Reader (List String)
  | 0, _ => none
  | fuel + 1, cs => do
    let (part, cs) ← keyPart? (skipBlanks cs)
    match skipBlanks cs with
    | '.' :: cs =>
      let (parts, rest) ← keyParts? fuel cs
      pure (part :: parts, rest)
    | rest => pure ([part], rest)

/-- A key: the tables on the way, and the last part. -/
structure Key where
  path : List String
  last : String
deriving DecidableEq, Repr

/-- Reads a key. -/
def key? : Reader Key := fun cs => do
  let (parts, rest) ← keyParts? maxDepth cs
  let last ← parts.getLast?
  pure (⟨parts.dropLast, last⟩, rest)

/-! ## Entries -/

/-- How a table came about. -/
inductive Origin where
  /-- By a header of its own, or by the start of the document. -/
  | header
  /-- As a part of the header of another table. -/
  | implied
  /-- As a part of a dotted key. -/
  | dotted
deriving DecidableEq, Repr

/-- What a key stands for. -/
inductive Item where
  | value (v : Value)
  | table (origin : Origin) (entries : List (String × Item))
  /-- An array of tables, of which only the last can be extended. -/
  | tables (last : List (String × Item))

/-- The keys of a table and what they stand for, in the order of their definition. -/
abbrev Entries := List (String × Item)

namespace Entries

/-- Changes what a key stands for, or defines it; `f` fails where this is not allowed. -/
def alter (f : Option Item → Option Item) (key : String) : Entries → Option Entries
  | [] => (f none).map fun item => [(key, item)]
  | (k, item) :: rest =>
    if k = key then (f (some item)).map fun item => (k, item) :: rest
    else (alter f key rest).map ((k, item) :: ·)

/-- What a key stands for. -/
def get? (es : Entries) (key : String) : Option Item := (es.find? (·.1 == key)).map (·.2)

/-- Defines a key.  The tables on the way must come from dotted keys, the inner ones may also be
implied; the key itself must be new. -/
def assign (v : Value) (last : String) : (path : List String) → Entries → Option Entries
  | [], es =>
    es.alter (fun
      | none => some (.value v)
      | some _ => none) last
  | p :: path, es =>
    es.alter (fun
      | none => (assign v last path []).map (.table .dotted)
      | some (.value _) => none
      | some (.table origin inner) =>
        if origin = .header ∨ (path.isEmpty ∧ origin = .implied) then none
        else (assign v last path inner).map (.table origin)
      | some (.tables inner) =>
        if path.isEmpty then none else (assign v last path inner).map .tables) p

/-- Makes all assignments in order. -/
def assignAll (assignments : List (Key × Value)) (es : Entries) : Option Entries :=
  assignments.foldlM (fun es (key, v) => es.assign v key.last key.path) es

/-- Changes what a header names; tables on the way that are not there are implied. -/
def alterAt (f : Option Item → Option Item) (last : String) : (path : List String) → Entries → Option Entries
  | [], es => es.alter f last
  | p :: path, es =>
    es.alter (fun
      | none => (alterAt f last path []).map (.table .implied)
      | some (.value _) => none
      | some (.table origin inner) => (alterAt f last path inner).map (.table origin)
      | some (.tables inner) => (alterAt f last path inner).map .tables) p

end Entries

/-! ## Values -/

/-- The elements of an array, up to its closing bracket.  `fuel` bounds their number. -/
def elements? (value? : Reader Value) : (fuel : Nat) → Reader Value
  | 0, _ => none
  | fuel + 1, cs =>
    match skipLines (cs.length + 1) cs with
    | ']' :: rest => some (.other, rest)
    | cs => do
      let (_, cs) ← value? cs
      match skipLines (cs.length + 1) cs with
      | ']' :: rest => pure (.other, rest)
      | ',' :: rest => elements? value? fuel rest
      | _ => none

/-- A key, an equals sign and a value. -/
def assignment? (value? : Reader Value) : Reader (Key × Value) := fun cs => do
  let (key, cs) ← key? cs
  match cs with
  | '=' :: cs =>
    let (v, rest) ← value? (skipBlanks cs)
    pure ((key, v), rest)
  | _ => none

/-- The assignments of an inline table, up to its closing brace.  `fuel` bounds their number. -/
def members? (value? : Reader Value) : (fuel : Nat) → Reader (List (Key × Value))
  | 0, _ => none
  | fuel + 1, cs => do
    let (a, cs) ← assignment? value? cs
    match skipBlanks cs with
    | '}' :: rest => pure ([a], rest)
    | ',' :: rest =>
      let (as, rest) ← members? value? fuel rest
      pure (a :: as, rest)
    | _ => none

/-- An inline table, after its opening brace: its keys follow the rules of any table. -/
def inlineTable? (value? : Reader Value) : Reader Value := fun cs =>
  match skipBlanks cs with
  | '}' :: rest => some (.other, rest)
  | _ => do
    let (as, rest) ← members? value? (cs.length + 1) cs
    let _ ← Entries.assignAll as []
    pure (.other, rest)

/-- A value, with arrays and inline tables up to a nesting of `depth`. -/
def value? : (depth : Nat) → Reader Value
  | 0, cs => scalar? cs
  | depth + 1, cs =>
    match cs with
    | '[' :: cs => elements? (value? depth) (cs.length + 1) cs
    | '\x7b' :: cs => inlineTable? (value? depth) cs
    | cs => scalar? cs
where
  /-- A value that holds no others. -/
  scalar? : Reader Value := fun cs =>
    match cs with
    | [] => none
    | c :: _ =>
      if c = '"' ∨ c = '\x27' then text? cs
      else if c = 't' then word? "true".toList cs
      else if c = 'f' then word? "false".toList cs
      else number? cs

/-! ## Sections -/

/-- A line that says something. -/
inductive Line where
  | assignment (key : Key) (v : Value)
  /-- The header of a table, or of the next table of an array. -/
  | header (key : Key) (ofArray : Bool)

/-- The header at the front of a text. -/
def header? : Reader Line
  | '[' :: '[' :: cs => do
    let (key, cs) ← key? cs
    match cs with
    | ']' :: ']' :: rest => pure (.header key true, rest)
    | _ => none
  | '[' :: cs => do
    let (key, cs) ← key? cs
    match cs with
    | ']' :: rest => pure (.header key false, rest)
    | _ => none
  | _ => none

/-- The lines of a text.  `fuel` bounds their number. -/
def lines? : (fuel : Nat) → List Char → Option (List Line)
  | 0, _ => none
  | fuel + 1, cs =>
    match skipBlanks cs with
    | [] => some []
    | '#' :: cs => (endOfLine? ('#' :: cs)).bind (lines? fuel)
    | '[' :: cs => do
      let (line, rest) ← header? ('[' :: cs)
      let rest ← endOfLine? rest
      let lines ← lines? fuel rest
      pure (line :: lines)
    | cs =>
      match newline? cs with
      | some rest => lines? fuel rest
      | none => do
        let ((key, v), rest) ← assignment? (value? maxDepth) cs
        let rest ← endOfLine? rest
        let lines ← lines? fuel rest
        pure (.assignment key v :: lines)

/-- A header and the assignments below it. -/
structure Section where
  key : Key
  ofArray : Bool
  assignments : List (Key × Value)

/-- The assignments in front of the first header, and the sections. -/
def sectionsOf : List Line → List (Key × Value) × List Section
  | [] => ([], [])
  | .assignment key v :: lines =>
    let (first, sections) := sectionsOf lines
    ((key, v) :: first, sections)
  | .header key ofArray :: lines =>
    let (own, sections) := sectionsOf lines
    ([], ⟨key, ofArray, own⟩ :: sections)

/-- Puts a section into its place.  A table may have been implied, but not defined; a table of an
array comes after the others. -/
def Entries.define (es : Entries) (s : Section) : Option Entries :=
  es.alterAt (fun item =>
    match s.ofArray, item with
    | true, none => (assignAll s.assignments []).map .tables
    | true, some (.tables _) => (assignAll s.assignments []).map .tables
    | true, some _ => none
    | false, none => (assignAll s.assignments []).map (.table .header)
    | false, some (.table .implied inner) => (assignAll s.assignments inner).map (.table .header)
    | false, some _ => none) s.key.last s.key.path

/-- The entries of a document, which may start with a byte order mark. -/
def Entries.ofText? (text : String) : Option Entries := do
  let cs := match text.toList with
    | '\ufeff' :: cs => cs
    | cs => cs
  let lines ← lines? (cs.length + 1) cs
  let (first, sections) := sectionsOf lines
  let root ← Entries.assignAll first []
  sections.foldlM Entries.define root

end Compositor.Toml
