import Compositor.Toml.Number

/-
  Texts of TOML, and what may stand between its values.

  Basic texts have escapes and literal texts have none; both exist for one line and, between triple
  quotes, for several.  No control character but the tab stands in a text or a comment.
-/

namespace Compositor.Toml

/-! ## Between values -/

/-- A blank within a line. -/
def isBlank (c : Char) : Bool := c == ' ' || c == '\t'

/-- A character that may stand in a comment or, with the obvious exceptions, in a text. -/
def isPlain (c : Char) : Bool := c == '\t' || (' ' ≤ c && c != '\x7f')

/-- The text without the blanks in front of it. -/
def skipBlanks (cs : List Char) : List Char := cs.dropWhile isBlank

/-- The text after an end of line, if one stands in front of it. -/
def newline? : List Char → Option (List Char)
  | '\n' :: cs => some cs
  | '\r' :: '\n' :: cs => some cs
  | _ => none

/-- The text after a comment, if one stands in front of it; the end of line is still there. -/
def skipComment : List Char → List Char
  | '#' :: cs => cs.dropWhile isPlain
  | cs => cs

/-- What must follow a setting: blanks and a comment, then the end of the line or of the text. -/
def endOfLine? (cs : List Char) : Option (List Char) :=
  match skipComment (skipBlanks cs) with
  | [] => some []
  | cs => newline? cs

/-- The text without blanks, line ends and comments in front.  `fuel` bounds their number. -/
def skipLines : (fuel : Nat) → List Char → List Char
  | 0, cs => cs
  | fuel + 1, cs =>
    match skipComment (skipBlanks cs) with
    | cs =>
      match newline? cs with
      | some rest => skipLines fuel rest
      | none => cs

/-! ## Escapes -/

/-- A number of hexadecimal digits as a character. -/
def codePoint? (count : Nat) (cs : List Char) : Option (Char × List Char) :=
  if (cs.take count).length = count then
    match Text.ofDigits? 16 (cs.take count) with
    | some n => if h : n.isValidChar then some (Char.ofNatAux n h, cs.drop count) else none
    | none => none
  else none

/-- The character that an escape stands for; the text starts after the backslash. -/
def escape? : Reader Char
  | 'b' :: cs => some ('\x08', cs)
  | 'f' :: cs => some ('\x0c', cs)
  | 'n' :: cs => some ('\n', cs)
  | 'r' :: cs => some ('\r', cs)
  | 't' :: cs => some ('\t', cs)
  | '\\' :: cs => some ('\\', cs)
  | '"' :: cs => some ('"', cs)
  | 'u' :: cs => codePoint? 4 cs
  | 'U' :: cs => codePoint? 8 cs
  | _ => none

/-! ## Texts of one line -/

/-- The rest of a basic text.  `fuel` bounds the number of its characters. -/
def basicText? : (fuel : Nat) → Reader (List Char)
  | 0, _ => none
  | _ + 1, [] => none
  | _ + 1, '"' :: cs => some ([], cs)
  | fuel + 1, '\\' :: cs => do
    let (c, cs) ← escape? cs
    let (s, rest) ← basicText? fuel cs
    pure (c :: s, rest)
  | fuel + 1, c :: cs =>
    if isPlain c then (basicText? fuel cs).map fun (s, rest) => (c :: s, rest) else none

/-- The rest of a literal text. -/
def literalText? : Reader (List Char)
  | [] => none
  | c :: cs =>
    if c = '\x27' then some ([], cs)
    else if isPlain c then (literalText? cs).map fun (s, rest) => (c :: s, rest)
    else none

/-! ## Texts of several lines -/

/-- The text after the quotes `q` that end a text of several lines, of which three close it and one or
two more can belong to the text; the text goes on if there are fewer than three. -/
def closing? (q : Char) (cs : List Char) : Option (List Char) :=
  let quotes := cs.takeWhile (· == q)
  if quotes.length < 3 then none else some (cs.drop (min quotes.length 5))

/-- The text after a backslash that ends a line, and after all blanks and line ends that follow. -/
def lineContinuation? (fuel : Nat) (cs : List Char) : Option (List Char) :=
  match newline? (skipBlanks cs) with
  | some rest =>
    let rec skip : Nat → List Char → List Char
      | 0, cs => cs
      | fuel + 1, cs =>
        match newline? (skipBlanks cs) with
        | some rest => skip fuel rest
        | none => skipBlanks cs
    some (skip fuel rest)
  | none => none

/-- The text after a basic text of several lines.  `fuel` bounds the number of its characters. -/
def afterBasicLines? : (fuel : Nat) → List Char → Option (List Char)
  | 0, _ => none
  | fuel + 1, cs =>
    match closing? '"' cs with
    | some rest => some rest
    | none =>
      match cs with
      | [] => none
      | '\\' :: cs =>
        match lineContinuation? fuel cs with
        | some rest => afterBasicLines? fuel rest
        | none =>
          match escape? cs with
          | some (_, rest) => afterBasicLines? fuel rest
          | none => none
      | c :: rest =>
        match newline? cs with
        | some rest => afterBasicLines? fuel rest
        | none => if isPlain c then afterBasicLines? fuel rest else none

/-- The text after a literal text of several lines.  `fuel` bounds the number of its characters. -/
def afterLiteralLines? : (fuel : Nat) → List Char → Option (List Char)
  | 0, _ => none
  | fuel + 1, cs =>
    match closing? '\x27' cs with
    | some rest => some rest
    | none =>
      match cs with
      | [] => none
      | c :: rest =>
        match newline? cs with
        | some rest => afterLiteralLines? fuel rest
        | none => if isPlain c then afterLiteralLines? fuel rest else none

/-- A text of any sort, which starts with a quote. -/
def text? : Reader Value := fun cs =>
  match cs with
  | '"' :: '"' :: '"' :: cs => (afterBasicLines? (cs.length + 1) cs).map (Value.other, ·)
  | '"' :: cs => (basicText? (cs.length + 1) cs).map fun (_, rest) => (.other, rest)
  | '\x27' :: '\x27' :: '\x27' :: cs => (afterLiteralLines? (cs.length + 1) cs).map (Value.other, ·)
  | '\x27' :: cs => (literalText? cs).map fun (_, rest) => (.other, rest)
  | _ => none

end Compositor.Toml
