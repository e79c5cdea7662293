import Compositor.Text.Numeral
import Compositor.Text.Unprintable

/-
  Quoted text.

  `quoted` puts a text between double quotes so that it stays on one line: quotes and backslashes get
  a backslash, line feed, return, tab and NUL have names, and what has no picture of its own is shown
  by its code.
-/

namespace Compositor.Text

/-- How a character is shown between double quotes. -/
def escaped (c : Char) : List Char :=
  if c = '"' then ['\\', '"']
  else if c = '\\' then ['\\', '\\']
  else if c = '\n' then ['\\', 'n']
  else if c = '\r' then ['\\', 'r']
  else if c = '\t' then ['\\', 't']
  else if c = '\x00' then ['\\', '0']
  else if isUnprintable c then ['\\', 'u', '\x7b'] ++ (hex c.toNat).toList ++ ['\x7d']
  else [c]

/-- A text between double quotes. -/
def quoted (s : String) : String := String.ofList (['"'] ++ s.toList.flatMap escaped ++ ['"'])

end Compositor.Text
