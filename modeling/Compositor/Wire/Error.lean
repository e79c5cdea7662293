import Compositor.Wire.Arg

/-
  What can be wrong with a message.

  Three families: bytes that are no message at all (`isFraming`), messages whose target cannot be
  found (`isResolution`), and arguments that do not fit the signature.  Strings that are no text
  count as framing.  `Error.message` is the only place that words them.
-/

namespace Compositor.Wire

/-- Why a message cannot be read or written. -/
inductive Error where
  /-- The declared size is below that of a header, or no whole number of words. -/
  | malformedHeader (size : UInt16)
  | messageTooLarge (size limit : Nat)
  /-- The arguments need more or fewer bytes than the header declares. -/
  | sizeMismatch (declared consumed : Nat)
  | unknownObject (id : UInt32)
  /-- The object was there once and was destroyed. -/
  | staleObject (id : UInt32)
  | unknownOpcode (interface : String) (opcode : UInt16)
  | argumentCount (expected found : Nat)
  | argumentType (index : Nat) (expected found : Kind)
  | nullArgument (index : Nat)
  | invalidNewId (index : Nat)
  /-- A string's length reaches past the end of the message. -/
  | stringOverrun (index : Nat) (len : UInt32)
  /-- An array's length reaches past the end of the message. -/
  | arrayOverrun (index : Nat) (len : UInt32)
  /-- A string without its NUL, with a NUL inside, or not in UTF-8. -/
  | invalidString (index : Nat)
deriving DecidableEq

namespace Error

/-- The text of an error. -/
def message : Error → String
  | .malformedHeader size =>
    s!"malformed header: declared size {Text.decimal size.toNat} must be at least 8 and a multiple of 4"
  | .messageTooLarge size limit =>
    s!"message of {Text.decimal size} bytes exceeds the {Text.decimal limit} byte limit"
  | .sizeMismatch declared consumed =>
    s!"size mismatch: header declared {Text.decimal declared} bytes, arguments need {Text.decimal consumed}"
  | .unknownObject id => s!"unknown object {Text.decimal id.toNat}"
  | .staleObject id => s!"object {Text.decimal id.toNat} was destroyed"
  | .unknownOpcode interface opcode =>
    s!"unknown opcode {Text.decimal opcode.toNat} on interface {interface}"
  | .argumentCount expected found =>
    s!"argument count mismatch: expected {Text.decimal expected}, found {Text.decimal found}"
  | .argumentType index expected found =>
    s!"argument {Text.decimal index}: expected {expected.name}, found {found.name}"
  | .nullArgument index => s!"argument {Text.decimal index} is null but is not nullable"
  | .invalidNewId index => s!"argument {Text.decimal index} is a new_id of 0"
  | .stringOverrun index len =>
    s!"string argument {Text.decimal index} of {Text.decimal len.toNat} bytes overruns the message"
  | .arrayOverrun index len =>
    s!"array argument {Text.decimal index} of {Text.decimal len.toNat} bytes overruns the message"
  | .invalidString index =>
    s!"string argument {Text.decimal index} is not a NUL-terminated UTF-8 string"

/-- Errors about bytes that cannot be a message. -/
def isFraming : Error → Bool
  | .malformedHeader _ | .messageTooLarge .. | .sizeMismatch .. | .stringOverrun ..
  | .arrayOverrun .. | .invalidString _ => true
  | _ => false

/-- Errors about finding the target of a message. -/
def isResolution : Error → Bool
  | .unknownObject _ | .staleObject _ | .unknownOpcode .. => true
  | _ => false

/-- No error is of both families. -/
theorem not_isResolution_of_isFraming (e : Error) (h : e.isFraming = true) :
    e.isResolution = false := by
  cases e <;> simp_all [isFraming, isResolution]

end Error

end Compositor.Wire
