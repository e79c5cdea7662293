import Compositor.Protocol.Interface
import Compositor.Text.Quoted

/-
  What can be wrong with protocol definitions and with looking them up.
-/

namespace Compositor.Protocol

/-- Why a protocol description cannot be used. -/
inductive DescriptionError where
  /-- The text does not have the form of a description. -/
  | unreadable
  | unknownMethodType (interface method type : String)
  | unknownArgumentType (interface method arg type : String)
  /-- A nullability other than true and false. -/
  | invalidAllowNull (interface method arg value : String)
deriving DecidableEq

/-- The text of a description error. -/
def DescriptionError.message : DescriptionError → String
  | .unreadable => "not a protocol description"
  | .unknownMethodType interface method type =>
    s!"{interface}.{method}: unknown method type {Text.quoted type}"
  | .unknownArgumentType interface method arg type =>
    s!"{interface}.{method}.{arg}: unknown argument type {Text.quoted type}"
  | .invalidAllowNull interface method arg value =>
    s!"{interface}.{method}.{arg}: allow-null must be true or false, got {Text.quoted value}"

/-- Why a definition cannot be registered or found. -/
inductive Error where
  | interfaceNotFound (name : String)
  | versionUnsupported (interface : String) (version max : UInt32)
  | opcodeNotFound (interface : String) (direction : Direction) (opcode : UInt16)
  | duplicateInterface (name : String)
  | unknownReference (interface : String) (reference : Interface.Reference)
  | invalidInterface (interface : String) (flaw : Flaw)
  | description (error : DescriptionError)
deriving DecidableEq

/-- The text of an error. -/
def Error.message : Error → String
  | .interfaceNotFound name => s!"interface {name} is not registered"
  | .versionUnsupported interface version max =>
    s!"interface {interface} does not support version {Text.decimal version.toNat} (highest is {Text.decimal max.toNat})"
  | .opcodeNotFound interface direction opcode =>
    s!"interface {interface} has no {direction.name} with opcode {Text.decimal opcode.toNat}"
  | .duplicateInterface name => s!"interface {name} is defined twice"
  | .unknownReference interface reference =>
    s!"{interface}.{reference.method} argument {reference.param} references unknown interface {reference.target}"
  | .invalidInterface interface flaw => s!"interface {interface} is invalid: {flaw.message}"
  | .description error => s!"invalid protocol description: {error.message}"

end Compositor.Protocol
