import Compositor.Object.Table
import Compositor.Protocol.Core
import Compositor.Protocol.Error

/-
  What can go wrong in a session.

  A `Violation` is a fault of the client and ends the session; its category and its code are reported
  to the client.  A `Refusal` is what the server's own operations on objects fail with, and an
  `AppError` is what a handler raises; neither ends the session.
-/

namespace Compositor.Sessions

open Compositor.Wire (ObjectId)
open Compositor.Objects (TableError)

/-- The life of a connection, which only moves forward. -/
inductive Lifecycle where
  /-- Requests are dispatched and events queued. -/
  | open
  /-- Stopped; what is queued can still be sent. -/
  | closing
  /-- Nothing more happens. -/
  | closed
deriving DecidableEq, Repr

/-- The name of a state in error texts. -/
def Lifecycle.name : Lifecycle → String
  | .open => "open"
  | .closing => "closing"
  | .closed => "closed"

/-- The name of a state for inspection. -/
def Lifecycle.title : Lifecycle → String
  | .open => "Open"
  | .closing => "Closing"
  | .closed => "Closed"

/-- The text for a method that the version of its object does not have. -/
def versionGatedText (interface method : String) (since : UInt32) (object : ObjectId)
    (version : UInt32) : String :=
  s!"{interface}.{method} needs version {Text.decimal since.toNat}, object {object.text} is version {Text.decimal version.toNat}"

/-! ## Violations -/

/-- The class of a violation. -/
inductive Category where
  /-- Bytes that cannot be a message, or too many of them. -/
  | framing
  /-- No such object, method or interface. -/
  | resolution
  /-- Arguments that do not fit the method. -/
  | signature
  /-- An id that the client must not allocate. -/
  | allocation
  /-- Nothing there to handle the request with. -/
  | implementation
deriving DecidableEq, Repr

/-- A fault of the client that ends the session. -/
inductive Violation where
  | wire (error : Wire.Error)
  | registry (error : Protocol.Error)
  | table (error : TableError)
  /-- The object's version does not have this request. -/
  | versionGated (object : ObjectId) (interface request : String) (since version : UInt32)
  | interfaceMismatch (index : Nat) (expected found : String)
  | unimplemented (object : ObjectId) (interface : String)
  | inboundOverflow (limit : Nat)
  | fdOverflow (limit : Nat)
deriving DecidableEq

namespace Violation

/-- The text of a violation. -/
def message : Violation → String
  | .wire e => e.message
  | .registry e => e.message
  | .table e => e.message
  | .versionGated object interface request since version =>
    versionGatedText interface request since object version
  | .interfaceMismatch index expected found =>
    s!"argument {Text.decimal index} must be a {expected}, object is a {found}"
  | .unimplemented object interface => s!"object {object.text} ({interface}) has no implementation"
  | .inboundOverflow limit => s!"more than {Text.decimal limit} bytes of undecoded input"
  | .fdOverflow limit => s!"more than {Text.decimal limit} descriptors waiting to be claimed"

/-- The class of a violation. -/
def category : Violation → Category
  | .wire e =>
    if e.isFraming then .framing else if e.isResolution then .resolution else .signature
  | .registry _ => .resolution
  | .table _ => .allocation
  | .versionGated .. => .signature
  | .interfaceMismatch .. => .signature
  | .unimplemented .. => .implementation
  | .inboundOverflow _ => .framing
  | .fdOverflow _ => .framing

/-- The code that a class of violations is reported with. -/
def codeOf : Category → UInt32
  | .resolution => Protocol.Core.invalidObject
  | .allocation => Protocol.Core.invalidObject
  | .framing => Protocol.Core.invalidMethod
  | .signature => Protocol.Core.invalidMethod
  | .implementation => Protocol.Core.implementationError

/-- The code that the client is told. -/
def code : Violation → UInt32
  | .wire (.unknownOpcode ..) => Protocol.Core.invalidMethod
  | .inboundOverflow _ => Protocol.Core.noMemory
  | .fdOverflow _ => Protocol.Core.noMemory
  | v => codeOf v.category

/-- The violation of naming an object that is not there. -/
def ofLookup : TableError → Violation
  | .notFound id => .wire (.unknownObject id.raw)
  | .stale id => .wire (.staleObject id.raw)
  | e => .table e

end Violation

/-! ## Refusals -/

/-- Why an operation of the server on its objects is refused. -/
inductive Refusal where
  | table (error : TableError)
  | registry (error : Protocol.Error)
  | wire (error : Wire.Error)
  /-- The object's version does not have this event. -/
  | versionGated (object : ObjectId) (interface event : String) (since version : UInt32)
  | notOpen (state : Lifecycle)
deriving DecidableEq

/-- The text for an operation on a session that has stopped. -/
def notOpenText (state : Lifecycle) : String := s!"session is {state.name}"

/-- The text of a refusal. -/
def Refusal.message : Refusal → String
  | .table e => e.message
  | .registry e => e.message
  | .wire e => e.message
  | .versionGated object interface event since version =>
    versionGatedText interface event since object version
  | .notOpen state => notOpenText state

/-! ## Errors of handlers and of sessions -/

/-- An error that a handler raises; the client is told, and the session goes on. -/
structure AppError where
  code : UInt32
  text : String
deriving DecidableEq

namespace AppError

/-- The text of an error with its code. -/
def message (e : AppError) : String := s!"{e.text} (code {Text.decimal e.code.toNat})"

/-- The server has no way to answer. -/
def implementation (text : String) : AppError := ⟨Protocol.Core.implementationError, text⟩

/-- A refusal that a handler passes on. -/
def ofRefusal (r : Refusal) : AppError := implementation r.message

end AppError

/-- What feeding a session can end with. -/
inductive SessionError where
  | notOpen (state : Lifecycle)
  | violation (v : Violation)
deriving DecidableEq

end Compositor.Sessions
