import Compositor.Protocol.Registry
import Compositor.Session.Error
import Compositor.Session.Globals

/-
  What an application is to a session.

  An application handles requests by programs: a `Program` is a sequence of steps, each an operation on
  the connection whose reply decides how to go on.  A handler can do nothing else, so whatever holds
  for every step holds for every handler.  `Application` is what a server brings: its handlers, what
  binding its globals starts, and a world of its own that only its programs read and write.
-/

namespace Compositor.Sessions

open Compositor.Wire (Arg ObjectId)
open Compositor.Objects (Handle)
open Compositor.Protocol (Interface Registry)

/-! ## Requests -/

/-- A request that has passed all checks. -/
structure Request where
  object : ObjectId
  opcode : UInt16
  /-- The version of the object. -/
  version : UInt32
  interface : Interface
  args : List Arg

namespace Request

/-- The name of the request. -/
def name (r : Request) : String :=
  match r.interface.method? .request r.opcode with
  | some m => m.name
  | none => ""

/-- The error for an argument that is not what a handler expects. -/
def missing (r : Request) (index : Nat) (what : String) : AppError :=
  .implementation s!"{r.interface.name}.{r.name} argument {Text.decimal index} is not {what}"

/-- The argument at a position as `read?` sees it. -/
def expect {α : Type} (r : Request) (index : Nat) (what : String) (read? : Arg → Option α) :
    Except AppError α :=
  match r.args[index]?.bind read? with
  | some a => .ok a
  | none => .error (r.missing index what)

def uint (r : Request) (index : Nat) : Except AppError UInt32 := r.expect index "a uint" Arg.uint?

def int (r : Request) (index : Nat) : Except AppError Int32 := r.expect index "an int" Arg.int?

def newId (r : Request) (index : Nat) : Except AppError ObjectId :=
  r.expect index "a new_id" Arg.newId?

/-- Takes the descriptor at a position; the arguments after it move down. -/
def takeFd (r : Request) (index : Nat) : Option Wire.Descriptor × Request :=
  match r.args[index]?.bind Arg.fd? with
  | some fd => (some fd, { r with args := r.args.eraseIdx index })
  | none => (none, r)

end Request

/-! ## Programs -/

/-- The values that an application works with. -/
structure Kit where
  Handler : Type
  /-- What a global starts when a client binds it. -/
  Binder : Type
  /-- The application's own state. -/
  World : Type

/-- What implements an object: one of the core objects, or a handler of the application. -/
inductive Implementation (H : Type) where
  | display
  | registry
  | application (handler : H)

/-- One operation on the connection. -/
inductive Step (K : Kit) where
  /-- Queues an event. -/
  | post (object : ObjectId) (opcode : UInt16) (args : List Arg)
  /-- Installs the implementation of an object. -/
  | bind (object : ObjectId) (implementation : Implementation K.Handler)
  /-- Creates an object under a server id. -/
  | create (interface : String) (version : UInt32)
  | destroy (object : ObjectId)
  /-- Counts on and gives the count. -/
  | serial
  /-- Stops the session. -/
  | close
  | isOpen
  | client
  | globals
  | registry
  /-- Reads the application's world. -/
  | recall
  /-- Replaces the application's world. -/
  | record (world : K.World)

/-- What an operation is answered with. -/
def Step.Reply {K : Kit} : Step K → Type
  | .post .. => Except Refusal Unit
  | .bind .. => Except Refusal Handle
  | .create .. => Except Refusal Handle
  | .destroy _ => Except Refusal Unit
  | .serial => UInt32
  | .close => Unit
  | .isOpen => Bool
  | .client => Nat
  | .globals => Globals K.Binder
  | .registry => Registry
  | .recall => K.World
  | .record _ => Unit

/-- Operations one after the other, with a result of type `α`. -/
inductive Program (K : Kit) (α : Type) where
  | done (result : α)
  | step (s : Step K) (next : s.Reply → Program K α)

namespace Program

variable {K : Kit} {α β : Type}

/-- Goes on with what a program results in. -/
def andThen : Program K α → (α → Program K β) → Program K β
  | .done a, f => f a
  | .step s next, f => .step s fun r => (next r).andThen f

instance : Monad (Program K) where
  pure := .done
  bind := andThen

/-- One operation, and nothing else. -/
def ofStep (s : Step K) : Program K s.Reply := .step s .done

end Program

/-- Programs that may stop with an error of the application. -/
abbrev Script (K : Kit) (α : Type) := ExceptT AppError (Program K) α

namespace Script

variable {K : Kit} {α : Type}

/-- Goes on with a value, or stops with an error. -/
def ofExcept (r : Except AppError α) : Script K α := ExceptT.mk (.done r)

/-- An operation that cannot be refused. -/
def perform (s : Step K) : Script K s.Reply := ExceptT.lift (Program.ofStep s)

/-- Goes on with what an operation gives; a refusal becomes an error of the application. -/
def attempt (p : Program K (Except Refusal α)) : Script K α :=
  ExceptT.mk (p.andThen fun
    | .ok a => .done (.ok a)
    | .error r => .done (.error (.ofRefusal r)))

def post (object : ObjectId) (opcode : UInt16) (args : List Arg) : Script K Unit :=
  attempt (.ofStep (.post object opcode args))

def bind (object : ObjectId) (implementation : Implementation K.Handler) : Script K Handle :=
  attempt (.ofStep (.bind object implementation))

def create (interface : String) (version : UInt32) : Script K Handle :=
  attempt (.ofStep (.create interface version))

def destroy (object : ObjectId) : Script K Unit := attempt (.ofStep (.destroy object))

def serial : Script K UInt32 := perform .serial

def globals : Script K (Globals K.Binder) := perform .globals

end Script

/-! ## Applications -/

/-- The behaviour of an application. -/
structure Application extends Kit where
  /-- Handles a request, and says what becomes of the handler. -/
  request : Handler → Request → Program toKit (Handler × Except AppError Unit)
  /-- Takes note that the object of a handler is gone. -/
  destroyed : Handler → ObjectId → World → World
  /-- Makes the handler of a new object that a client binds to a global. -/
  bind : Binder → ObjectId → UInt32 → Script toKit Handler

end Compositor.Sessions
