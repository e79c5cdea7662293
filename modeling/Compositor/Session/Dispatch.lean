import Compositor.Session.Connection

/-
  Dispatching a request.

  `Connection.accept` makes all checks, in this order: target, opcode, version, arguments, the objects
  they name, and the object to be created.  Only a request that passes them all reaches an
  implementation, by `Connection.dispatch`; a destructor ends its object afterwards, unless the
  implementation has done so itself.
-/

namespace Compositor.Sessions

open Compositor.Wire (Arg Kind Message ObjectId Param)
open Compositor.Objects (Object Table)
open Compositor.Protocol

namespace Connection

section
variable {K : Kit}

/-- What is wrong with the objects that arguments name, the first argument standing at `index`: they
must be live, and of the interface that the parameter declares, if it declares one. -/
def objectFault? {α : Type} (table : Table α) (index : Nat) : List Param → List Arg → Option Violation
  | p :: ps, .object (some id) :: args =>
    match table.get id with
    | .error e => some (.ofLookup e)
    | .ok object =>
      match p.interface with
      | none => objectFault? table (index + 1) ps args
      | some expected =>
        if object.interface.name = expected then objectFault? table (index + 1) ps args
        else some (.interfaceMismatch index expected object.interface.name)
  | _ :: ps, _ :: args => objectFault? table (index + 1) ps args
  | _, _ => none

/-- The first new id among arguments, with its parameter and position. -/
def creation? (index : Nat) : List Param → List Arg → Option (Nat × Param × Arg)
  | p :: ps, arg :: args =>
    if p.kind = .newId then some (index, p, arg) else creation? (index + 1) ps args
  | _, _ => none

/-- The object that a new id stands for.  A typed one has the version of its parent, as far as its
interface has it; a generic one has the version that travels with it. -/
def newObject (registry : Registry) (parentVersion : UInt32) (index : Nat) (p : Param) (arg : Arg) :
    Except Violation (ObjectId × Interface × UInt32) :=
  match arg, p.interface with
  | .newId id, some name =>
    let version := match registry.get? name with
      | some i => if i.version < parentVersion then i.version else parentVersion
      | none => parentVersion
    match registry.lookup name version with
    | .error e => .error (.registry e)
    | .ok i => .ok (id, i, version)
  | .genericNewId name version id, none =>
    match registry.lookup name version with
    | .error e => .error (.registry e)
    | .ok i => .ok (id, i, version)
  | arg, _ => .error (.wire (.argumentType index p.kind arg.kind))

/-- Inserts the object that a request creates, if it creates one; it has no implementation yet. -/
def insertCreated (c : Connection K) (parentVersion : UInt32) (params : List Param) (args : List Arg) :
    Except Violation (Connection K) :=
  match creation? 0 params args with
  | none => .ok c
  | some (index, p, arg) =>
    match newObject c.registry parentVersion index p arg with
    | .error v => .error v
    | .ok (id, i, version) =>
      match c.table.insert .client id { interface := i, version } with
      | .error e => .error (.table e)
      | .ok (_, table) => .ok { c with table }

/-- A request that has passed all checks: its target as it was before, its method, and the connection
with the new object, if there is one. -/
structure Accepted (K : Kit) where
  target : Object (Implementation K.Handler)
  method : Method
  connection : Connection K

/-- Makes all checks of a request. -/
def accept (c : Connection K) (m : Message) : Except Violation (Accepted K) :=
  match c.table.get m.object with
  | .error e => .error (.ofLookup e)
  | .ok target =>
    match target.interface.method? .request m.opcode with
    | none => .error (.wire (.unknownOpcode target.interface.name m.opcode))
    | some method =>
      if target.version < method.since then
        .error (.versionGated m.object target.interface.name method.name method.since target.version)
      else
        match method.signature.check m.args with
        | .error e => .error (.wire e)
        | .ok () =>
          match objectFault? c.table 0 method.signature.params m.args with
          | some v => .error v
          | none =>
            match c.insertCreated target.version method.signature.params m.args with
            | .error v => .error v
            | .ok connection => .ok ⟨target, method, connection⟩

/-- Takes the implementation out of an object, for as long as it runs. -/
def takeImplementation (c : Connection K) (id : ObjectId) :
    Option (Implementation K.Handler) × Connection K :=
  match c.table.get id with
  | .ok object =>
    (object.implementation,
      { c with table := c.table.modify id fun o => { o with implementation := none } })
  | .error _ => (none, c)

end

section
variable (app : Application)

/-- Puts an implementation back into its object after a request.  If the object is gone, or was given
another implementation, it takes note of its end instead. -/
def giveBack (c : Connection app.toKit) (id : ObjectId) (generation : Nat)
    (implementation : Implementation app.Handler) : Connection app.toKit :=
  match c.table.get id with
  | .ok object =>
    if object.generation = generation ∧ ! object.isBound then
      let table := c.table.modify id fun o => { o with implementation := some implementation }
      { c with table }
    else { c with world := app.noteDestroyed (some implementation) id c.world }
  | .error _ => { c with world := app.noteDestroyed (some implementation) id c.world }

/-- Has an implementation handle a request; an error it raises is reported to the client. -/
def invoke (c : Connection app.toKit) (generation : Nat) (implementation : Implementation app.Handler)
    (r : Request) : Connection app.toKit :=
  let ((implementation, result), c) := (app.respond implementation r).run app r.object c
  let c := c.giveBack app r.object generation implementation
  match result with
  | .ok () => c
  | .error e => (c.postError app r.object e.code e.text).2

/-- Ends the object of a destructor, if it is still there. -/
def endOfLife (c : Connection app.toKit) (id : ObjectId) (generation : Nat) (m : Method) :
    Connection app.toKit :=
  if m.destructor ∧ c.isOpen ∧ c.table.isCurrent id generation then (c.destroy app id).2 else c

/-- Handles one request. -/
def dispatch (c : Connection app.toKit) (m : Message) : Except Violation Unit × Connection app.toKit :=
  match c.accept m with
  | .error v => (.error v, c)
  | .ok ⟨target, method, c⟩ =>
    match c.takeImplementation m.object with
    | (some implementation, c) =>
      let r : Request := ⟨m.object, m.opcode, target.version, target.interface, m.args⟩
      let c := c.invoke app target.generation implementation r
      (.ok (), c.endOfLife app m.object target.generation method)
    | (none, c) =>
      if method.destructor then (.ok (), c.endOfLife app m.object target.generation method)
      else (.error (.unimplemented m.object target.interface.name), c)

end

end Connection

end Compositor.Sessions
