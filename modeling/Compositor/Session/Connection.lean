import Compositor.Session.CoreObjects
import Compositor.Wire.Outbox

/-
  The state of a connection, and the operations on it.

  A connection has its objects, its outbound queue and a life: while it is open, operations queue events
  and change objects; once it stops, every operation is refused and nothing is queued any more.
  Results come in pairs with the connection afterwards, since an operation can fail after its first
  effects.  `Step.perform` gives every step of a program its meaning by these operations.
-/

namespace Compositor.Sessions

open Compositor.Wire (Arg Message ObjectId Outbox)
open Compositor.Objects (Handle Object Table)
open Compositor.Protocol

/-- The state of one connection. -/
structure Connection (K : Kit) where
  /-- The number of the client. -/
  client : Nat
  registry : Registry
  globals : Globals K.Binder
  table : Table (Implementation K.Handler)
  outbound : Outbox
  /-- Client ids whose deletion is announced in the outbound queue. -/
  pendingAcks : List ObjectId := []
  state : Lifecycle := .open
  serial : UInt32 := 0
  /-- The application's own state. -/
  world : K.World

namespace Connection

section
variable {K : Kit}

/-- Is the connection open? -/
def isOpen (c : Connection K) : Bool := c.state == .open

/-- Refuses operations on a connection that has stopped. -/
def requireOpen (c : Connection K) : Except Refusal Unit :=
  match c.state with
  | .open => .ok ()
  | state => .error (.notOpen state)

/-- Counts on and gives the count, which starts again at zero when it no longer fits a word. -/
def nextSerial (c : Connection K) : UInt32 × Connection K :=
  (c.serial + 1, { c with serial := c.serial + 1 })

/-- Installs the implementation of an object that has none. -/
def bind (c : Connection K) (id : ObjectId) (implementation : Implementation K.Handler) :
    Except Refusal Handle × Connection K :=
  match c.requireOpen with
  | .error e => (.error e, c)
  | .ok () =>
    match c.table.get id with
    | .error e => (.error (.table e), c)
    | .ok object =>
      if object.isBound then (.error (.table (.alreadyBound id)), c)
      else
        let table := c.table.modify id fun o => { o with implementation := some implementation }
        (.ok ⟨id, object.generation⟩, { c with table })

/-- Creates an object under the next server id. -/
def create (c : Connection K) (interface : String) (version : UInt32) :
    Except Refusal Handle × Connection K :=
  match c.requireOpen with
  | .error e => (.error e, c)
  | .ok () =>
    match c.registry.lookup interface version with
    | .error e => (.error (.registry e), c)
    | .ok i =>
      match c.table.allocate { interface := i, version } with
      | .error e => (.error (.table e), c)
      | .ok (handle, table) => (.ok handle, { c with table })

/-- Queues the deletion of an id, if it is the client's. -/
def announceDeletion (c : Connection K) (id : ObjectId) : Except Wire.Error (Connection K) :=
  if id.side = .client then
    match c.outbound.push ⟨.display, Core.deleteIdOpcode, [.uint id.raw]⟩ with
    | .error e => .error e
    | .ok outbound => .ok { c with outbound, pendingAcks := c.pendingAcks ++ [id] }
  else .ok c

/-- Checks an event and encodes it: the method it is, and the queue with it. -/
def encodeEvent (c : Connection K) (id : ObjectId) (opcode : UInt16) (args : List Arg) :
    Except Refusal (Method × Outbox) :=
  match c.requireOpen with
  | .error e => .error e
  | .ok () =>
    match c.table.get id with
    | .error e => .error (.table e)
    | .ok object =>
      match object.interface.method? .event opcode with
      | none => .error (.registry (.opcodeNotFound object.interface.name .event opcode))
      | some m =>
        if object.version < m.since then
          .error (.versionGated id object.interface.name m.name m.since object.version)
        else
          match m.signature.check args with
          | .error e => .error (.wire e)
          | .ok () =>
            match c.outbound.push ⟨id, opcode, args⟩ with
            | .error e => .error (.wire e)
            | .ok outbound => .ok (m, outbound)

/-- The room that `wl_display.error` has for its text: what is left of the limit, in whole words,
after the header, the object, the code and the length, without the NUL. -/
def errorRoom (limit : Nat) : Nat := (limit - (Wire.headerSize + 12)) / 4 * 4 - 1

/-- The text of an error event: as much as there is room for, without NUL. -/
def errorText (limit : Nat) (text : String) : String :=
  String.ofList ((Text.fitting (errorRoom limit) text.toList).map fun c =>
    if c = '\x00' then ' ' else c)

end

section
variable (app : Application)

/-- Destroys an object, tells the client if the id is the client's, and then the implementation. -/
def destroy (c : Connection app.toKit) (id : ObjectId) : Except Refusal Unit × Connection app.toKit :=
  match c.requireOpen with
  | .error e => (.error e, c)
  | .ok () =>
    if id = .display then (.error (.table (.permanent id)), c)
    else match c.table.remove id with
      | .error e => (.error (.table e), c)
      | .ok (object, table) =>
        let c := { c with table }
        match c.announceDeletion id with
        | .error e => (.error (.wire e), c)
        | .ok c => (.ok (), { c with world := app.noteDestroyed object.implementation id c.world })

/-- Queues an event; a destructor then destroys its object. -/
def post (c : Connection app.toKit) (id : ObjectId) (opcode : UInt16) (args : List Arg) :
    Except Refusal Unit × Connection app.toKit :=
  match c.encodeEvent id opcode args with
  | .error e => (.error e, c)
  | .ok (m, outbound) =>
    let c := { c with outbound }
    if m.destructor then c.destroy app id else (.ok (), c)

/-- Queues `wl_display.error` about an object. -/
def postError (c : Connection app.toKit) (id : ObjectId) (code : UInt32) (text : String) :
    Except Refusal Unit × Connection app.toKit :=
  c.post app .display Core.errorOpcode
    [.object (some id), .uint code, .string (some (errorText c.outbound.limit text))]

/-- Posts the withdrawal of a global to registry objects, up to the first failure. -/
def withdraw (name : UInt32) : List ObjectId → Connection app.toKit →
    Except Refusal Unit × Connection app.toKit
  | [], c => (.ok (), c)
  | id :: ids, c =>
    match c.post app id Core.globalRemoveOpcode [.uint name] with
    | (.error e, c) => (.error e, c)
    | (.ok (), c) => withdraw name ids c

/-- The live registry objects, in ascending order of their ids. -/
def registryIds (c : Connection app.toKit) : List ObjectId :=
  (c.table.objects.filter (·.2.interface.name == Core.registryName)).map (·.1)

/-- Withdraws a global from this connection and tells every registry object; was it there? -/
def removeGlobal (c : Connection app.toKit) (name : UInt32) :
    Except Refusal Bool × Connection app.toKit :=
  match c.requireOpen with
  | .error e => (.error e, c)
  | .ok () =>
    match c.globals.remove? name with
    | none => (.ok false, c)
    | some (_, globals) =>
      match withdraw app name (c.registryIds app) { c with globals } with
      | (.error e, c) => (.error e, c)
      | (.ok (), c) => (.ok true, c)

/-- The world after the implementations of objects have taken note of their end, one by one. -/
def noteAllDestroyed (objects : List (ObjectId × Object (Implementation app.Handler)))
    (world : app.World) : app.World :=
  objects.foldl (fun world (id, object) => app.noteDestroyed object.implementation id world) world

/-- Stops the connection and destroys all objects, highest id first.  A stopped one stays as it is. -/
def close (c : Connection app.toKit) : Connection app.toKit :=
  if c.isOpen then
    let (objects, table) := c.table.drain
    { c with
      state := .closing
      pendingAcks := []
      table
      world := noteAllDestroyed app objects c.world }
  else c

/-- Reports a violation to the client, as far as possible, and stops the connection. -/
def fail (c : Connection app.toKit) (v : Violation) (target : ObjectId) : Connection app.toKit :=
  ((c.postError app target v.code v.message).2).close app

end

section
variable {K : Kit}

/-- Hands over the queued bytes.  The client then knows of the deletions in them; and a connection that
was stopped is closed. -/
def takeOutbound (c : Connection K) : List UInt8 × Connection K :=
  let (bytes, outbound) := c.outbound.takeBytes
  (bytes, { c with
    outbound
    table := c.pendingAcks.foldl (fun table id => (table.acknowledge id).2) c.table
    pendingAcks := []
    state := if c.state = .closing then .closed else c.state })

/-- Hands over the queued descriptors. -/
def takeOutboundFds (c : Connection K) : List Wire.Descriptor × Connection K :=
  let (fds, outbound) := c.outbound.takeFds
  (fds, { c with outbound })

end

end Connection

/-! ## Running programs -/

/-- Performs an operation on behalf of the object `self`, which a handler cannot bind anew. -/
def Step.perform (app : Application) (self : ObjectId) :
    (s : Step app.toKit) → Connection app.toKit → s.Reply × Connection app.toKit
  | .post object opcode args, c => c.post app object opcode args
  | .bind object implementation, c =>
    if object = self then (.error (.table (.alreadyBound object)), c) else c.bind object implementation
  | .create interface version, c => c.create interface version
  | .destroy object, c => c.destroy app object
  | .serial, c => c.nextSerial
  | .close, c => ((), c.close app)
  | .isOpen, c => (c.isOpen, c)
  | .client, c => (c.client, c)
  | .globals, c => (c.globals, c)
  | .registry, c => (c.registry, c)
  | .recall, c => (c.world, c)
  | .record world, c => ((), { c with world })

/-- Runs a program on behalf of the object `self`. -/
def Program.run (app : Application) (self : ObjectId) {α : Type} :
    Program app.toKit α → Connection app.toKit → α × Connection app.toKit
  | .done a, c => (a, c)
  | .step s next, c =>
    match s.perform app self c with
    | (reply, c) => (next reply).run app self c

end Compositor.Sessions
