import Compositor.Session.Dispatch
import Compositor.Session.Limits
import Compositor.Wire.Reader

/-
  Sessions: one client connection, driven by its owner.

  Bytes and descriptors go in by `feed` and `feedFds`, encoded events come out by `drainOutbound`.  Input
  is used whole messages at a time; a partial message waits for the rest.  The first violation is
  reported, all input is dropped, and the session stops; it is closed once its last output is taken.
-/

namespace Compositor.Sessions

open Compositor.Wire (Arg Descriptor Message ObjectId Outbox)
open Compositor.Objects (Handle Object Table TableError)
open Compositor.Protocol (Core.display Core.displayName Registry)

/-- The state of a session. -/
structure Session (K : Kit) where
  limits : Limits
  /-- Bytes that no complete message has used yet. -/
  inbound : List UInt8 := []
  /-- Descriptors that no message has claimed yet, oldest first. -/
  fds : List Descriptor := []
  connection : Connection K

namespace Session

section
variable {K : Kit}

def state (s : Session K) : Lifecycle := s.connection.state

/-- The same session in another world. -/
def withWorld (s : Session K) (world : K.World) : Session K :=
  { s with connection := { s.connection with world } }

/-- Opens a session whose only object is the display, which the registry must have. -/
def new (client : Nat) (registry : Registry) (globals : Globals K.Binder) (limits : Limits)
    (world : K.World) : Except Refusal (Session K) :=
  match registry.lookup Core.displayName 1 with
  | .error e => .error (.registry e)
  | .ok i =>
    let root : Object (Implementation K.Handler) :=
      { interface := i, version := 1, implementation := some .display }
    match (Table.empty limits.staleIdCapacity).insert .client .display root with
    | .error e => .error (.table e)
    | .ok (_, table) =>
      let outbound := Outbox.withLimit limits.maxMessageSize
      .ok { limits, connection := { client, registry, globals, table, outbound, world } }

/-- Refuses input to a session that has stopped. -/
def requireOpen (s : Session K) : Except SessionError Unit :=
  match s.state with
  | .open => .ok ()
  | state => .error (.notOpen state)

/-- The object that a header is addressed to; the display, where there is no such object. -/
def targetOf (object : UInt32) : ObjectId := (ObjectId.ofRaw? object).getD .display

/-- The target of what is at the front of the input; the display, where there is none. -/
def inboundTarget (s : Session K) : ObjectId :=
  match Wire.peekHeader s.inbound with
  | .ok (some h) => targetOf h.object
  | _ => .display

/-- What the header at the front of the input violates: it may be malformed or declare too much. -/
def headerViolation? (s : Session K) : Option (Violation × ObjectId) :=
  match Wire.peekHeader s.inbound with
  | .error e => some (.wire e, .display)
  | .ok none => none
  | .ok (some h) =>
    if s.limits.maxMessageSize < h.byteLength then
      some (.wire (.messageTooLarge h.byteLength s.limits.maxMessageSize), targetOf h.object)
    else none

end

section
variable (app : Application)

/-- Drops all input, reports a violation and stops. -/
def fail (s : Session app.toKit) (v : Violation) (target : ObjectId) :
    Except SessionError Unit × Session app.toKit :=
  (.error (.violation v),
    { s with inbound := [], fds := [], connection := s.connection.fail app v target })

/-- Dispatches complete messages off the front of the input, until there is none or the session stops.
Gives the violation that stopped it, if one did, and its target. -/
def dispatchAll (s : Session app.toKit) : Option (Violation × ObjectId) × Session app.toKit :=
  if s.connection.isOpen then
    match s.headerViolation? with
    | some v => (some v, s)
    | none =>
      match h : Wire.decode s.inbound s.fds s.connection.table.resolve with
      | .incomplete => (none, s)
      | .failed e => (some (.wire e, s.inboundTarget), s)
      | .message m consumed fds =>
        match s.connection.dispatch app m with
        | (.error v, connection) =>
          (some (v, m.object), { s with inbound := s.inbound.drop consumed, fds, connection })
        | (.ok (), connection) =>
          have : s.inbound.length - consumed < s.inbound.length := by
            have := Wire.decode_message_bounds h
            omega
          dispatchAll { s with inbound := s.inbound.drop consumed, fds, connection }
  else (none, s)
termination_by s.inbound.length

/-- Dispatches what the input holds, and sees to what is left. -/
def process (s : Session app.toKit) : Except SessionError Unit × Session app.toKit :=
  match s.dispatchAll app with
  | (some (v, target), s) => s.fail app v target
  | (none, s) =>
    if ! s.connection.isOpen then (.ok (), { s with inbound := [], fds := [] })
    else if s.limits.maxInboundBytes < s.inbound.length then
      s.fail app (.inboundOverflow s.limits.maxInboundBytes) .display
    else (.ok (), s)

/-- Appends received bytes and dispatches every complete message. -/
def feed (s : Session app.toKit) (bytes : List UInt8) : Except SessionError Unit × Session app.toKit :=
  match s.requireOpen with
  | .error e => (.error e, s)
  | .ok () => process app { s with inbound := s.inbound ++ bytes }

/-- Appends received descriptors and dispatches every message that was waiting for them. -/
def feedFds (s : Session app.toKit) (fds : List Descriptor) :
    Except SessionError Unit × Session app.toKit :=
  match s.requireOpen with
  | .error e => (.error e, s)
  | .ok () =>
    let s := { s with fds := s.fds ++ fds }
    if s.limits.maxQueuedFds < s.fds.length then
      s.fail app (.fdOverflow s.limits.maxQueuedFds) .display
    else s.process app

/-- Dispatches a request that is decoded already. -/
def dispatch (s : Session app.toKit) (m : Message) : Except SessionError Unit × Session app.toKit :=
  match s.requireOpen with
  | .error e => (.error e, s)
  | .ok () =>
    match s.connection.dispatch app m with
    | (.error v, connection) => { s with connection }.fail app v m.object
    | (.ok (), connection) => (.ok (), { s with connection })

/-- Stops the session and drops all input. -/
def close (s : Session app.toKit) : Session app.toKit :=
  { s with inbound := [], fds := [], connection := s.connection.close app }

/-- An operation on the connection, with the session around it. -/
def onConnection {α : Type} (s : Session app.toKit)
    (f : Connection app.toKit → α × Connection app.toKit) : α × Session app.toKit :=
  match f s.connection with
  | (result, connection) => (result, { s with connection })

/-- An operation on the object behind a handle. -/
def onHandle {α : Type} (s : Session app.toKit) (h : Handle)
    (f : Connection app.toKit → Except Refusal α × Connection app.toKit) :
    Except Refusal α × Session app.toKit :=
  match s.connection.table.byHandle h with
  | .error e => (.error (.table e), s)
  | .ok _ => s.onConnection app f

/-- Takes all queued bytes. -/
def drainOutbound (s : Session app.toKit) : List UInt8 × Session app.toKit :=
  s.onConnection app Connection.takeOutbound

/-- Takes all queued descriptors. -/
def takeOutboundFds (s : Session app.toKit) : List Descriptor × Session app.toKit :=
  s.onConnection app Connection.takeOutboundFds

/-- Queues an event of the object behind a handle. -/
def postEvent (s : Session app.toKit) (h : Handle) (opcode : UInt16) (args : List Arg) :
    Except Refusal Unit × Session app.toKit :=
  s.onHandle app h (·.post app h.id opcode args)

/-- Creates an object under a server id. -/
def createObject (s : Session app.toKit) (interface : String) (version : UInt32) :
    Except Refusal Handle × Session app.toKit :=
  s.onConnection app (·.create interface version)

/-- Installs the implementation of the object behind a handle. -/
def bind (s : Session app.toKit) (h : Handle) (implementation : Implementation app.Handler) :
    Except Refusal Handle × Session app.toKit :=
  s.onHandle app h (·.bind h.id implementation)

/-- Destroys the object behind a handle. -/
def destroy (s : Session app.toKit) (h : Handle) : Except Refusal Unit × Session app.toKit :=
  s.onHandle app h (·.destroy app h.id)

/-- Withdraws a global from this session; was it there? -/
def removeGlobal (s : Session app.toKit) (name : UInt32) : Except Refusal Bool × Session app.toKit :=
  s.onConnection app (·.removeGlobal app name)

end

/-- The session in one line, for inspection. -/
def describe {K : Kit} (s : Session K) : String :=
  "Session \x7b client: ClientId(" ++ Text.decimal s.connection.client ++ "), state: " ++ s.state.title ++
    ", objects: " ++ Text.decimal s.connection.table.size ++ ", pending_inbound: " ++
    Text.decimal s.inbound.length ++ " \x7d"

end Session

end Compositor.Sessions
