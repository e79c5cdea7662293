import Compositor.Session.Session

/-
  The sessions of a server, by client.

  All sessions of an application share its world: a session is lent the world for the time of an
  operation and hands it back.
-/

namespace Compositor.Sessions

open Compositor.Protocol (Registry)

/-- The live sessions of a server, in the order in which they were opened. -/
structure Clients (K : Kit) where
  sessions : List (Nat × Session K) := []
  /-- The number of the next client. -/
  next : Nat := 0
  world : K.World

namespace Clients

section
variable {K : Kit}

/-- The session of a client, in the world as it is. -/
def get? (cs : Clients K) (client : Nat) : Option (Session K) :=
  (cs.sessions.find? (·.1 == client)).map (·.2.withWorld cs.world)

/-- The clients with a session. -/
def ids (cs : Clients K) : List Nat := cs.sessions.map (·.1)

/-- The number of sessions. -/
def size (cs : Clients K) : Nat := cs.sessions.length

/-- Opens a session for a new client. -/
def connect (cs : Clients K) (registry : Registry) (globals : Globals K.Binder) (limits : Limits) :
    Except Refusal (Nat × Clients K) :=
  match Session.new cs.next registry globals limits cs.world with
  | .error e => .error e
  | .ok s => .ok (cs.next, { cs with sessions := cs.sessions ++ [(cs.next, s)], next := cs.next + 1 })

/-- Runs an operation on the session of a client, if it has one. -/
def withSession {α : Type} (cs : Clients K) (client : Nat) (f : Session K → α × Session K) :
    Option α × Clients K :=
  match cs.get? client with
  | none => (none, cs)
  | some s =>
    match f s with
    | (a, s) =>
      (some a, { cs with
        sessions := cs.sessions.map fun (k, old) => if k = client then (k, s) else (k, old)
        world := s.connection.world })

/-- Drops every session that is closed, and says whose they were. -/
def reap (cs : Clients K) : List Nat × Clients K :=
  let (closed, rest) := cs.sessions.partition (·.2.state == .closed)
  (closed.map (·.1), { cs with sessions := rest })

end

/-- Removes and closes the session of a client. -/
def remove (app : Application) (cs : Clients app.toKit) (client : Nat) :
    Option (Session app.toKit) × Clients app.toKit :=
  match cs.get? client with
  | none => (none, cs)
  | some s =>
    let s := s.close app
    (some s, { cs with
      sessions := cs.sessions.filter (·.1 != client)
      world := s.connection.world })

end Clients

end Compositor.Sessions
