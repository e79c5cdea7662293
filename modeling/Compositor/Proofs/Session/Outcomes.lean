import Compositor.Proofs.Object.Slots
import Compositor.Proofs.Session.History

/-
  How actions turn out.

  `Action.Outcome` lists the ways in which an action can turn out on a connection, with the connection that it
  leaves and with what happens; `Action.outcome` says that there are no others.  What every action preserves
  goes by these cases, and does not open the operations again.  A destruction and the end of a connection are
  one case each: they have more to them than most invariants can pass over, and need a lemma of their own.
-/

namespace Compositor.Sessions

open Compositor.Wire (Arg Message ObjectId Outbox Param)
open Compositor.Objects (Handle Object Table)
open Compositor.Protocol

section
variable (app : Application)

/-- The ways in which an action can turn out. -/
inductive Action.Outcome (c : Connection app.toKit) :
    Action app.toKit → Connection app.toKit → List Happening → Prop where
  /-- It counts on or replaces the world, or nothing comes of it. -/
  | aside {a : Action app.toKit} {serial : UInt32} {world : app.World} :
      Outcome c a { c with serial, world } []
  | queued {id : ObjectId} {opcode : UInt16} {args : List Arg} {m : Method} :
      c.encodeEvent id opcode args = .ok (m, c.outbound.append ⟨id, opcode, args⟩) →
      Outcome c (.queue id opcode args) { c with outbound := c.outbound.append ⟨id, opcode, args⟩ }
        [.queued ⟨id, opcode, args⟩]
  | destroyed {id : ObjectId} :
      Outcome c (.destroy id) (c.destroy app id).2 (Action.happenings app (.destroy id) c)
  /-- A new object is inserted at a free id of the server. -/
  | created {interface : String} {version : UInt32} {i : Interface} {id : ObjectId} {h : Handle}
      {table : Table (Implementation app.Handler)} : c.isOpen → c.registry.lookup interface version = .ok i →
      c.table.insert .server id { interface := i, version } = .ok (h, table) →
      Outcome c (.create interface version) { c with table } [.inserted id]
  /-- The object that a request creates is inserted at the id that the client wants. -/
  | inserted {parentVersion version : UInt32} {params : List Param} {args : List Arg} {name : String}
      {i : Interface} {id : ObjectId} {h : Handle} {table : Table (Implementation app.Handler)} :
      c.isOpen → c.registry.lookup name version = .ok i →
      c.table.insert .client id { interface := i, version } = .ok (h, table) →
      Outcome c (.insertCreated parentVersion params args) { c with table } [.inserted id]
  | bound {id : ObjectId} {i : Implementation app.Handler} {o : Object (Implementation app.Handler)} :
      c.table.get id = .ok o → o.implementation = none →
      Outcome c (.bind id i) { c with table := c.table.modify id fun o => { o with implementation := some i } } []
  | taken {id : ObjectId} {o : Object (Implementation app.Handler)} : c.table.get id = .ok o →
      Outcome c (.take id) { c with table := c.table.modify id fun o => { o with implementation := none } } []
  | returned {id : ObjectId} {generation : Nat} {i : Implementation app.Handler}
      {o : Object (Implementation app.Handler)} : c.table.byHandle ⟨id, generation⟩ = .ok o →
      o.implementation = none → Outcome c (.giveBack id generation i)
        { c with table := c.table.modify id fun o => { o with implementation := some i } } []
  | withdrawn {name : UInt32} {globals : Globals app.Binder} : Outcome c (.withdraw name) { c with globals } []
  | closed : Outcome c .close (c.close app) []
  | drained : Outcome c .drain c.takeOutbound.2 [.drained c.takeOutbound.1]
  | fdsDrained : Outcome c .drainFds c.takeOutboundFds.2 []

variable {app}

/-- An action turns out in one of these ways. -/
theorem Action.outcome (a : Action app.toKit) (c : Connection app.toKit) :
    Outcome app c a (a.apply app c) (a.happenings app c) := by
  have hnothing : ∀ {a}, Outcome app c a c [] := .aside
  unfold apply happenings
  cases a with
  | queue id opcode args =>
    dsimp only
    cases hencode : c.encodeEvent id opcode args with
    | error e => exact hnothing
    | ok p =>
      obtain ⟨m, outbound⟩ := p
      obtain ⟨-, -, -, -, -, -, hpush⟩ := Connection.encodeEvent_eq_ok_iff.1 hencode
      obtain ⟨-, rfl⟩ := (Outbox.push_eq_ok_iff _ _ _).1 hpush
      exact .queued hencode
  | destroy id => exact .destroyed
  | create interface version =>
    dsimp only
    rcases c.create_cases interface version with ⟨e, heq⟩ | ⟨i, id, h, table, hopen, hlookup, hinsert, heq⟩
    · rw [heq]
      exact hnothing
    · obtain ⟨-, rfl, -⟩ := Table.insert_eq_ok_iff.1 hinsert
      rw [heq]
      exact .created hopen hlookup hinsert
  | insertCreated version params args =>
    dsimp only
    by_cases hopen : c.isOpen
    · rw [if_pos hopen, if_pos hopen]
      cases hcreated : c.insertCreated version params args with
      | error v => exact hnothing
      | ok c' =>
        dsimp only
        rcases Connection.insertCreated_cases hcreated with
          ⟨hnone, rfl⟩ | ⟨id, i, _, h, table, hid, ⟨name, hlookup⟩, hinsert, rfl⟩
        · rw [hnone]
          exact hnothing
        · rw [hid]
          exact .inserted hopen hlookup hinsert
    · rw [if_neg hopen, if_neg hopen]
      exact hnothing
  | bind id i =>
    dsimp only
    rcases c.bind_cases id i with ⟨e, heq⟩ | ⟨o, -, hget, hunbound, heq⟩
    · rw [heq]
      exact hnothing
    · rw [heq]
      exact .bound hget hunbound
  | take id =>
    dsimp only
    unfold Connection.takeImplementation
    split
    · rename_i hget
      exact .taken hget
    · exact hnothing
  | giveBack id generation i =>
    dsimp only
    rcases c.giveBack_cases app id generation i with ⟨o, hbehind, hunbound, heq⟩ | ⟨-, heq⟩
    · rw [heq]
      exact .returned hbehind hunbound
    · rw [heq]
      exact .aside
  | withdraw name =>
    dsimp only
    split
    · exact hnothing
    · exact .withdrawn
  | count => exact .aside
  | record world => exact .aside
  | close => exact .closed
  | drain => exact .drained
  | drainFds => exact .fdsDrained

end

end Compositor.Sessions
