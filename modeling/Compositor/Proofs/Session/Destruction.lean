import Compositor.Proofs.Session.Effects
import Compositor.Proofs.Session.Report

/-
  Destruction, all or nothing.

  A destruction takes the object out of the table before it announces the deletion to the client.  So it is as
  a whole only as long as an announcement cannot fail, and what can fail is its size: the smallest limits that
  a session can work with have no room for it (`Voiceless`).  There the object goes, its implementation takes
  no note, and the client waits for its id to be released.  Everywhere else a destruction is done or refused,
  and if it is refused, nothing has changed (`AllOrNothing`).

  No action changes the limit of the queue (`Action.keeps`), so `destroys_of_new` says which of the two
  it is for the whole life of a session, also for what handlers destroy in the middle of an operation.
-/

namespace Compositor.Sessions

open Compositor.Wire (ObjectId)
open Compositor.Objects (Object Table)
open Compositor.Protocol

/-! ## The limit of the queue -/

/-- A session is opened with the limit of its messages on the queue. -/
theorem Session.limit_of_new {K : Kit} {client : Nat} {registry : Registry} {globals : Globals K.Binder}
    {limits : Limits} {world : K.World} {s : Session K}
    (hnew : Session.new client registry globals limits world = .ok s) :
    s.connection.outbound.limit = min limits.maxMessageSize Wire.maxMessageSize := by
  obtain ⟨i, h, table, -, -, rfl⟩ := exists_of_new hnew
  rfl

/-! ## Outcomes -/

namespace Connection

/-- An object that can be destroyed, but whose deletion is too large for messages of this size. -/
structure Voiceless {K : Kit} (limit : Nat) (c : Connection K) (id : ObjectId)
    (o : Object (Implementation K.Handler)) : Prop where
  live : c.table.get id = .ok o
  mortal : id ≠ .display
  side : id.side = .client
  small : limit < (deletion id).size

section
variable (app : Application)

/-- What is different when an object has been destroyed. -/
structure Destroyed (c : Connection app.toKit) (id : ObjectId)
    (o : Object (Implementation app.Handler)) (c' : Connection app.toKit) : Prop where
  /-- It was there, and is gone, with nothing else. -/
  removed : c.table.remove id = .ok (o, c'.table)
  objects : c'.table.objects = c.table.objects.erase id
  /-- Its implementation, if it had one, has taken note of that, once. -/
  episodes : Action.episodes app (.destroy id) c = .departure (id, o) :: Episode.notices (id, o)
  world : c'.world = app.noteDestroyed o.implementation id c.world
  /-- The deletion of a client id is queued, and recorded for acknowledgement; a server id goes silently. -/
  client : id.side = .client → c'.outbound = c.outbound.append (deletion id) ∧
    c'.pendingAcks = c.pendingAcks ++ [id]
  server : id.side = .server → c'.outbound = c.outbound ∧ c'.pendingAcks = c.pendingAcks
  others : c'.client = c.client ∧ c'.registry = c.registry ∧ c'.globals = c.globals ∧ c'.state = c.state ∧
    c'.serial = c.serial

/-- A destruction is done as a whole, or refused, and then the connection is as before. -/
inductive AllOrNothing (c : Connection app.toKit) (id : ObjectId) : Prop where
  | all {o : Object (Implementation app.Handler)} {c' : Connection app.toKit} :
      c.destroy app id = (.ok (), c') → c.Destroyed app id o c' → AllOrNothing c id
  /-- The display lives as long as the connection. -/
  | permanent : id = .display → c.destroy app id = (.error (.table (.permanent id)), c) → AllOrNothing c id
  /-- There is nothing to destroy. -/
  | missing {e : Objects.TableError} : c.table.get id = .error e →
      c.destroy app id = (.error (.table e), c) → AllOrNothing c id

/-- A destruction that stops halfway: the object is gone, and that is all. -/
structure Halfway (limit : Nat) (c : Connection app.toKit) (id : ObjectId)
    (o : Object (Implementation app.Handler)) : Prop where
  destroy_eq : ∃ table, c.table.remove id = .ok (o, table) ∧
    c.destroy app id = (.error (.wire (.messageTooLarge (deletion id).size limit)), { c with table })
  unnoticed : Action.episodes app (.destroy id) c = []

/-- What comes of destroying an id of an open connection with messages of a limited size. -/
structure Destroys (limit : Nat) (c : Connection app.toKit) (id : ObjectId) : Prop where
  whole : (∀ o, ¬ c.Voiceless limit id o) → c.AllOrNothing app id
  halfway : ∀ o, c.Voiceless limit id o → c.Halfway app limit id o

end

/-- Once the object is out of the table, the announcement decides. -/
theorem destroy_of_get (app : Application) (c : Connection app.toKit) {id : ObjectId}
    {o : Object (Implementation app.Handler)} (hopen : c.isOpen) (hget : c.table.get id = .ok o)
    (hid : id ≠ .display) : ∃ table, c.table.remove id = .ok (o, table) ∧
      c.destroy app id = match announceDeletion { c with table } id with
        | .error e => (.error (.wire e), { c with table })
        | .ok c => (.ok (), { c with world := app.noteDestroyed o.implementation id c.world }) := by
  obtain ⟨table, hremove⟩ : ∃ table, c.table.remove id = .ok (o, table) :=
    ⟨_, Table.remove_eq_ok_iff.2 ⟨Table.get_eq_ok_iff.1 hget, rfl⟩⟩
  refine ⟨table, hremove, ?_⟩
  unfold destroy
  rw [requireOpen_eq_ok_iff.2 hopen]
  dsimp only
  cases hannounce : announceDeletion { c with table } id with
  | error e =>
    rw [if_neg hid, hremove]
    dsimp only
    rw [hannounce]
  | ok c' =>
    rw [if_neg hid, hremove]
    dsimp only
    rw [hannounce]

section
variable {app : Application} {c : Connection app.toKit} {id : ObjectId}
  {o : Object (Implementation app.Handler)}

/-- What is refused before the table is touched. -/
theorem allOrNothing_of_refused (hopen : c.isOpen)
    (h : id = .display ∨ ∃ e, c.table.get id = .error e) : c.AllOrNothing app id := by
  have hrequire := requireOpen_eq_ok_iff.2 hopen
  by_cases hid : id = .display
  · refine .permanent hid ?_
    unfold destroy
    rw [hrequire]
    exact if_pos hid
  · obtain ⟨e, hget⟩ := h.resolve_left hid
    have hremove : c.table.remove id = .error e := by
      unfold Table.remove
      rw [hget]
    refine .missing hget ?_
    unfold destroy
    rw [hrequire]
    dsimp only
    rw [if_neg hid, hremove]

/-- An object whose deletion can be announced is destroyed as a whole. -/
theorem allOrNothing_of_announced {table : Table (Implementation app.Handler)}
    (hget : c.table.get id = .ok o) (hremove : c.table.remove id = .ok (o, table))
    (hdestroy : c.destroy app id = (.ok (), { announced { c with table } id with
      world := app.noteDestroyed o.implementation id c.world })) : c.AllOrNothing app id := by
  obtain ⟨htable, hstate, -, -⟩ := announced_keeps { c with table } id
  refine .all hdestroy ⟨?_, ?_, ?_, rfl, fun hside => ?_, fun hside => ?_, ?_⟩
  · rw [hremove]
    exact congrArg (fun t => Except.ok (o, t)) htable.symm
  · exact (congrArg Table.objects htable).trans (Table.objects_remove hremove).2.1
  · unfold Action.episodes
    dsimp only
    rw [hget, hdestroy]
  · unfold announced
    rw [if_pos hside]
    exact ⟨rfl, rfl⟩
  · have hnot : id.side ≠ .client := by
      rw [hside]
      exact nofun
    unfold announced
    rw [if_neg hnot]
    exact ⟨rfl, rfl⟩
  · unfold announced
    split
    · exact ⟨rfl, rfl, rfl, rfl, rfl⟩
    · exact ⟨rfl, rfl, rfl, rfl, rfl⟩

/-- Where a deletion is too large, its announcement fails. -/
theorem announceDeletion_of_small (hside : id.side = .client)
    (hsmall : c.outbound.limit < (deletion id).size) : c.announceDeletion id =
      .error (.messageTooLarge (deletion id).size c.outbound.limit) := by
  have hfault : (deletion id).fault? c.outbound.limit =
      some (.messageTooLarge (deletion id).size c.outbound.limit) := if_pos hsmall
  have hpush := (Wire.Outbox.push_eq_error_iff c.outbound (deletion id) _).2 hfault
  unfold deletion at hpush
  unfold announceDeletion
  rw [if_pos hside, hpush]
  rfl

/-- What destroying an id of an open connection comes to: it is all or nothing, unless the deletion is too
large for the queue. -/
theorem destroys_of_isOpen (hopen : c.isOpen) (id : ObjectId) : c.Destroys app c.outbound.limit id := by
  refine ⟨fun hvoice => ?_, fun o hvoiceless => ?_⟩
  · by_cases hid : id = .display
    · exact allOrNothing_of_refused hopen (.inl hid)
    · cases hget : c.table.get id with
      | error e => exact allOrNothing_of_refused hopen (.inr ⟨e, hget⟩)
      | ok o =>
        obtain ⟨table, hremove, hdestroy⟩ := c.destroy_of_get app hopen hget hid
        -- the announcement has room, or there is none to make
        have hannounce : announceDeletion { c with table } id = .ok (announced { c with table } id) := by
          by_cases hside : id.side = .client
          · have hroom : (deletion id).size ≤ c.outbound.limit :=
              Nat.le_of_not_lt fun hsmall => hvoice o ⟨hget, hid, hside, hsmall⟩
            exact announceDeletion_eq (c := { c with table }) hroom id
          · unfold announceDeletion announced
            rw [if_neg hside, if_neg hside]
        rw [hannounce] at hdestroy
        refine allOrNothing_of_announced hget hremove (hdestroy.trans ?_)
        dsimp only
        rw [(announced_keeps { c with table } id).2.2.1]
  · obtain ⟨table, hremove, hdestroy⟩ := c.destroy_of_get app hopen hvoiceless.live hvoiceless.mortal
    rw [announceDeletion_of_small (c := { c with table }) hvoiceless.side hvoiceless.small] at hdestroy
    refine ⟨⟨table, hremove, hdestroy⟩, ?_⟩
    unfold Action.episodes
    dsimp only
    rw [hvoiceless.live, hdestroy]

/-- An object that is destroyed is gone, whether its deletion can be announced or not. -/
theorem contains_destroy (hopen : c.isOpen) (hget : c.table.get id = .ok o) (hid : id ≠ .display) :
    (c.destroy app id).2.table.contains id = false := by
  obtain ⟨table, hremove, hdestroy⟩ := c.destroy_of_get app hopen hget hid
  have hgone : table.contains id = false := by
    rw [Table.contains_eq_false_iff, (Table.objects_remove hremove).2.1, Objects.Directory.get?_erase,
      if_pos rfl]
  rw [hdestroy]
  rcases announceDeletion_cases { c with table } id with ⟨e, hannounce⟩ | hannounce
  · rw [hannounce]
    exact hgone
  · rw [hannounce]
    dsimp only
    rw [(announced_keeps { c with table } id).1]
    exact hgone

end

end Connection

/-! ## The whole life of a session -/

section
variable {app : Application}

/-- In every run, and in the middle of any operation after it, whose actions up to there are `as`: while the
connection is open, destroying whatever id is all or nothing, unless the limit of the session has no room for
the announcement. -/
theorem destroys_of_new {client : Nat} {registry : Registry} {globals : Globals app.Binder} {limits : Limits}
    {world : app.World} {s : Session app.toKit}
    (hnew : Session.new client registry globals limits world = .ok s) (hlimits : limits.check = .ok ())
    (ops : List (Operation app.toKit)) (as : List (Action app.toKit))
    (hopen : (replay app as (s.performAll app ops).connection).isOpen) (id : ObjectId) :
    (replay app as (s.performAll app ops).connection).Destroys app limits.maxMessageSize id := by
  have hkeeps : ∀ (a : Action app.toKit) c, c.outbound.limit = limits.maxMessageSize →
      (a.apply app c).outbound.limit = limits.maxMessageSize := fun a c h => (a.keeps c).limit_eq.trans h
  have hstart : s.connection.outbound.limit = limits.maxMessageSize :=
    (Session.limit_of_new hnew).trans
      (Nat.min_eq_left ((Limits.check_eq_ok_iff limits).1 hlimits).message_le)
  have hlimit := replay_preserves hkeeps as (Session.performAll_preserves hkeeps ops hstart)
  rw [← hlimit]
  exact Connection.destroys_of_isOpen hopen id

end

/-! ## A destruction that stops halfway -/

/-- The id of a registry object. -/
def orphanId : ObjectId := ⟨10, by decide⟩

/-- The connection of a session with the smallest limits, in which a client has asked for a registry. -/
def orphanage : Connection Application.bare.toKit :=
  (Session.tight.performAll .bare [.dispatch ⟨.display, Core.getRegistryOpcode, [.newId orphanId]⟩]).connection

/-- Destroying the registry there is refused, and yet it is gone: nothing is queued, and its id is not
remembered as one to be acknowledged. -/
theorem destroyed_halfway_sample : tightLimits.check = .ok () ∧
    Session.new 0 .core {} tightLimits () = .ok Session.tight ∧ orphanage.isOpen ∧
      orphanage.table.contains orphanId ∧
        (orphanage.destroy .bare orphanId).1 = .error (.wire (.messageTooLarge 12 8)) ∧
          (orphanage.destroy .bare orphanId).2.table.contains orphanId = false ∧
            (orphanage.destroy .bare orphanId).2.outbound.bytes = [] ∧
              (orphanage.destroy .bare orphanId).2.pendingAcks = [] := by
  refine ⟨rfl, rfl, by decide +kernel, by decide +kernel, rfl, by decide +kernel, by decide +kernel,
    by decide +kernel⟩

theorem destroys_of_new_sample : tightLimits.check = .ok () ∧
    Session.new 0 .core {} tightLimits () = .ok Session.tight ∧ orphanage.isOpen ∧
      orphanage.Destroys .bare 8 orphanId := by
  have hnew : Session.new 0 .core {} tightLimits () = .ok Session.tight := rfl
  have hopen : orphanage.isOpen := by decide +kernel
  exact ⟨rfl, hnew, hopen, destroys_of_new hnew rfl
    [.dispatch ⟨.display, Core.getRegistryOpcode, [.newId orphanId]⟩] [] hopen orphanId⟩

end Compositor.Sessions
