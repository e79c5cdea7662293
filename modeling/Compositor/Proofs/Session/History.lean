import Compositor.Proofs.Session.Runs

/-
  What happens in a run.

  The client sees a connection through its ids: objects are inserted at them, events are queued, deletions
  are announced, and everything that is queued is drained at some point.  `Action.happenings` says which of
  these an action does, going by what it really changes (`encodeEvent_eq_ok_iff`, `destroy_cases`,
  `create_cases`, `insertCreated_cases`), and `Session.history` lists them over a whole run.
-/

namespace Compositor.Sessions

open Compositor.Wire (Arg Message ObjectId Outbox Param)
open Compositor.Objects (Handle Object Table)
open Compositor.Protocol

/-! ## What actions change -/

/-- The announcement of a deletion. -/
def deletion (id : ObjectId) : Message := ⟨.display, Core.deleteIdOpcode, [.uint id.raw]⟩

/-- Announcements are the smallest of all events. -/
theorem fault?_deletion {limit : Nat} (h : 12 ≤ limit) (id : ObjectId) :
    (deletion id).fault? limit = none := by
  have hsize : (deletion id).size = 12 := rfl
  show (if limit < (deletion id).size then _ else none) = none
  rw [hsize, if_neg (by omega)]

namespace Connection

section
variable {K : Kit}

theorem requireOpen_eq_ok_iff {c : Connection K} : c.requireOpen = .ok () ↔ c.isOpen := by
  unfold requireOpen isOpen
  cases c.state with
  | «open» => exact ⟨fun _ => rfl, fun _ => rfl⟩
  | closing => exact ⟨nofun, nofun⟩
  | closed => exact ⟨nofun, nofun⟩

/-- An event is encoded exactly if the connection is open, its object is live and has it, and it fits. -/
theorem encodeEvent_eq_ok_iff {c : Connection K} {id : ObjectId} {opcode : UInt16} {args : List Arg}
    {m : Method} {outbound : Outbox} : c.encodeEvent id opcode args = .ok (m, outbound) ↔
      c.isOpen ∧ ∃ object, c.table.get id = .ok object ∧
        object.interface.method? .event opcode = some m ∧ ¬ object.version < m.since ∧
          m.signature.check args = .ok () ∧ c.outbound.push ⟨id, opcode, args⟩ = .ok outbound := by
  rw [← requireOpen_eq_ok_iff]
  unfold encodeEvent
  -- one check after the other: each that fails gives an error
  constructor
  · intro h
    split at h
    · nomatch h
    · rename_i hopen
      split at h
      · nomatch h
      · rename_i object hobject
        split at h
        · nomatch h
        · rename_i m' hm
          split at h
          · nomatch h
          · rename_i hsince
            split at h
            · nomatch h
            · rename_i hcheck
              split at h
              · nomatch h
              · rename_i outbound' hpush
                injection h with h
                injection h with hm' ho
                subst hm' ho
                exact ⟨hopen, object, hobject, hm, hsince, hcheck, hpush⟩
  · rintro ⟨hopen, object, hobject, hm, hsince, hcheck, hpush⟩
    rw [hopen]
    dsimp only
    rw [hobject]
    dsimp only
    rw [hm]
    dsimp only
    rw [if_neg hsince, hcheck]
    dsimp only
    rw [hpush]

/-- An event with which all is well but its encoding is refused as that is. -/
theorem encodeEvent_of_push_eq_error {c : Connection K} {id : ObjectId} {opcode : UInt16} {args : List Arg}
    {object : Object (Implementation K.Handler)} {m : Method} {e : Wire.Error} (hopen : c.isOpen)
    (hget : c.table.get id = .ok object) (hmethod : object.interface.method? .event opcode = some m)
    (hsince : ¬ object.version < m.since) (hcheck : m.signature.check args = .ok ())
    (hpush : c.outbound.push ⟨id, opcode, args⟩ = .error e) :
    c.encodeEvent id opcode args = .error (.wire e) := by
  unfold encodeEvent
  rw [requireOpen_eq_ok_iff.2 hopen]
  dsimp only
  rw [hget]
  dsimp only
  rw [hmethod]
  dsimp only
  rw [if_neg hsince, hcheck]
  dsimp only
  rw [hpush]

/-- The connection with the deletion of a client id announced. -/
def announced (c : Connection K) (id : ObjectId) : Connection K :=
  if id.side = .client then
    { c with outbound := c.outbound.append (deletion id), pendingAcks := c.pendingAcks ++ [id] }
  else c

theorem announced_keeps (c : Connection K) (id : ObjectId) :
    (c.announced id).table = c.table ∧ (c.announced id).state = c.state ∧
      (c.announced id).world = c.world ∧ (c.announced id).outbound.limit = c.outbound.limit := by
  unfold announced
  split
  · exact ⟨rfl, rfl, rfl, rfl⟩
  · exact ⟨rfl, rfl, rfl, rfl⟩

/-- The two outcomes of an announcement. -/
theorem announceDeletion_cases (c : Connection K) (id : ObjectId) :
    (∃ e, c.announceDeletion id = .error e) ∨ c.announceDeletion id = .ok (c.announced id) := by
  unfold announceDeletion announced
  split
  · split
    · exact .inl ⟨_, rfl⟩
    · rename_i outbound hpush
      obtain ⟨-, rfl⟩ := (Outbox.push_eq_ok_iff _ _ _).1 hpush
      exact .inr rfl
  · exact .inr rfl

/-- Where announcements have room, they cannot fail. -/
theorem announceDeletion_eq {c : Connection K} (hroom : 12 ≤ c.outbound.limit) (id : ObjectId) :
    c.announceDeletion id = .ok (c.announced id) := by
  unfold announceDeletion announced
  split
  · have hpush := (Outbox.push_eq_ok_iff c.outbound _ (deletion id)).2 ⟨fault?_deletion hroom id, rfl⟩
    unfold deletion at hpush
    rw [hpush]
    rfl
  · rfl

/-- The two outcomes of a creation. -/
theorem create_cases (c : Connection K) (interface : String) (version : UInt32) :
    (∃ e, c.create interface version = (.error e, c)) ∨ ∃ i id h table, c.isOpen ∧
      c.registry.lookup interface version = .ok i ∧
        c.table.insert .server id { interface := i, version } = .ok (h, table) ∧
          c.create interface version = (.ok h, { c with table }) := by
  unfold create
  split
  · rename_i e _
    exact .inl ⟨e, rfl⟩
  · rename_i hopen
    split
    · rename_i e _
      exact .inl ⟨_, rfl⟩
    · rename_i i hlookup
      split
      · exact .inl ⟨_, rfl⟩
      · rename_i h table hallocate
        unfold Table.allocate at hallocate
        split at hallocate
        · split at hallocate
          · rename_i id _
            exact .inr ⟨i, id, h, table, requireOpen_eq_ok_iff.1 hopen, hlookup, hallocate, rfl⟩
          · nomatch hallocate
        · nomatch hallocate

/-- The two outcomes of installing an implementation. -/
theorem bind_cases (c : Connection K) (id : ObjectId) (implementation : Implementation K.Handler) :
    (∃ e, c.bind id implementation = (.error e, c)) ∨ ∃ object, c.isOpen ∧
      c.table.get id = .ok object ∧ object.implementation = none ∧
        c.bind id implementation = (.ok ⟨id, object.generation⟩,
          { c with table := c.table.modify id fun o => { o with implementation := some implementation } }) := by
  unfold bind
  split
  · rename_i e _
    exact .inl ⟨e, rfl⟩
  · rename_i hopen
    split
    · exact .inl ⟨_, rfl⟩
    · rename_i object hobject
      split
      · exact .inl ⟨_, rfl⟩
      · rename_i hbound
        exact .inr ⟨object, requireOpen_eq_ok_iff.1 hopen, hobject,
          Option.not_isSome_iff_eq_none.1 hbound, rfl⟩

/-- What is taken out of a live object is its implementation. -/
theorem takeImplementation_of_get {c : Connection K} {id : ObjectId}
    {o : Object (Implementation K.Handler)} (hget : c.table.get id = .ok o) :
    c.takeImplementation id = (o.implementation,
      { c with table := c.table.modify id fun o => { o with implementation := none } }) := by
  unfold takeImplementation
  rw [hget]

/-- The id of the object that a request creates, if it creates one. -/
def createdId? (params : List Param) (args : List Arg) : Option ObjectId :=
  (creation? 0 params args).bind fun (_, _, arg) => arg.newId?

/-- The object that a new id stands for is inserted at that id. -/
theorem newId?_of_newObject {registry : Registry} {parentVersion version : UInt32} {index : Nat}
    {p : Param} {arg : Arg} {id : ObjectId} {i : Interface}
    (h : newObject registry parentVersion index p arg = .ok (id, i, version)) :
    arg.newId? = some id := by
  unfold newObject at h
  split at h
  · dsimp only at h
    split at h
    · nomatch h
    · injection h with h
      injection h with h
      rw [← h]
      rfl
  · split at h
    · nomatch h
    · injection h with h
      injection h with h
      rw [← h]
      rfl
  · nomatch h

/-- The object that a new id stands for is looked up in the registry. -/
theorem exists_lookup_of_newObject {registry : Registry} {parentVersion version : UInt32} {index : Nat}
    {p : Param} {arg : Arg} {id : ObjectId} {i : Interface}
    (h : newObject registry parentVersion index p arg = .ok (id, i, version)) :
    ∃ name, registry.lookup name version = .ok i := by
  unfold newObject at h
  split at h
  · dsimp only at h
    split at h
    · cases h
    · rename_i hlookup
      injection h with h
      injection h with _ h
      injection h with hi hversion
      rw [← hi, ← hversion]
      exact ⟨_, hlookup⟩
  · split at h
    · cases h
    · rename_i hlookup
      injection h with h
      injection h with _ h
      injection h with hi hversion
      rw [← hi, ← hversion]
      exact ⟨_, hlookup⟩
  · cases h

/-- The two ways in which the object of a request is inserted: there is none, or it is at its id, as the
registry has it and without an implementation. -/
theorem insertCreated_cases {c c' : Connection K} {parentVersion : UInt32} {params : List Param}
    {args : List Arg} (h : c.insertCreated parentVersion params args = .ok c') :
    (createdId? params args = none ∧ c' = c) ∨ ∃ id i version handle table,
      createdId? params args = some id ∧ (∃ name, c.registry.lookup name version = .ok i) ∧
        c.table.insert .client id { interface := i, version } = .ok (handle, table) ∧
          c' = { c with table } := by
  unfold insertCreated at h
  split at h
  · rename_i hnone
    injection h with h
    refine .inl ⟨?_, h.symm⟩
    unfold createdId?
    rw [hnone]
    rfl
  · rename_i index p arg hcreation
    split at h
    · nomatch h
    · rename_i id i version hnew
      split at h
      · nomatch h
      · rename_i handle table hinsert
        injection h with h
        refine .inr ⟨id, i, version, handle, table, ?_, exists_lookup_of_newObject hnew, hinsert, h.symm⟩
        unfold createdId?
        rw [hcreation]
        exact newId?_of_newObject hnew

end

section
variable (app : Application)

/-- The two outcomes of putting an implementation back: its object is waiting for it, or it takes note
of the end. -/
theorem giveBack_cases (c : Connection app.toKit) (id : ObjectId) (generation : Nat)
    (implementation : Implementation app.Handler) :
    (∃ object, c.table.byHandle ⟨id, generation⟩ = .ok object ∧ object.implementation = none ∧
      c.giveBack app id generation implementation = { c with
        table := c.table.modify id fun o => { o with implementation := some implementation } }) ∨
      (∀ object, c.table.byHandle ⟨id, generation⟩ = .ok object → object.implementation ≠ none) ∧
        c.giveBack app id generation implementation =
          { c with world := app.noteDestroyed (some implementation) id c.world } := by
  unfold giveBack Table.byHandle
  cases c.table.get id with
  | error e =>
    right
    refine ⟨fun object heq => ?_, rfl⟩
    cases heq
  | ok object =>
    dsimp only
    by_cases hgen : object.generation = generation
    · rw [if_pos hgen]
      cases hbound : object.implementation with
      | none =>
        left
        refine ⟨object, rfl, hbound, if_pos ⟨hgen, ?_⟩⟩
        unfold Object.isBound
        rw [hbound]
        rfl
      | some i =>
        right
        refine ⟨fun object' heq => ?_, if_neg fun hn => ?_⟩
        · injection heq with heq
          rw [← heq, hbound]
          exact nofun
        · have hunbound := hn.2
          unfold Object.isBound at hunbound
          rw [hbound] at hunbound
          cases hunbound
    · right
      rw [if_neg hgen]
      refine ⟨fun object' heq => ?_, if_neg fun hn => hgen hn.1⟩
      cases heq

/-- The three outcomes of a destruction: it is refused, it stops halfway because the announcement fails, or
it is done. -/
theorem destroy_outcomes (c : Connection app.toKit) (id : ObjectId) :
    (∃ e, c.destroy app id = (.error e, c)) ∨ ∃ o table, c.isOpen ∧ id ≠ .display ∧
      c.table.remove id = .ok (o, table) ∧
        ((∃ e, Connection.announceDeletion { c with table } id = .error e ∧
          c.destroy app id = (.error (.wire e), { c with table })) ∨
          c.destroy app id = (.ok (), { Connection.announced { c with table } id with
            world := app.noteDestroyed o.implementation id c.world })) := by
  unfold destroy
  split
  · rename_i e _
    exact .inl ⟨e, rfl⟩
  · rename_i hopen
    split
    · exact .inl ⟨_, rfl⟩
    · rename_i hdisplay
      split
      · exact .inl ⟨_, rfl⟩
      · rename_i o table hremove
        refine .inr ⟨o, table, requireOpen_eq_ok_iff.1 hopen, hdisplay, hremove, ?_⟩
        dsimp only
        rcases announceDeletion_cases { c with table } id with ⟨e, hannounce⟩ | hannounce
        · rw [hannounce]
          exact .inl ⟨e, rfl, rfl⟩
        · rw [hannounce]
          dsimp only
          rw [(announced_keeps _ id).2.2.1]
          exact .inr rfl

/-- The two outcomes of a destruction, where announcements have room. -/
theorem destroy_cases {c : Connection app.toKit} (hroom : 12 ≤ c.outbound.limit) (id : ObjectId) :
    (∃ e, c.destroy app id = (.error e, c)) ∨ ∃ o table, c.isOpen ∧ id ≠ .display ∧
      c.table.remove id = .ok (o, table) ∧
        c.destroy app id = (.ok (), { Connection.announced { c with table } id with
          world := app.noteDestroyed o.implementation id c.world }) := by
  rcases destroy_outcomes app c id with
    hrefused | ⟨o, table, hopen, hdisplay, hremove, ⟨e, hfailed, -⟩ | hdone⟩
  · exact .inl hrefused
  · rw [announceDeletion_eq (c := { c with table }) hroom id] at hfailed
    cases hfailed
  · exact .inr ⟨o, table, hopen, hdisplay, hremove, hdone⟩

end

end Connection

/-! ## Happenings -/

/-- What the client's view of a connection depends on. -/
inductive Happening where
  /-- An object is inserted at an id. -/
  | inserted (id : ObjectId)
  /-- An event is queued. -/
  | queued (m : Message)
  /-- An object is destroyed, and the deletion of its id is queued. -/
  | announced (id : ObjectId)
  /-- All bytes that wait are handed over. -/
  | drained (bytes : List UInt8)
deriving DecidableEq

/-- The bytes that something adds to the queue. -/
def Happening.frame : Happening → List UInt8
  | .queued m => m.frame
  | .announced id => (deletion id).frame
  | _ => []

section
variable (app : Application)

/-- What an action does on a connection. -/
def Action.happenings : Action app.toKit → Connection app.toKit → List Happening
  | .queue id opcode args, c =>
    match c.encodeEvent id opcode args with
    | .error _ => []
    | .ok _ => [.queued ⟨id, opcode, args⟩]
  | .destroy id, c =>
    match (c.destroy app id).1 with
    | .error _ => []
    | .ok () => if id.side = .client then [.announced id] else []
  | .create interface version, c =>
    match (c.create interface version).1 with
    | .error _ => []
    | .ok h => [.inserted h.id]
  | .insertCreated parentVersion params args, c =>
    if c.isOpen then
      match c.insertCreated parentVersion params args with
      | .error _ => []
      | .ok _ => (Connection.createdId? params args).toList.map .inserted
    else []
  | .drain, c => [.drained c.takeOutbound.1]
  | _, _ => []

/-- What a list of actions does. -/
def happenings : List (Action app.toKit) → Connection app.toKit → List Happening
  | [], _ => []
  | a :: as, c => a.happenings app c ++ happenings as (a.apply app c)

theorem happenings_append (as bs : List (Action app.toKit)) (c : Connection app.toKit) :
    happenings app (as ++ bs) c = happenings app as c ++ happenings app bs (replay app as c) := by
  induction as generalizing c with
  | nil => rfl
  | cons a as ih =>
    show a.happenings app c ++ happenings app (as ++ bs) (a.apply app c) = _
    rw [ih, ← List.append_assoc]
    rfl

namespace Session

/-- What happens in a run, each operation starting from where the one before it has left the session. -/
def events (s : Session app.toKit) : List (Operation app.toKit) → List Happening
  | [] => []
  | op :: ops => happenings app (op.actions app s) s.connection ++ (op.perform app s).events ops

/-- What happens in the life of a session, the insertion of the display first. -/
def history (s : Session app.toKit) (ops : List (Operation app.toKit)) : List Happening :=
  .inserted .display :: s.events app ops

end Session

end

end Compositor.Sessions
