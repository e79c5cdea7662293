import Compositor.Proofs.Session.Actions

/-
  Runs of a session.

  An `Operation` is what the owner of a session can do with it, with all arguments; a run is a list of
  them.  Like the operations on a connection, those on a session are made of actions:
  `Operation.actions` lists them, and `Operation.replay_perform` says that doing them comes to the same
  as performing the operation.  What holds of a connection before and after every action therefore holds
  throughout every run, for all applications and in whatever order the owner calls.
-/

namespace Compositor.Sessions

open Compositor.Wire (Arg Descriptor Message ObjectId)
open Compositor.Objects (Handle)

namespace Session

section
variable (app : Application)

/-! ## Input -/

/-- The actions of dispatching complete messages. -/
def dispatchAllActions (s : Session app.toKit) : List (Action app.toKit) :=
  match h : s.turn with
  | .idle => []
  | .violation .. => []
  | .request m rest =>
    rest.connection.dispatchActions app m ++
      match rest.connection.dispatch app m with
      | (.error _, _) => []
      | (.ok (), connection) =>
        have : rest.inbound.length < s.inbound.length := length_inbound_of_turn h
        dispatchAllActions { rest with connection }
termination_by s.inbound.length

theorem dispatchAllActions_of_request {s rest : Session app.toKit} {m : Message}
    (h : s.turn = .request m rest) : s.dispatchAllActions app =
      rest.connection.dispatchActions app m ++
        match rest.connection.dispatch app m with
        | (.error _, _) => []
        | (.ok (), connection) => dispatchAllActions app { rest with connection } := by
  rw [dispatchAllActions]
  split
  · rename_i hturn
    rw [hturn] at h
    nomatch h
  · rename_i hturn
    rw [hturn] at h
    nomatch h
  · rename_i m' rest' hturn
    rw [hturn] at h
    injection h with hm hrest
    subst hm hrest
    rfl

theorem dispatchAllActions_of_not_request {s : Session app.toKit}
    (h : ∀ m rest, s.turn ≠ .request m rest) : s.dispatchAllActions app = [] := by
  rw [dispatchAllActions]
  split
  · rfl
  · rfl
  · rename_i m rest hturn
    exact absurd hturn (h m rest)

theorem replay_dispatchAll (s : Session app.toKit) :
    replay app (s.dispatchAllActions app) s.connection = (s.dispatchAll app).2.connection := by
  apply dispatchAll_induction app (motive := fun s r =>
    replay app (s.dispatchAllActions app) s.connection = r.2.connection)
  · intro s hturn
    rw [dispatchAllActions_of_not_request app (by rw [hturn]; exact nofun)]
    rfl
  · intro s v target hturn
    rw [dispatchAllActions_of_not_request app (by rw [hturn]; exact nofun)]
    rfl
  · -- turns are taken only while the connection is open, as `replay_dispatch` wants it
    intro s m rest v connection hturn hdispatch
    have hreplay := Connection.replay_dispatch app
      (c := rest.connection) (by rw [connection_of_turn hturn]; exact isOpen_of_turn hturn) m
    rw [dispatchAllActions_of_request app hturn, replay_append, ← connection_of_turn hturn, hreplay,
      hdispatch]
    rfl
  · intro s m rest connection hturn hdispatch ih
    have hreplay := Connection.replay_dispatch app
      (c := rest.connection) (by rw [connection_of_turn hturn]; exact isOpen_of_turn hturn) m
    rw [dispatchAllActions_of_request app hturn, replay_append, ← connection_of_turn hturn, hreplay,
      hdispatch]
    exact ih

/-- The actions of dispatching the input and seeing to what is left. -/
def processActions (s : Session app.toKit) : List (Action app.toKit) :=
  s.dispatchAllActions app ++
    match s.dispatchAll app with
    | (some (v, target), s) => s.connection.failActions app v target
    | (none, s) =>
      if ! s.connection.isOpen then []
      else if s.limits.maxInboundBytes < s.inbound.length then
        s.connection.failActions app (.inboundOverflow s.limits.maxInboundBytes) .display
      else []

theorem replay_process (s : Session app.toKit) :
    replay app (s.processActions app) s.connection = (s.process app).2.connection := by
  unfold processActions process
  rw [replay_append, replay_dispatchAll]
  cases s.dispatchAll app with
  | mk outcome t =>
    cases outcome with
    | some p => exact Connection.replay_fail app t.connection p.1 p.2
    | none =>
      dsimp only
      split
      · rfl
      · split
        · exact Connection.replay_fail app t.connection _ _
        · rfl

end

end Session

/-! ## Operations -/

/-- What the owner of a session can do with it.  Between two operations the application's world may
change, since sessions share it. -/
inductive Operation (K : Kit) where
  | feed (bytes : List UInt8)
  | feedFds (fds : List Descriptor)
  | dispatch (m : Message)
  | drainOutbound
  | takeOutboundFds
  | postEvent (h : Handle) (opcode : UInt16) (args : List Arg)
  | createObject (interface : String) (version : UInt32)
  | bind (h : Handle) (implementation : Implementation K.Handler)
  | destroy (h : Handle)
  | removeGlobal (name : UInt32)
  | close
  | enterWorld (world : K.World)

namespace Operation

section
variable (app : Application)

/-- The session after an operation. -/
def perform : Operation app.toKit → Session app.toKit → Session app.toKit
  | .feed bytes, s => (s.feed app bytes).2
  | .feedFds fds, s => (s.feedFds app fds).2
  | .dispatch m, s => (s.dispatch app m).2
  | .drainOutbound, s => (s.drainOutbound app).2
  | .takeOutboundFds, s => (s.takeOutboundFds app).2
  | .postEvent h opcode args, s => (s.postEvent app h opcode args).2
  | .createObject interface version, s => (s.createObject app interface version).2
  | .bind h implementation, s => (s.bind app h implementation).2
  | .destroy h, s => (s.destroy app h).2
  | .removeGlobal name, s => (s.removeGlobal app name).2
  | .close, s => s.close app
  | .enterWorld world, s => s.withWorld world

/-- The actions of an operation on the object behind a handle: none, if the handle is not current. -/
def handleActions (s : Session app.toKit) (h : Handle) (as : List (Action app.toKit)) :
    List (Action app.toKit) :=
  match s.connection.table.byHandle h with
  | .error _ => []
  | .ok _ => as

/-- The actions of an operation. -/
def actions : Operation app.toKit → Session app.toKit → List (Action app.toKit)
  | .feed bytes, s =>
    match s.requireOpen with
    | .error _ => []
    | .ok () => Session.processActions app { s with inbound := s.inbound ++ bytes }
  | .feedFds fds, s =>
    match s.requireOpen with
    | .error _ => []
    | .ok () =>
      let s := { s with fds := s.fds ++ fds }
      if s.limits.maxQueuedFds < s.fds.length then
        s.connection.failActions app (.fdOverflow s.limits.maxQueuedFds) .display
      else s.processActions app
  | .dispatch m, s =>
    match s.requireOpen with
    | .error _ => []
    | .ok () =>
      s.connection.dispatchActions app m ++
        match s.connection.dispatch app m with
        | (.error v, c) => c.failActions app v m.object
        | (.ok (), _) => []
  | .drainOutbound, _ => [.drain]
  | .takeOutboundFds, _ => [.drainFds]
  | .postEvent h opcode args, s => handleActions app s h (s.connection.postActions app h.id opcode args)
  | .createObject interface version, _ => [.create interface version]
  | .bind h implementation, s => handleActions app s h [.bind h.id implementation]
  | .destroy h, s => handleActions app s h [.destroy h.id]
  | .removeGlobal name, s => s.connection.removeGlobalActions app name
  | .close, _ => [.close]
  | .enterWorld world, _ => [.record world]

theorem replay_handle {α : Type} (s : Session app.toKit) (h : Handle) (as : List (Action app.toKit))
    (f : Connection app.toKit → Except Refusal α × Connection app.toKit)
    (hf : replay app as s.connection = (f s.connection).2) :
    replay app (handleActions app s h as) s.connection = (s.onHandle app h f).2.connection := by
  unfold handleActions Session.onHandle
  cases s.connection.table.byHandle h with
  | error e => rfl
  | ok o => exact hf

/-- Doing the actions of an operation comes to the same as performing it. -/
theorem replay_perform (op : Operation app.toKit) (s : Session app.toKit) :
    replay app (op.actions app s) s.connection = (op.perform app s).connection := by
  cases op with
  | feed bytes =>
    unfold actions perform Session.feed
    dsimp only
    cases s.requireOpen with
    | error e => rfl
    | ok _ => exact Session.replay_process app { s with inbound := s.inbound ++ bytes }
  | feedFds fds =>
    unfold actions perform Session.feedFds
    dsimp only
    cases s.requireOpen with
    | error e => rfl
    | ok _ =>
      dsimp only
      split
      · exact Connection.replay_fail app s.connection _ _
      · exact Session.replay_process app { s with fds := s.fds ++ fds }
  | dispatch m =>
    unfold actions perform Session.dispatch
    dsimp only
    cases hopen : s.requireOpen with
    | error e => rfl
    | ok _ =>
      have hdispatch := Connection.replay_dispatch app (Session.isOpen_of_requireOpen hopen) m
      dsimp only
      rw [replay_append, hdispatch]
      cases s.connection.dispatch app m with
      | mk outcome c =>
        cases outcome with
        | error v => exact Connection.replay_fail app c v m.object
        | ok _ => rfl
  | postEvent h opcode args =>
    exact replay_handle app s h _ _ (Connection.replay_post app s.connection h.id opcode args)
  | bind h implementation => exact replay_handle app s h _ (·.bind h.id implementation) rfl
  | destroy h => exact replay_handle app s h _ (·.destroy app h.id) rfl
  | removeGlobal name => exact Connection.replay_removeGlobal app s.connection name
  | drainOutbound => rfl
  | takeOutboundFds => rfl
  | createObject interface version => rfl
  | close => rfl
  | enterWorld world => rfl

end

end Operation

namespace Session

/-- The session after a run. -/
def performAll (app : Application) (s : Session app.toKit) :
    List (Operation app.toKit) → Session app.toKit
  | [] => s
  | op :: ops => (op.perform app s).performAll app ops

theorem performAll_append (app : Application) (ops ops' : List (Operation app.toKit))
    (s : Session app.toKit) : s.performAll app (ops ++ ops') =
      (s.performAll app ops).performAll app ops' := by
  induction ops generalizing s with
  | nil => rfl
  | cons op ops ih => exact ih (op.perform app s)

end Session

/-! ## Invariants -/

section
variable {app : Application} {P : Connection app.toKit → Prop}

/-- What every action preserves holds after any actions. -/
theorem replay_preserves (h : ∀ (a : Action app.toKit) c, P c → P (a.apply app c))
    (as : List (Action app.toKit)) : ∀ {c : Connection app.toKit}, P c → P (replay app as c) := by
  induction as with
  | nil =>
    intro c hc
    exact hc
  | cons a as ih =>
    intro c hc
    exact ih (h a c hc)

/-- What every action preserves holds after an operation. -/
theorem Operation.perform_preserves (h : ∀ (a : Action app.toKit) c, P c → P (a.apply app c))
    (op : Operation app.toKit) {s : Session app.toKit} (hs : P s.connection) :
    P (op.perform app s).connection := by
  rw [← op.replay_perform]
  exact replay_preserves h _ hs

/-- What every action preserves holds throughout every run. -/
theorem Session.performAll_preserves
    (h : ∀ (a : Action app.toKit) c, P c → P (a.apply app c)) (ops : List (Operation app.toKit)) :
    ∀ {s : Session app.toKit}, P s.connection → P (s.performAll app ops).connection := by
  induction ops with
  | nil =>
    intro s hs
    exact hs
  | cons op ops ih =>
    intro s hs
    exact ih (op.perform_preserves h hs)

end

/-! ## A run that stops -/

/-- A handler is installed on an object that the server has created, and closes the session when a request
comes in: its object leaves while it is out. -/
def quittingRun : List (Operation Application.quitting.toKit) :=
  [.createObject Protocol.Core.registryName 1, .bind ⟨quitterId, 2⟩ (.application ()),
    .dispatch quittingRequest]

end Compositor.Sessions
