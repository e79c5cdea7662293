import Compositor.Proofs.Session.Lifecycle

/-
  What a stopped session still holds of its input.

  A session that stops drops its input: bytes that make no complete message, and descriptors that no
  message has claimed.  There is one way around this.  A request that is handed over decoded goes past the
  input, and when its handler stops the session, the input stays.  `input_of_stopped` says that this is
  the only way, and that what is held then is what waited before that request.
-/

namespace Compositor.Sessions

open Compositor.Wire (Descriptor Message ObjectId)
open Compositor.Protocol (Registry)

/-! ## Operations that do not stop a connection -/

namespace Connection

section
variable {app : Application} {c : Connection app.toKit}

theorem state_post (id : ObjectId) (opcode : UInt16) (args : List Wire.Arg) :
    (c.post app id opcode args).2.state = c.state := by
  unfold post
  split
  · rfl
  · dsimp only
    split
    · exact state_destroy _ id
    · rfl

theorem state_withdraw (name : UInt32) (ids : List ObjectId) :
    (withdraw app name ids c).2.state = c.state := by
  induction ids generalizing c with
  | nil => rfl
  | cons id ids ih =>
    have hpost := state_post (c := c) id Protocol.Core.globalRemoveOpcode [.uint name]
    unfold withdraw
    split
    · rename_i e c' heq
      rw [heq] at hpost
      exact hpost
    · rename_i c' heq
      rw [heq] at hpost
      exact ih.trans hpost

theorem state_removeGlobal (name : UInt32) : (c.removeGlobal app name).2.state = c.state := by
  unfold removeGlobal
  split
  · rfl
  · split
    · rfl
    · rename_i global globals _
      have hwithdraw := state_withdraw (c := { c with globals }) name (c.registryIds app)
      split
      · rename_i e c' heq
        rw [heq] at hwithdraw
        exact hwithdraw
      · rename_i c' heq
        rw [heq] at hwithdraw
        exact hwithdraw

end

end Connection

/-! ## Input -/

section
variable {app : Application} {s : Session app.toKit}

/-- The session holds no input. -/
def Session.IsDry {K : Kit} (s : Session K) : Prop := s.inbound = [] ∧ s.fds = []

/-- The sessions hold the same input. -/
def Session.SameInput {K : Kit} (s s' : Session K) : Prop := s'.inbound = s.inbound ∧ s'.fds = s.fds

theorem Session.sameInput_onHandle {α : Type} (h : Objects.Handle)
    (f : Connection app.toKit → Except Refusal α × Connection app.toKit) :
    s.SameInput (s.onHandle app h f).2 := by
  unfold onHandle
  split
  · exact ⟨rfl, rfl⟩
  · exact ⟨rfl, rfl⟩

/-- An operation on the object behind a handle stops the session only if it stops its connection. -/
theorem Session.state_onHandle {α : Type} (h : Objects.Handle)
    {f : Connection app.toKit → Except Refusal α × Connection app.toKit}
    (hf : (f s.connection).2.state = s.connection.state) : (s.onHandle app h f).2.state = s.state := by
  unfold onHandle
  split
  · rfl
  · exact hf

/-- When what came in was processed, the session is open or holds no input. -/
theorem Session.isDry_of_process (hstop : (s.process app).2.connection.isOpen = false) :
    (s.process app).2.IsDry := by
  rcases Session.process_cases app s with ⟨v, target, t, -, hprocess⟩ |
    ⟨t, -, ⟨-, hprocess⟩ | ⟨-, -, hprocess⟩ | ⟨hopen, -, hprocess⟩⟩
  · rw [hprocess]
    exact ⟨rfl, rfl⟩
  · rw [hprocess]
    exact ⟨rfl, rfl⟩
  · rw [hprocess]
    exact ⟨rfl, rfl⟩
  · rw [hprocess] at hstop
    change t.connection.isOpen = false at hstop
    rw [hopen] at hstop
    nomatch hstop

/-- The ways in which an operation stops an open session. -/
theorem Operation.input_of_stop (hopen : s.connection.isOpen) {op : Operation app.toKit}
    (hstop : (op.perform app s).connection.isOpen = false) : (op.perform app s).IsDry ∨
      ∃ m, op = .dispatch m ∧ (s.dispatch app m).1 = .ok () ∧ s.SameInput (op.perform app s) := by
  have hstays : (op.perform app s).state ≠ s.state := by
    rw [show s.state = .open from isOpen_iff.1 hopen]
    exact not_isOpen_iff.1 hstop
  cases op with
  | feed bytes =>
    left
    change (s.feed app bytes).2.connection.isOpen = false at hstop
    show (s.feed app bytes).2.IsDry
    rw [Session.feed_of_open app hopen] at hstop ⊢
    exact Session.isDry_of_process hstop
  | feedFds fds =>
    left
    change (s.feedFds app fds).2.connection.isOpen = false at hstop
    show (s.feedFds app fds).2.IsDry
    rw [Session.feedFds_of_open app hopen] at hstop ⊢
    split
    · exact ⟨rfl, rfl⟩
    · rename_i hlimit
      rw [if_neg hlimit] at hstop
      exact Session.isDry_of_process hstop
  | dispatch m =>
    show (s.dispatch app m).2.IsDry ∨ ∃ m', _ ∧ _ ∧ s.SameInput (s.dispatch app m).2
    cases hdispatch : s.connection.dispatch app m with
    | mk outcome c =>
      cases outcome with
      | error v =>
        rw [Session.dispatch_of_refused app hopen hdispatch]
        exact .inl ⟨rfl, rfl⟩
      | ok _ =>
        refine .inr ⟨m, rfl, ?_, ?_⟩
        · rw [Session.dispatch_of_handled app hopen hdispatch]
        · rw [Session.dispatch_of_handled app hopen hdispatch]
          exact ⟨rfl, rfl⟩
  | close => exact .inl ⟨rfl, rfl⟩
  | drainOutbound =>
    have hstate : s.connection.state = .open := isOpen_iff.1 hopen
    refine absurd ?_ hstays
    show (if s.connection.state = .closing then .closed else s.connection.state) = s.connection.state
    rw [hstate]
    rfl
  | takeOutboundFds => exact absurd rfl hstays
  | postEvent h opcode args => exact absurd (Session.state_onHandle h (Connection.state_post ..)) hstays
  | createObject interface version => exact absurd (s.connection.state_create interface version) hstays
  | bind h i => exact absurd (Session.state_onHandle h (Connection.state_bind ..)) hstays
  | destroy h => exact absurd (Session.state_onHandle h (Connection.state_destroy ..)) hstays
  | removeGlobal name => exact absurd (Connection.state_removeGlobal name) hstays
  | enterWorld world => exact absurd rfl hstays

/-- An operation on a stopped session leaves the input, or drops it. -/
theorem Operation.input_kept_or_dropped (hstop : s.connection.isOpen = false) (op : Operation app.toKit) :
    s.SameInput (op.perform app s) ∨ (op.perform app s).IsDry := by
  cases op with
  | feed bytes =>
    left
    show s.SameInput (s.feed app bytes).2
    rw [Session.feed_of_not_open app hstop]
    exact ⟨rfl, rfl⟩
  | feedFds fds =>
    left
    show s.SameInput (s.feedFds app fds).2
    rw [Session.feedFds_of_not_open app hstop]
    exact ⟨rfl, rfl⟩
  | dispatch m =>
    left
    show s.SameInput (s.dispatch app m).2
    rw [Session.dispatch_of_not_open app hstop]
    exact ⟨rfl, rfl⟩
  | close => exact .inr ⟨rfl, rfl⟩
  | postEvent h opcode args => exact .inl (Session.sameInput_onHandle h _)
  | bind h i => exact .inl (Session.sameInput_onHandle h _)
  | destroy h => exact .inl (Session.sameInput_onHandle h _)
  | _ => exact .inl ⟨rfl, rfl⟩

/-- A stopped session keeps its input, until it drops it. -/
theorem Session.input_kept_or_dropped (hs : Settled s.connection) (hstop : s.connection.isOpen = false)
    (ops : List (Operation app.toKit)) :
    s.SameInput (s.performAll app ops) ∨ (s.performAll app ops).IsDry := by
  induction ops generalizing s with
  | nil => exact .inl ⟨rfl, rfl⟩
  | cons op ops ih =>
    obtain ⟨hsettled, hadvances⟩ := op.advances hs
    have hstop' : (op.perform app s).connection.isOpen = false := by
      refine not_isOpen_iff.2 fun hopen => ?_
      rw [show (op.perform app s).state = .open from hopen] at hadvances
      cases hstate : s.state with
      | «open» => exact not_isOpen_iff.1 hstop hstate
      | closing =>
        rw [hstate] at hadvances
        rcases hadvances with heq | ⟨heq, -⟩
        · cases heq
        · cases heq
      | closed =>
        rw [hstate] at hadvances
        cases hadvances
    rcases ih hsettled hstop' with ⟨hbytes, hfds⟩ | hdry
    · rcases op.input_kept_or_dropped hstop with ⟨hbytes', hfds'⟩ | ⟨hbytes', hfds'⟩
      · exact .inl ⟨hbytes.trans hbytes', hfds.trans hfds'⟩
      · exact .inr ⟨hbytes.trans hbytes', hfds.trans hfds'⟩
    · exact .inr hdry

/-- A stopped session holds no input, in any run, unless the handler of a request that was handed over
decoded has stopped it: then it holds at most what waited before that request. -/
theorem input_of_stopped {client : Nat} {registry : Registry} {globals : Globals app.Binder}
    {limits : Limits} {world : app.World}
    (hnew : Session.new client registry globals limits world = .ok s) (ops : List (Operation app.toKit))
    (hstop : (s.performAll app ops).state ≠ .open) : (s.performAll app ops).IsDry ∨
      ∃ before m after, ops = before ++ .dispatch m :: after ∧ (s.performAll app before).state = .open ∧
        ((s.performAll app before).dispatch app m).1 = .ok () ∧
        ((s.performAll app before).dispatch app m).2.state ≠ .open ∧
        (s.performAll app before).SameInput (s.performAll app ops) := by
  obtain ⟨hopen, hsettled⟩ := Settled.new hnew
  clear hnew
  induction ops generalizing s with
  | nil => exact absurd hopen hstop
  | cons op ops ih =>
    have hsettled' := (op.advances hsettled).1
    by_cases hopen' : (op.perform app s).state = .open
    · rcases ih hstop hopen' hsettled' with hdry | ⟨before, m, after, rfl, hrest⟩
      · exact .inl hdry
      · exact .inr ⟨op :: before, m, after, rfl, hrest⟩
    · have hstopped := not_isOpen_iff.2 hopen'
      have hlater := Session.input_kept_or_dropped hsettled' hstopped ops
      rcases Operation.input_of_stop (isOpen_iff.2 hopen) hstopped with
        ⟨hbytes, hfds⟩ | ⟨m, rfl, hok, hbytes, hfds⟩
      · rcases hlater with ⟨hbytes', hfds'⟩ | hdry
        · exact .inl ⟨hbytes'.trans hbytes, hfds'.trans hfds⟩
        · exact .inl hdry
      · rcases hlater with ⟨hbytes', hfds'⟩ | hdry
        · exact .inr ⟨[], m, ops, rfl, hopen, hok, hopen', hbytes'.trans hbytes, hfds'.trans hfds⟩
        · exact .inl hdry

end

/-- A handler is installed, half a message and a descriptor come in, and the handler closes the session. -/
def halfwayRun : List (Operation Application.quitting.toKit) :=
  [.createObject Protocol.Core.registryName 1, .bind ⟨quitterId, 2⟩ (.application ()),
    .feed [1, 0, 0, 0], .feedFds [⟨5, "memory"⟩], .dispatch quittingRequest]

/-- The session is stopped then, and holds its input. -/
theorem input_held_sample : Session.new 0 .core {} {} [] = .ok Session.quitting ∧
    (Session.quitting.performAll .quitting halfwayRun).state = .closing ∧
    (Session.quitting.performAll .quitting halfwayRun).inbound = [1, 0, 0, 0] ∧
    (Session.quitting.performAll .quitting halfwayRun).fds = [⟨5, "memory"⟩] :=
  ⟨rfl, by decide +kernel, by decide +kernel, by decide +kernel⟩

theorem input_of_stopped_sample : ∃ before m after, halfwayRun = before ++ .dispatch m :: after ∧
    (Session.quitting.performAll .quitting before).SameInput
      (Session.quitting.performAll .quitting halfwayRun) := by
  rcases input_of_stopped Session.new_quitting halfwayRun (by decide +kernel) with
    ⟨hbytes, -⟩ | ⟨before, m, after, heq, -, -, -, hsame⟩
  · exact absurd hbytes (by decide +kernel)
  · exact ⟨before, m, after, heq, hsame⟩

end Compositor.Sessions
