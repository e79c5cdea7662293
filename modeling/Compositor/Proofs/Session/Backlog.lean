import Compositor.Proofs.Session.Intake
import Compositor.Proofs.Session.Packets

/-
  What a session holds back.

  Bytes that make no message yet, and descriptors that no message has claimed, stay with the session.  How many
  there may be is up to its limits, which are checked at different moments: descriptors when they come, bytes
  when everything that can be dispatched has been.  `Within` is what comes of it between operations, on
  whatever way an operation ends: `within_process` says so of processing, `Operation.within` of every
  operation.

  What is held back is no message (`Waits`), as far as the input has just been processed: `waits_process`.
  Other operations may change that, since they can destroy the object that a request is waiting for.
-/

namespace Compositor.Sessions

open Compositor.Wire (Descriptor Message ObjectId)
open Compositor.Protocol (Registry)

/-- A session with the given limits holds no more than these allow. -/
structure Session.Within {K : Kit} (limits : Limits) (s : Session K) : Prop where
  limits_eq : s.limits = limits
  bytes : s.inbound.length ≤ limits.maxInboundBytes
  fds : s.fds.length ≤ limits.maxQueuedFds

/-- No message can be made of what the session holds, with the objects that it has. -/
def Session.Waits {K : Kit} (s : Session K) : Prop :=
  Wire.decode s.inbound s.fds s.connection.table.resolve = .incomplete

namespace Session

/-! ## Processing -/

section
variable {app : Application} {s : Session app.toKit} {limits : Limits}

/-- Without input, a session is within its limits. -/
theorem Within.dry (hlimits : s.limits = limits) (hdry : s.IsDry) : s.Within limits := by
  refine ⟨hlimits, ?_, ?_⟩
  · rw [hdry.1]
    exact Nat.zero_le _
  · rw [hdry.2]
    exact Nat.zero_le _

/-- What is done with the connection around the same input does not matter. -/
theorem Within.sameInput {t : Session app.toKit} (h : s.Within limits) (hlimits : t.limits = s.limits)
    (hinput : s.SameInput t) : t.Within limits := by
  refine ⟨hlimits.trans h.limits_eq, ?_, ?_⟩
  · rw [hinput.1]
    exact h.bytes
  · rw [hinput.2]
    exact h.fds

/-- A request claims descriptors, and brings none. -/
theorem length_fds_of_turn {rest : Session app.toKit} {m : Message} (h : s.turn = .request m rest) :
    rest.limits = s.limits ∧ rest.fds.length ≤ s.fds.length := by
  obtain ⟨-, -, consumed, fds, hdecode, rfl⟩ := turn_eq_request_iff.1 h
  have hfds := congrArg List.length (Wire.canonical_of_decode hdecode).fds_eq
  rw [List.length_append] at hfds
  exact ⟨rfl, by show fds.length ≤ s.fds.length; omega⟩

/-- Dispatching leaves no more descriptors than there were. -/
theorem length_fds_dispatchAll (s : Session app.toKit) : (s.dispatchAll app).2.limits = s.limits ∧
    (s.dispatchAll app).2.fds.length ≤ s.fds.length := by
  apply dispatchAll_induction app (motive := fun s r =>
    r.2.limits = s.limits ∧ r.2.fds.length ≤ s.fds.length)
  · intro s _
    exact ⟨rfl, Nat.le_refl _⟩
  · intro s v target _
    exact ⟨rfl, Nat.le_refl _⟩
  · intro s m rest v connection hturn _
    obtain ⟨hlimits, hfds⟩ := length_fds_of_turn hturn
    exact ⟨hlimits, hfds⟩
  · intro s m rest connection hturn _ ih
    obtain ⟨hlimits, hfds⟩ := length_fds_of_turn hturn
    exact ⟨ih.1.trans hlimits, Nat.le_trans ih.2 hfds⟩

/-- Whatever way processing ends, what is left is within the limits, if there were not too many descriptors
before. -/
theorem within_process (hlimits : s.limits = limits) (hfds : s.fds.length ≤ limits.maxQueuedFds) :
    (s.process app).2.Within limits := by
  have hdispatch := length_fds_dispatchAll s
  rcases process_cases app s with ⟨v, target, t, hall, hprocess⟩ |
    ⟨t, hall, ⟨-, hprocess⟩ | ⟨-, -, hprocess⟩ | ⟨-, hwithin, hprocess⟩⟩
  all_goals
    rw [hall] at hdispatch
    obtain ⟨hkept, hfewer⟩ := hdispatch
    rw [hprocess]
  · exact .dry (hkept.trans hlimits) ⟨rfl, rfl⟩
  · exact .dry (hkept.trans hlimits) ⟨rfl, rfl⟩
  · exact .dry (hkept.trans hlimits) ⟨rfl, rfl⟩
  · rw [hkept, hlimits] at hwithin
    exact ⟨hkept.trans hlimits, hwithin, Nat.le_trans hfewer hfds⟩

/-- Processing that goes well in a session that stays open stops only where no message is left. -/
theorem waits_process (hok : (s.process app).1 = .ok ()) (hopen : (s.process app).2.connection.isOpen) :
    (s.process app).2.Waits := by
  rcases process_cases app s with ⟨v, target, t, -, hprocess⟩ |
    ⟨t, hall, ⟨hclosed, hprocess⟩ | ⟨-, -, hprocess⟩ | ⟨hopen', -, hprocess⟩⟩
  · rw [hprocess] at hok
    cases hok
  · rw [hprocess] at hopen
    exact absurd hopen (Bool.eq_false_iff.1 hclosed)
  · rw [hprocess] at hok
    cases hok
  · rw [hprocess]
    exact ((turn_eq_idle_iff hopen').1 (rests_of_dispatchAll hall).1).2

end

end Session

/-! ## Operations -/

section
variable {app : Application} {s : Session app.toKit} {limits : Limits}

theorem Session.Within.onHandle {α : Type} (hs : s.Within limits) (h : Objects.Handle)
    (f : Connection app.toKit → Except Refusal α × Connection app.toKit) :
    (s.onHandle app h f).2.Within limits := by
  refine hs.sameInput ?_ (sameInput_onHandle h f)
  unfold Session.onHandle
  split
  · rfl
  · rfl

/-- Every operation leaves a session within its limits. -/
theorem Operation.within (op : Operation app.toKit) (hs : s.Within limits) :
    (op.perform app s).Within limits := by
  cases op with
  | feed bytes =>
    show (s.feed app bytes).2.Within limits
    cases hopen : s.connection.isOpen with
    | false =>
      rw [Session.feed_of_not_open app hopen]
      exact hs
    | true =>
      rw [Session.feed_of_open app hopen]
      exact Session.within_process hs.limits_eq hs.fds
  | feedFds fds =>
    show (s.feedFds app fds).2.Within limits
    cases hopen : s.connection.isOpen with
    | false =>
      rw [Session.feedFds_of_not_open app hopen]
      exact hs
    | true =>
      rw [Session.feedFds_of_open app hopen]
      by_cases hmany : s.limits.maxQueuedFds < (s.fds ++ fds).length
      · rw [if_pos hmany]
        exact .dry hs.limits_eq ⟨rfl, rfl⟩
      · rw [if_neg hmany]
        rw [hs.limits_eq] at hmany
        exact Session.within_process hs.limits_eq (Nat.le_of_not_lt hmany)
  | dispatch m =>
    show (s.dispatch app m).2.Within limits
    cases hopen : s.connection.isOpen with
    | false =>
      rw [Session.dispatch_of_not_open app hopen]
      exact hs
    | true =>
      cases hdispatch : s.connection.dispatch app m with
      | mk outcome c =>
        cases outcome with
        | error v =>
          rw [Session.dispatch_of_refused app hopen hdispatch]
          exact .dry hs.limits_eq ⟨rfl, rfl⟩
        | ok _ =>
          rw [Session.dispatch_of_handled app hopen hdispatch]
          exact hs.sameInput rfl ⟨rfl, rfl⟩
  | close => exact .dry hs.limits_eq ⟨rfl, rfl⟩
  | postEvent h opcode args => exact hs.onHandle h _
  | bind h i => exact hs.onHandle h _
  | destroy h => exact hs.onHandle h _
  | _ => exact hs.sameInput rfl ⟨rfl, rfl⟩

/-- So does every run. -/
theorem Session.Within.performAll (hs : s.Within limits) (ops : List (Operation app.toKit)) :
    (s.performAll app ops).Within limits := by
  induction ops generalizing s with
  | nil => exact hs
  | cons op ops ih => exact ih (op.within hs)

/-- Bytes that were taken well have left no message to be dispatched. -/
theorem Session.waits_feed {bytes : List UInt8} (hok : (s.feed app bytes).1 = .ok ())
    (hopen : (s.feed app bytes).2.state = .open) : (s.feed app bytes).2.Waits := by
  cases hbefore : s.connection.isOpen with
  | false =>
    rw [feed_of_not_open app hbefore] at hok
    cases hok
  | true =>
    rw [feed_of_open app hbefore] at hok hopen ⊢
    exact waits_process hok (isOpen_iff.2 hopen)

/-- So have descriptors. -/
theorem Session.waits_feedFds {fds : List Descriptor} (hok : (s.feedFds app fds).1 = .ok ())
    (hopen : (s.feedFds app fds).2.state = .open) : (s.feedFds app fds).2.Waits := by
  cases hbefore : s.connection.isOpen with
  | false =>
    rw [feedFds_of_not_open app hbefore] at hok
    cases hok
  | true =>
    rw [feedFds_of_open app hbefore] at hok hopen ⊢
    split at hok
    · cases hok
    · rename_i hroom
      rw [if_neg hroom] at hopen ⊢
      exact waits_process hok (isOpen_iff.2 hopen)

/-! ## The whole life of a session -/

/-- In every run, a session holds at most as many bytes and descriptors as its limits allow; and after input
that was taken well by a session that stays open, there is no message in what it holds. -/
theorem backlog_of_new {client : Nat} {registry : Registry} {globals : Globals app.Binder} {limits : Limits}
    {world : app.World} (hnew : Session.new client registry globals limits world = .ok s)
    (ops : List (Operation app.toKit)) :
    (s.performAll app ops).inbound.length ≤ limits.maxInboundBytes ∧
      (s.performAll app ops).fds.length ≤ limits.maxQueuedFds ∧
      (∀ bytes, ((s.performAll app ops).feed app bytes).1 = .ok () →
        ((s.performAll app ops).feed app bytes).2.state = .open →
          ((s.performAll app ops).feed app bytes).2.Waits) ∧
      ∀ fds, ((s.performAll app ops).feedFds app fds).1 = .ok () →
        ((s.performAll app ops).feedFds app fds).2.state = .open →
          ((s.performAll app ops).feedFds app fds).2.Waits := by
  have hlimits : s.limits = limits := by
    obtain ⟨_, _, _, -, -, rfl⟩ := Session.exists_of_new hnew
    rfl
  have hstart : s.Within limits := .dry hlimits (Session.inbound_new hnew)
  obtain ⟨-, hbytes, hfds⟩ := hstart.performAll ops
  exact ⟨hbytes, hfds, fun _ => Session.waits_feed, fun _ => Session.waits_feedFds⟩

end

/-- The server makes a keeper with a handler. -/
def keeperRun : List (Operation Application.idle.toKit) :=
  [.createObject "keeper" 1, .bind ⟨quitterId, 2⟩ (.application ())]

/-- The client gives it a descriptor, which is still to come. -/
def keepRequest : List UInt8 := [0, 0, 0, 0xFF, 0, 0, 8, 0]

theorem backlog_of_new_sample :
    ((Session.keeping.performAll .idle keeperRun).feed .idle keepRequest).1 = .ok () ∧
      ((Session.keeping.performAll .idle keeperRun).feed .idle keepRequest).2.state = .open ∧
      ((Session.keeping.performAll .idle keeperRun).feed .idle keepRequest).2.inbound = keepRequest ∧
      keepRequest.length ≤ Session.keeping.limits.maxInboundBytes ∧
      ((Session.keeping.performAll .idle keeperRun).feed .idle keepRequest).2.Waits := by
  have hidle : ((Session.keeping.performAll .idle keeperRun).extend keepRequest []).turn = .idle := rfl
  have hfeed : (Session.keeping.performAll .idle keeperRun).feed .idle keepRequest =
      (.ok (), (Session.keeping.performAll .idle keeperRun).extend keepRequest []) := by
    rw [Session.feed_eq_process .idle rfl]
    exact Session.process_of_rest .idle (Session.dispatchAll_of_idle .idle hidle) rfl (by decide)
  have hwaits := (backlog_of_new Session.new_keeping keeperRun).2.2.1 keepRequest
  rw [hfeed] at hwaits ⊢
  exact ⟨rfl, rfl, rfl, by decide, hwaits rfl rfl⟩

end Compositor.Sessions
