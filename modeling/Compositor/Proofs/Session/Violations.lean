import Compositor.Proofs.Session.History
import Compositor.Proofs.Wire.Reading

/-
  Where violations are met.

  `Operation.Violates` says that an operation ends with a violation, and `Operation.Meets` where it meets
  it: in which session, after which requests were handled, and about which object.  These are the only
  violations there are: `Operation.fails_of_violates` finds the session in which an operation meets its
  violation, and says that failing there is the last thing that the operation does.
-/

namespace Compositor.Sessions

open Compositor.Wire (Descriptor Message ObjectId)

/-! ## Meeting a violation -/

/-- The operation ends with a violation, which it reports. -/
def Operation.Violates (app : Application) : Operation app.toKit → Session app.toKit → Violation → Prop
  | .feed bytes, s, v => (s.feed app bytes).1 = .error (.violation v)
  | .feedFds fds, s, v => (s.feedFds app fds).1 = .error (.violation v)
  | .dispatch m, s, v => (s.dispatch app m).1 = .error (.violation v)
  | _, _, _ => False

/-- From one session to another by handling requests at the front of the input, none of which violates
anything. -/
inductive Handled (app : Application) : Session app.toKit → Session app.toKit → Prop where
  | refl (s : Session app.toKit) : Handled app s s
  | step {s rest t : Session app.toKit} {m : Message} {connection : Connection app.toKit} :
      s.turn = .request m rest → rest.connection.dispatch app m = (.ok (), connection) →
        Handled app { rest with connection } t → Handled app s t

/-- The input of a session ends in a violation: the front of it cannot be read, or is a request that is
refused, or too much is left over.  The target of the first two is the object that the front of the input
is addressed to. -/
inductive Breaks (app : Application) (s : Session app.toKit) : Violation → ObjectId → Prop where
  | unreadable {v : Violation} {target : ObjectId} :
      s.turn = .violation v target → Breaks app s v s.inboundTarget
  | refused {m : Message} {rest : Session app.toKit} {v : Violation} {connection : Connection app.toKit} :
      s.turn = .request m rest → rest.connection.dispatch app m = (.error v, connection) →
        Breaks app s v s.inboundTarget
  | overflow : s.connection.isOpen → s.turn = .idle → s.limits.maxInboundBytes < s.inbound.length →
      Breaks app s (.inboundOverflow s.limits.maxInboundBytes) .display

/-- An operation on the session `s` meets a violation, in the session that is given next. -/
inductive Operation.Meets (app : Application) (s : Session app.toKit) :
    Operation app.toKit → Session app.toKit → Violation → ObjectId → Prop where
  | feed {bytes : List UInt8} {t : Session app.toKit} {v : Violation} {target : ObjectId} :
      Handled app { s with inbound := s.inbound ++ bytes } t → Breaks app t v target →
        Meets app s (.feed bytes) t v target
  | feedFds {fds : List Descriptor} {t : Session app.toKit} {v : Violation} {target : ObjectId} :
      (s.fds ++ fds).length ≤ s.limits.maxQueuedFds → Handled app { s with fds := s.fds ++ fds } t →
        Breaks app t v target → Meets app s (.feedFds fds) t v target
  | fdOverflow {fds : List Descriptor} : s.limits.maxQueuedFds < (s.fds ++ fds).length →
      Meets app s (.feedFds fds) s (.fdOverflow s.limits.maxQueuedFds) .display
  | dispatch {m : Message} {v : Violation} {connection : Connection app.toKit} :
      s.connection.dispatch app m = (.error v, connection) →
        Meets app s (.dispatch m) s v m.object

namespace Session

/-- A violation at the front of the input is reported about the object that it is addressed to. -/
theorem inboundTarget_of_violation {K : Kit} {s : Session K} {v : Violation} {target : ObjectId}
    (h : s.turn = .violation v target) : target = s.inboundTarget := by
  obtain ⟨-, hheader | ⟨-, e, -, -, htarget⟩⟩ := turn_eq_violation_iff.1 h
  · unfold headerViolation? at hheader
    unfold inboundTarget
    cases hpeek : Wire.peekHeader s.inbound with
    | error e =>
      rw [hpeek] at hheader
      injection hheader with hheader
      injection hheader with _ htarget
      exact htarget.symm
    | ok header? =>
      cases header? with
      | none =>
        rw [hpeek] at hheader
        cases hheader
      | some header =>
        rw [hpeek] at hheader
        dsimp only at hheader ⊢
        split at hheader
        · injection hheader with hheader
          injection hheader with _ htarget
          exact htarget.symm
        · cases hheader
  · exact htarget

/-- A request at the front of the input is addressed to its object. -/
theorem inboundTarget_of_request {K : Kit} {s rest : Session K} {m : Message}
    (h : s.turn = .request m rest) : s.inboundTarget = m.object := by
  obtain ⟨-, -, consumed, fds, hdecode, -⟩ := turn_eq_request_iff.1 h
  obtain ⟨header, signature, pending, position, hreads, -⟩ := Wire.decode_eq_message_iff.1 hdecode
  unfold inboundTarget targetOf
  rw [hreads.header_eq]
  dsimp only
  rw [hreads.object]
  rfl

end Session

section
variable {app : Application} {s : Session app.toKit} {v : Violation}

/-- What every action preserves holds from one request of the input to the next. -/
theorem Handled.preserves {P : Connection app.toKit → Prop}
    (h : ∀ (a : Action app.toKit) c, P c → P (a.apply app c)) {t : Session app.toKit}
    (hhandled : Handled app s t) : P s.connection → P t.connection := by
  induction hhandled with
  | refl s => exact id
  | @step s rest t m connection hturn hdispatch _ ih =>
    intro hs
    have hopen := Session.isOpen_of_turn hturn
    have hrest := Session.connection_of_turn hturn
    have hreplay := Connection.replay_dispatch app (hrest ▸ hopen) m
    rw [hdispatch] at hreplay
    refine ih ?_
    dsimp only at hreplay ⊢
    rw [← hreplay, hrest]
    exact replay_preserves h _ hs

/-- A request that is refused queues nothing and does not stop the connection by itself. -/
theorem Connection.outbound_of_refused {c c' : Connection app.toKit} {m : Message}
    (h : c.dispatch app m = (.error v, c')) : c'.outbound = c.outbound ∧ c'.isOpen = c.isOpen := by
  unfold dispatch at h
  cases haccept : c.accept m with
  | error v' =>
    rw [haccept] at h
    injection h with _ h
    exact ⟨by rw [← h], by rw [← h]⟩
  | ok a =>
    obtain ⟨target, method, c1⟩ := a
    have hinserted : c1.outbound = c.outbound ∧ c1.isOpen = c.isOpen := by
      rcases insertCreated_cases (accept_eq_ok_iff.1 haccept).inserted with
        ⟨-, heq⟩ | ⟨id, i, version, handle, table, -, -, -, heq⟩
      · exact ⟨congrArg (·.outbound) heq, congrArg (·.isOpen) heq⟩
      · exact ⟨congrArg (·.outbound) heq, congrArg (·.isOpen) heq⟩
    have htaken : (c1.takeImplementation m.object).2.outbound = c1.outbound ∧
        (c1.takeImplementation m.object).2.isOpen = c1.isOpen := by
      unfold takeImplementation
      split
      · exact ⟨rfl, rfl⟩
      · exact ⟨rfl, rfl⟩
    rw [haccept] at h
    dsimp only at h
    cases htake : c1.takeImplementation m.object with
    | mk implementation? c2 =>
      rw [htake] at h htaken
      cases implementation? with
      | some implementation =>
        injection h with h
        cases h
      | none =>
        dsimp only at h
        split at h
        · injection h with h
          cases h
        · injection h with _ h
          rw [← h]
          exact ⟨htaken.1.trans hinserted.1, htaken.2.trans hinserted.2⟩

/-- Dispatching the input handles requests up to a session where there is nothing left to do, or where a
violation is met.  What a request does that is refused there queues nothing. -/
theorem handled_dispatchAll (s : Session app.toKit) : ∃ t, Handled app s t ∧
    match s.dispatchAll app with
    | (none, u) => u = t ∧ t.turn = .idle
    | (some (v, target), u) =>
      Breaks app t v target ∧ u.connection.isOpen ∧ u.connection.outbound = t.connection.outbound := by
  apply Session.dispatchAll_induction app (motive := fun s r => ∃ t, Handled app s t ∧
    match r with
    | (none, u) => u = t ∧ t.turn = .idle
    | (some (v, target), u) =>
      Breaks app t v target ∧ u.connection.isOpen ∧ u.connection.outbound = t.connection.outbound)
  · intro s hturn
    exact ⟨s, .refl s, rfl, hturn⟩
  · intro s v target hturn
    refine ⟨s, .refl s, ?_, (Session.turn_eq_violation_iff.1 hturn).1, rfl⟩
    rw [Session.inboundTarget_of_violation hturn]
    exact .unreadable hturn
  · intro s m rest v connection hturn hdispatch
    have hopen := Session.isOpen_of_turn hturn
    obtain ⟨houtbound, hstays⟩ := Connection.outbound_of_refused hdispatch
    rw [Session.connection_of_turn hturn] at houtbound hstays
    refine ⟨s, .refl s, ?_, hstays.trans hopen, houtbound⟩
    rw [← Session.inboundTarget_of_request hturn]
    exact .refused hturn hdispatch
  · intro s m rest connection hturn hdispatch ih
    obtain ⟨t, hhandled, hend⟩ := ih
    exact ⟨t, .step hturn hdispatch hhandled, hend⟩

/-! ## Failing -/

/-- The session `u` in which an operation on `s` fails over the violation that it meets in `t`.  The two
differ at most by what a refused request has changed. -/
structure Operation.Fails (app : Application) (op : Operation app.toKit) (s t u : Session app.toKit)
    (v : Violation) (target : ObjectId) : Prop where
  meets : op.Meets app s t v target
  reached : ∃ as, u.connection = replay app as s.connection
  isOpen : u.connection.isOpen
  outbound_eq : u.connection.outbound = t.connection.outbound
  perform_eq : op.perform app s = (u.fail app v target).2

/-- The violation that a session fails over is the one that it reports. -/
theorem Session.eq_of_fail {u : Session app.toKit} {v' : Violation} {target : ObjectId}
    (h : (u.fail app v' target).1 = .error (.violation v)) : v' = v := by
  injection h with h
  injection h with h

/-- A violation in the input ends in failing where it is met. -/
theorem Session.fails_of_process (h : (s.process app).1 = .error (.violation v)) :
    ∃ t target, Handled app s t ∧ Breaks app t v target ∧ ∃ u : Session app.toKit,
      (∃ as, u.connection = replay app as s.connection) ∧ u.connection.isOpen ∧
        u.connection.outbound = t.connection.outbound ∧ s.process app = u.fail app v target := by
  obtain ⟨t, hhandled, hend⟩ := handled_dispatchAll s
  have hreplay := Session.replay_dispatchAll app s
  rcases process_cases app s with ⟨v', target, u, hall, hprocess⟩ |
    ⟨u, hall, ⟨-, hprocess⟩ | ⟨hopen, hlong, hprocess⟩ | ⟨-, -, hprocess⟩⟩
  · rw [hprocess] at h
    obtain rfl := eq_of_fail h
    rw [hall] at hend hreplay
    obtain ⟨hbreaks, hopen, houtbound⟩ := hend
    exact ⟨t, target, hhandled, hbreaks, u, ⟨_, hreplay.symm⟩, hopen, houtbound, hprocess⟩
  · rw [hprocess] at h
    nomatch h
  · rw [hprocess] at h
    obtain rfl := eq_of_fail h
    rw [hall] at hend hreplay
    obtain ⟨rfl, hidle⟩ := hend
    exact ⟨u, .display, hhandled, .overflow hopen hidle hlong, u, ⟨_, hreplay.symm⟩, hopen, rfl, hprocess⟩
  · rw [hprocess] at h
    nomatch h

/-- Only an open session meets violations. -/
theorem Operation.isOpen_of_violates {op : Operation app.toKit} (h : op.Violates app s v) :
    s.connection.isOpen := by
  cases hopen : s.connection.isOpen with
  | true => rfl
  | false =>
    cases op with
    | feed bytes =>
      change (s.feed app bytes).1 = _ at h
      rw [Session.feed_of_not_open app hopen] at h
      injection h with h
      cases h
    | feedFds fds =>
      change (s.feedFds app fds).1 = _ at h
      rw [Session.feedFds_of_not_open app hopen] at h
      injection h with h
      cases h
    | dispatch m =>
      change (s.dispatch app m).1 = _ at h
      rw [Session.dispatch_of_not_open app hopen] at h
      injection h with h
      cases h
    | _ => exact False.elim h

/-- An operation that ends with a violation meets it, and fails there. -/
theorem Operation.fails_of_violates {op : Operation app.toKit} (h : op.Violates app s v) :
    ∃ t u target, op.Fails app s t u v target := by
  have hopen := isOpen_of_violates h
  cases op with
  | feed bytes =>
    have hfeed := Session.feed_of_open app hopen bytes
    change (s.feed app bytes).1 = _ at h
    rw [hfeed] at h
    obtain ⟨t, target, hhandled, hbreaks, u, hreached, hstays, houtbound, hprocess⟩ :=
      Session.fails_of_process h
    exact ⟨t, u, target, .feed hhandled hbreaks, hreached, hstays, houtbound,
      congrArg Prod.snd (hfeed.trans hprocess)⟩
  | feedFds fds =>
    have hfeed := Session.feedFds_of_open app hopen fds
    change (s.feedFds app fds).1 = _ at h
    rw [hfeed] at h
    split at h
    · rename_i hlimit
      rw [if_pos hlimit] at hfeed
      obtain rfl := Session.eq_of_fail h
      exact ⟨s, { s with fds := s.fds ++ fds }, .display, .fdOverflow hlimit, ⟨[], rfl⟩, hopen, rfl,
        congrArg Prod.snd hfeed⟩
    · rename_i hlimit
      rw [if_neg hlimit] at hfeed
      obtain ⟨t, target, hhandled, hbreaks, u, hreached, hstays, houtbound, hprocess⟩ :=
        Session.fails_of_process h
      exact ⟨t, u, target, .feedFds (Nat.le_of_not_lt hlimit) hhandled hbreaks, hreached, hstays, houtbound,
        congrArg Prod.snd (hfeed.trans hprocess)⟩
  | dispatch m =>
    change (s.dispatch app m).1 = _ at h
    cases hdispatch : s.connection.dispatch app m with
    | mk outcome connection =>
      cases outcome with
      | ok _ =>
        rw [Session.dispatch_of_handled app hopen hdispatch] at h
        cases h
      | error v' =>
        have hfailed := Session.dispatch_of_refused app hopen hdispatch
        rw [hfailed] at h
        obtain rfl := Session.eq_of_fail h
        obtain ⟨houtbound, hstays⟩ := Connection.outbound_of_refused hdispatch
        have hreplay := Connection.replay_dispatch app hopen m
        rw [hdispatch] at hreplay
        exact ⟨s, { s with connection }, m.object, .dispatch hdispatch, ⟨_, hreplay.symm⟩,
          hstays.trans hopen, houtbound, congrArg Prod.snd hfailed⟩
  | _ => exact False.elim h

end

end Compositor.Sessions
