import Compositor.Session.Session

/-
  Turns: what the front of the input asks for.

  A session works through its input turn by turn.  `Session.turn` says what the next turn is, without
  taking it: nothing to do, a violation, or a request.  `dispatchAll_eq` says that `dispatchAll` takes
  one turn after the other, and `dispatchAll_induction` is the induction along these turns: what holds
  where the session stops, and is handed back over every request that is handled, holds of all of them.
-/

namespace Compositor.Sessions

open Compositor.Wire (Message ObjectId)

/-- What the front of the input asks for. -/
inductive Turn (K : Kit) where
  /-- Nothing: the input holds no complete message, or the session has stopped. -/
  | idle
  | violation (v : Violation) (target : ObjectId)
  /-- A request, and the session without the bytes and the descriptors of it. -/
  | request (m : Message) (rest : Session K)

/-! ## Stopping -/

namespace Connection

variable (app : Application)

theorem isOpen_close (c : Connection app.toKit) : (c.close app).isOpen = false := by
  unfold close
  split
  · rfl
  · rename_i h
    exact Bool.eq_false_iff.2 h

theorem isOpen_fail (c : Connection app.toKit) (v : Violation) (target : ObjectId) :
    (c.fail app v target).isOpen = false := isOpen_close app _

end Connection

/-! ## Opening -/

/-- A session is opened with the display as it was looked up, and with nothing else. -/
theorem Session.exists_of_new {K : Kit} {client : Nat} {registry : Protocol.Registry}
    {globals : Globals K.Binder} {limits : Limits} {world : K.World} {s : Session K}
    (hnew : Session.new client registry globals limits world = .ok s) :
    ∃ i h table, registry.lookup Protocol.Core.displayName 1 = .ok i ∧
      (Objects.Table.empty limits.staleIdCapacity).insert .client .display
        { interface := i, version := 1, implementation := some .display } = .ok (h, table) ∧
      s = { limits, connection :=
        { client, registry, globals, table, outbound := Wire.Outbox.withLimit limits.maxMessageSize, world } } := by
  unfold Session.new at hnew
  split at hnew
  · cases hnew
  · rename_i i hlookup
    dsimp only at hnew
    split at hnew
    · cases hnew
    · rename_i h table hinsert
      injection hnew with hnew
      exact ⟨i, h, table, hlookup, hinsert, hnew.symm⟩

/-! ## Turns -/

namespace Session

section
variable {K : Kit}

theorem requireOpen_of_open {s : Session K} (h : s.connection.isOpen) :
    s.requireOpen = .ok () := by
  unfold requireOpen state
  rw [eq_of_beq h]

theorem requireOpen_of_not_open {s : Session K} (h : s.connection.isOpen = false) :
    s.requireOpen = .error (.notOpen s.state) := by
  unfold requireOpen
  split
  · rename_i hstate
    unfold Connection.isOpen at h
    rw [show s.connection.state = .open from hstate] at h
    nomatch h
  · rfl

/-- That a session has stopped is no violation. -/
theorem ne_violation_of_requireOpen {s : Session K} {e : SessionError} (h : s.requireOpen = .error e)
    (v : Violation) : e ≠ .violation v := by
  rintro rfl
  unfold requireOpen at h
  split at h
  · cases h
  · cases h

theorem isOpen_of_requireOpen {s : Session K} (h : s.requireOpen = .ok ()) : s.connection.isOpen := by
  cases hopen : s.connection.isOpen with
  | true => rfl
  | false =>
    rw [requireOpen_of_not_open hopen] at h
    nomatch h

/-- A header that is read violates something just if it declares too much. -/
theorem headerViolation?_eq_none_iff {s : Session K} {header : Wire.Header}
    (h : Wire.peekHeader s.inbound = .ok (some header)) :
    s.headerViolation? = none ↔ header.byteLength ≤ s.limits.maxMessageSize := by
  unfold headerViolation?
  rw [h]
  dsimp only
  split
  · rename_i hlarge
    exact ⟨nofun, fun hfits => absurd hlarge (Nat.not_lt_of_le hfits)⟩
  · rename_i hfits
    exact ⟨fun _ => Nat.le_of_not_lt hfits, fun _ => rfl⟩

/-- The next turn. -/
def turn (s : Session K) : Turn K :=
  if s.connection.isOpen then
    match s.headerViolation? with
    | some (v, target) => .violation v target
    | none =>
      match Wire.decode s.inbound s.fds s.connection.table.resolve with
      | .incomplete => .idle
      | .failed e => .violation (.wire e) s.inboundTarget
      | .message m consumed fds => .request m { s with inbound := s.inbound.drop consumed, fds }
  else .idle

/-- A session that has stopped has no turns left. -/
theorem turn_of_not_open {s : Session K} (h : ¬ s.connection.isOpen) : s.turn = .idle := by
  unfold turn
  rw [if_neg h]

/-- An open session has nothing to do just if what it has is well so far, but incomplete. -/
theorem turn_eq_idle_iff {s : Session K} (hopen : s.connection.isOpen) :
    s.turn = .idle ↔ s.headerViolation? = none ∧
      Wire.decode s.inbound s.fds s.connection.table.resolve = .incomplete := by
  constructor
  · intro h
    unfold turn at h
    rw [if_pos hopen] at h
    split at h
    · nomatch h
    · rename_i hheader
      split at h
      · rename_i hdecode
        exact ⟨hheader, hdecode⟩
      · nomatch h
      · nomatch h
  · rintro ⟨hheader, hdecode⟩
    unfold turn
    rw [if_pos hopen, hheader]
    dsimp only
    rw [hdecode]

/-- The one way in which a turn is a request. -/
theorem turn_eq_request_iff {s rest : Session K} {m : Message} : s.turn = .request m rest ↔
    s.connection.isOpen ∧ s.headerViolation? = none ∧ ∃ consumed fds,
      Wire.decode s.inbound s.fds s.connection.table.resolve = .message m consumed fds ∧
        rest = { s with inbound := s.inbound.drop consumed, fds } := by
  constructor
  · intro h
    unfold turn at h
    split at h
    · rename_i hopen
      split at h
      · nomatch h
      · rename_i hheader
        split at h
        · nomatch h
        · nomatch h
        · rename_i m' consumed fds hdecode
          injection h with hm hrest
          subst hm hrest
          exact ⟨hopen, hheader, consumed, fds, hdecode, rfl⟩
    · nomatch h
  · rintro ⟨hopen, hheader, consumed, fds, hdecode, rfl⟩
    unfold turn
    rw [if_pos hopen, hheader]
    dsimp only
    rw [hdecode]

/-- The two ways in which a turn is a violation: the header, or the message behind it. -/
theorem turn_eq_violation_iff {s : Session K} {v : Violation} {target : ObjectId} :
    s.turn = .violation v target ↔ s.connection.isOpen ∧
      (s.headerViolation? = some (v, target) ∨ s.headerViolation? = none ∧ ∃ e,
        Wire.decode s.inbound s.fds s.connection.table.resolve = .failed e ∧
          v = .wire e ∧ target = s.inboundTarget) := by
  constructor
  · intro h
    unfold turn at h
    split at h
    · rename_i hopen
      split at h
      · rename_i v' target' hheader
        injection h with hv ht
        subst hv ht
        exact ⟨hopen, .inl hheader⟩
      · rename_i hheader
        split at h
        · nomatch h
        · rename_i e hdecode
          injection h with hv ht
          exact ⟨hopen, .inr ⟨hheader, e, hdecode, hv.symm, ht.symm⟩⟩
        · nomatch h
    · nomatch h
  · rintro ⟨hopen, hheader | ⟨hheader, e, hdecode, rfl, rfl⟩⟩
    · unfold turn
      rw [if_pos hopen, hheader]
    · unfold turn
      rw [if_pos hopen, hheader]
      dsimp only
      rw [hdecode]

/-- A request leaves less input, and nothing else changes. -/
theorem length_inbound_of_turn {s rest : Session K} {m : Message} (h : s.turn = .request m rest) :
    rest.inbound.length < s.inbound.length := by
  obtain ⟨-, -, consumed, fds, hdecode, rfl⟩ := turn_eq_request_iff.1 h
  have := Wire.decode_message_bounds hdecode
  rw [List.length_drop]
  omega

theorem connection_of_turn {s rest : Session K} {m : Message} (h : s.turn = .request m rest) :
    rest.connection = s.connection := by
  obtain ⟨-, -, consumed, fds, -, rfl⟩ := turn_eq_request_iff.1 h
  rfl

theorem isOpen_of_turn {s rest : Session K} {m : Message} (h : s.turn = .request m rest) :
    s.connection.isOpen := (turn_eq_request_iff.1 h).1

end

section
variable (app : Application)

/-- A violation that stops the session is the one that is reported. -/
theorem fail_fst (s : Session app.toKit) (v : Violation) (target : ObjectId) :
    (s.fail app v target).1 = .error (.violation v) := rfl

/-! ### What comes in -/

theorem feed_of_open {s : Session app.toKit} (h : s.connection.isOpen) (bytes : List UInt8) :
    s.feed app bytes = process app { s with inbound := s.inbound ++ bytes } := by
  unfold feed
  rw [requireOpen_of_open h]

theorem feedFds_of_open {s : Session app.toKit} (h : s.connection.isOpen)
    (fds : List Wire.Descriptor) : s.feedFds app fds =
      if s.limits.maxQueuedFds < (s.fds ++ fds).length then
        fail app { s with fds := s.fds ++ fds } (.fdOverflow s.limits.maxQueuedFds) .display
      else process app { s with fds := s.fds ++ fds } := by
  unfold feedFds
  rw [requireOpen_of_open h]

theorem dispatch_of_refused {s : Session app.toKit} (h : s.connection.isOpen) {m : Message}
    {v : Violation} {connection : Connection app.toKit}
    (hdispatch : s.connection.dispatch app m = (.error v, connection)) :
    s.dispatch app m = fail app { s with connection } v m.object := by
  unfold dispatch
  simp only [requireOpen_of_open h, hdispatch]

theorem dispatch_of_handled {s : Session app.toKit} (h : s.connection.isOpen) {m : Message}
    {connection : Connection app.toKit}
    (hdispatch : s.connection.dispatch app m = (.ok (), connection)) :
    s.dispatch app m = (.ok (), { s with connection }) := by
  unfold dispatch
  simp only [requireOpen_of_open h, hdispatch]

theorem feed_of_not_open {s : Session app.toKit} (h : s.connection.isOpen = false)
    (bytes : List UInt8) : s.feed app bytes = (.error (.notOpen s.state), s) := by
  unfold feed
  rw [requireOpen_of_not_open h]

theorem feedFds_of_not_open {s : Session app.toKit} (h : s.connection.isOpen = false)
    (fds : List Wire.Descriptor) : s.feedFds app fds = (.error (.notOpen s.state), s) := by
  unfold feedFds
  rw [requireOpen_of_not_open h]

theorem dispatch_of_not_open {s : Session app.toKit} (h : s.connection.isOpen = false) (m : Message) :
    s.dispatch app m = (.error (.notOpen s.state), s) := by
  unfold dispatch
  rw [requireOpen_of_not_open h]

/-! ### Dispatching all -/

/-- Dispatching all is taking the next turn, and then dispatching all. -/
theorem dispatchAll_eq (s : Session app.toKit) : s.dispatchAll app =
    match s.turn with
    | .idle => (none, s)
    | .violation v target => (some (v, target), s)
    | .request m rest =>
      match rest.connection.dispatch app m with
      | (.error v, connection) => (some (v, m.object), { rest with connection })
      | (.ok (), connection) => dispatchAll app { rest with connection } := by
  rw [dispatchAll]
  unfold turn
  split
  · cases hheader : s.headerViolation? with
    | some v => rfl
    | none =>
      dsimp only
      split
      · rename_i hdecode
        rw [hdecode]
      · rename_i e hdecode
        rw [hdecode]
      · rename_i m consumed fds hdecode
        rcases hdispatch : s.connection.dispatch app m with ⟨v | _, connection⟩
        · simp only [hdecode, hdispatch]
        · simp only [hdecode, hdispatch]
  · rfl

theorem dispatchAll_of_idle {s : Session app.toKit} (hturn : s.turn = .idle) :
    s.dispatchAll app = (none, s) := by
  rw [dispatchAll_eq]
  simp only [hturn]

theorem dispatchAll_of_violation {s : Session app.toKit} {v : Violation} {target : ObjectId}
    (hturn : s.turn = .violation v target) : s.dispatchAll app = (some (v, target), s) := by
  rw [dispatchAll_eq]
  simp only [hturn]

theorem dispatchAll_of_refused {s rest : Session app.toKit} {m : Message} {v : Violation}
    {connection : Connection app.toKit} (hturn : s.turn = .request m rest)
    (hdispatch : rest.connection.dispatch app m = (.error v, connection)) :
    s.dispatchAll app = (some (v, m.object), { rest with connection }) := by
  rw [dispatchAll_eq]
  simp only [hturn, hdispatch]

theorem dispatchAll_of_handled {s rest : Session app.toKit} {m : Message}
    {connection : Connection app.toKit} (hturn : s.turn = .request m rest)
    (hdispatch : rest.connection.dispatch app m = (.ok (), connection)) :
    s.dispatchAll app = dispatchAll app { rest with connection } := by
  rw [dispatchAll_eq]
  simp only [hturn, hdispatch]

/-- Induction along the turns of a session. -/
theorem dispatchAll_induction
    {motive : Session app.toKit → Option (Violation × ObjectId) × Session app.toKit → Prop}
    (idle : ∀ s, s.turn = .idle → motive s (none, s))
    (violation : ∀ s v target, s.turn = .violation v target → motive s (some (v, target), s))
    (refused : ∀ s m rest v connection, s.turn = .request m rest →
      rest.connection.dispatch app m = (.error v, connection) →
        motive s (some (v, m.object), { rest with connection }))
    (handled : ∀ s m rest connection, s.turn = .request m rest →
      rest.connection.dispatch app m = (.ok (), connection) →
        motive { rest with connection } (dispatchAll app { rest with connection }) →
          motive s (dispatchAll app { rest with connection })) :
    ∀ s, motive s (s.dispatchAll app) := by
  -- every request leaves less input
  have h : ∀ n (s : Session app.toKit), s.inbound.length < n → motive s (s.dispatchAll app) := by
    intro n
    induction n with
    | zero =>
      intro s hs
      exact absurd hs (Nat.not_lt_zero _)
    | succ n ih =>
      intro s hs
      rw [dispatchAll_eq]
      cases hturn : s.turn with
      | idle => exact idle s hturn
      | violation v target => exact violation s v target hturn
      | request m rest =>
        have hlen := length_inbound_of_turn hturn
        dsimp only
        split
        · rename_i v connection hdispatch
          exact refused s m rest v connection hturn hdispatch
        · rename_i connection hdispatch
          refine handled s m rest connection hturn hdispatch (ih _ ?_)
          show rest.inbound.length < n
          omega
  intro s
  exact h (s.inbound.length + 1) s (Nat.lt_succ_self _)

/-! ### Processing -/

/-- Dispatching that meets a violation ends in failing over it. -/
theorem process_of_failed {s t : Session app.toKit} {v : Violation} {target : ObjectId}
    (h : s.dispatchAll app = (some (v, target), t)) : s.process app = t.fail app v target := by
  unfold process
  rw [h]

theorem process_of_violation {s : Session app.toKit} {v : Violation} {target : ObjectId}
    (hturn : s.turn = .violation v target) : s.process app = s.fail app v target :=
  process_of_failed app (dispatchAll_of_violation app hturn)

/-- Dispatching that stops the session drops the rest of the input. -/
theorem process_of_closed {s t : Session app.toKit} (h : s.dispatchAll app = (none, t))
    (hclosed : t.connection.isOpen = false) :
    s.process app = (.ok (), { t with inbound := [], fds := [] }) := by
  unfold process
  rw [h]
  dsimp only
  rw [if_pos (by rw [hclosed]; rfl)]

/-- Dispatching that leaves too much ends in failing over the limit. -/
theorem process_of_overflow {s t : Session app.toKit} (h : s.dispatchAll app = (none, t))
    (hopen : t.connection.isOpen) (hlong : t.limits.maxInboundBytes < t.inbound.length) :
    s.process app = t.fail app (.inboundOverflow t.limits.maxInboundBytes) .display := by
  unfold process
  rw [h]
  dsimp only
  rw [if_neg (by rw [hopen]; decide), if_pos hlong]

/-- Otherwise the rest of the input waits. -/
theorem process_of_rest {s t : Session app.toKit} (h : s.dispatchAll app = (none, t))
    (hopen : t.connection.isOpen) (hwithin : t.inbound.length ≤ t.limits.maxInboundBytes) :
    s.process app = (.ok (), t) := by
  unfold process
  rw [h]
  dsimp only
  rw [if_neg (by rw [hopen]; decide), if_neg (by omega)]

/-- The ways in which processing ends: over a violation, in a session that has stopped, over the limit, or
well. -/
theorem process_cases (s : Session app.toKit) :
    (∃ v target t, s.dispatchAll app = (some (v, target), t) ∧ s.process app = t.fail app v target) ∨
    ∃ t, s.dispatchAll app = (none, t) ∧
      (t.connection.isOpen = false ∧ s.process app = (.ok (), { t with inbound := [], fds := [] }) ∨
       t.connection.isOpen ∧ t.limits.maxInboundBytes < t.inbound.length ∧
         s.process app = t.fail app (.inboundOverflow t.limits.maxInboundBytes) .display ∨
       t.connection.isOpen ∧ t.inbound.length ≤ t.limits.maxInboundBytes ∧
         s.process app = (.ok (), t)) := by
  cases hall : s.dispatchAll app with
  | mk outcome t =>
    cases outcome with
    | some p => exact .inl ⟨p.1, p.2, t, rfl, process_of_failed app hall⟩
    | none =>
      refine .inr ⟨t, rfl, ?_⟩
      cases hopen : t.connection.isOpen with
      | false => exact .inl ⟨rfl, process_of_closed app hall hopen⟩
      | true =>
        by_cases hlong : t.limits.maxInboundBytes < t.inbound.length
        · exact .inr (.inl ⟨rfl, hlong, process_of_overflow app hall hopen hlong⟩)
        · have hwithin : t.inbound.length ≤ t.limits.maxInboundBytes := Nat.le_of_not_lt hlong
          exact .inr (.inr ⟨rfl, hwithin, process_of_rest app hall hopen hwithin⟩)

end

end Session

/-! ## The smallest application -/

/-- An application without handlers and globals: only the core objects answer. -/
def Application.bare : Application where
  Handler := Empty
  Binder := Empty
  World := Unit
  request handler := nomatch handler
  destroyed _ _ world := world
  bind binder := nomatch binder

/-- A session of that application as it is opened, with the default limits. -/
def Session.bare : Session Application.bare.toKit where
  limits := {}
  connection :=
    { client := 0
      registry := .core
      globals := {}
      table :=
        { objects := [(.display, ⟨Protocol.Core.display, 1, 1, some .display⟩)]
          capacity := 1024
          nextGeneration := 2 }
      outbound := Wire.Outbox.withLimit 4096
      world := () }

theorem Session.new_bare : Session.new 0 .core {} {} () = .ok Session.bare := rfl

/-! ## An application that stops -/

/-- An application without globals whose handlers answer every request by closing the session.  Its world
lists the objects whose handlers took note of their end. -/
def Application.quitting : Application where
  Handler := Unit
  Binder := Empty
  World := List ObjectId
  request _ _ := .step .close fun _ => .done ((), .ok ())
  destroyed _ id world := world ++ [id]
  bind binder := nomatch binder

/-- A session of that application as it is opened, with the default limits. -/
def Session.quitting : Session Application.quitting.toKit where
  limits := {}
  connection :=
    { client := 0
      registry := .core
      globals := {}
      table :=
        { objects := [(.display, ⟨Protocol.Core.display, 1, 1, some .display⟩)]
          capacity := 1024
          nextGeneration := 2 }
      outbound := Wire.Outbox.withLimit 4096
      world := [] }

theorem Session.new_quitting : Session.new 0 .core {} {} [] = .ok Session.quitting := rfl

/-- The first id that the server hands out. -/
def quitterId : ObjectId := ⟨0xFF000000, by decide⟩

/-- A request to the object at that id, a registry. -/
def quittingRequest : Message := ⟨quitterId, Protocol.Core.bindOpcode,
  [.uint 1, .genericNewId Protocol.Core.callbackName 1 ⟨3, by decide⟩]⟩

end Compositor.Sessions
