import Compositor.Proofs.Session.Input
import Compositor.Proofs.Wire.Waiting

/-
  Where the input goes.

  Bytes and descriptors reach a session apart from each other and are used up together, a message at a
  time.  A `Receipt` is the record of one message that was decoded: its bytes, and the connection that it
  met.  `intake_conserved` says that in a session that is still open nothing was lost, used twice or used
  for another message: the frames of all receipts, then the buffer, are the bytes that were ever fed, and
  the descriptors of their messages, then the queue, are the descriptors.

  The receipts are written by `Scan.run`, the loop over a buffer that stays as it is until the loop is done:
  a position in it advances instead, while descriptors leave their queue at once.  `Scan.dispatchAll_eq`
  says that this is how a session dispatches its input; `Scan.Sound` is the invariant of the loop, which
  ties the position, the queue and the receipts to each other.
-/

namespace Compositor.Sessions

open Compositor.Wire (Descriptor Message ObjectId)
open Compositor.Protocol (Registry)

/-! ## Receipts -/

/-- A request that was decoded from the input. -/
structure Receipt (K : Kit) where
  message : Message
  /-- The bytes that it was decoded from. -/
  frame : List UInt8
  /-- The connection that it was dispatched to, as it was before. -/
  connection : Connection K

/-- The descriptors that the request claimed. -/
def Receipt.fds {K : Kit} (r : Receipt K) : List Descriptor := r.message.descriptors

/-- The bytes and the descriptors of a receipt are those of its message: they decode to it, and nothing is
left of them. -/
def Receipt.Genuine {K : Kit} (r : Receipt K) : Prop :=
  Wire.decode r.frame r.fds r.connection.table.resolve =
    .message r.message r.frame.length []

/-- From one connection to the other, by dispatching the requests of the receipts in order. -/
def Follow (app : Application) : Connection app.toKit → List (Receipt app.toKit) →
    Connection app.toKit → Prop
  | c, [], c' => c' = c
  | c, r :: rs, c' => r.connection = c ∧ ∃ next, c.dispatch app r.message = (.ok (), next) ∧
      Follow app next rs c'

section
variable {app : Application}

theorem Follow.append {rs rs' : List (Receipt app.toKit)} : ∀ {c c' c'' : Connection app.toKit},
    Follow app c rs c' → Follow app c' rs' c'' → Follow app c (rs ++ rs') c'' := by
  induction rs with
  | nil =>
    rintro c c' c'' rfl h
    exact h
  | cons r rs ih =>
    rintro c c' c'' ⟨hconnection, next, hdispatch, hrest⟩ h
    exact ⟨hconnection, next, hdispatch, ih hrest h⟩

end

/-! ## The loop -/

/-- How far a loop over a buffer has come. -/
structure Scan (K : Kit) where
  /-- Where the next message begins. -/
  offset : Nat := 0
  fds : List Descriptor
  connection : Connection K
  /-- What was decoded, oldest first. -/
  receipts : List (Receipt K) := []

namespace Scan

/-- The session that is left when the loop stops here, and the buffer is drained up to it. -/
def session {K : Kit} (x : Scan K) (limits : Limits) (buffer : List UInt8) : Session K :=
  { limits, inbound := buffer.drop x.offset, fds := x.fds, connection := x.connection }

/-- The scan behind a message, which has left these descriptors and this connection. -/
def pass {K : Kit} (x : Scan K) (buffer : List UInt8) (m : Message) (consumed : Nat)
    (fds : List Descriptor) (connection : Connection K) : Scan K where
  offset := x.offset + consumed
  fds
  connection
  receipts := x.receipts ++ [⟨m, (buffer.drop x.offset).take consumed, x.connection⟩]

/-- A message leaves less of the buffer. -/
theorem remaining_pass {K : Kit} {x : Scan K} {buffer : List UInt8} {m : Message} {consumed : Nat}
    {fds : List Descriptor}
    (h : Wire.decode (buffer.drop x.offset) x.fds x.connection.table.resolve = .message m consumed fds)
    (connection : Connection K) :
    buffer.length - (x.pass buffer m consumed fds connection).offset < buffer.length - x.offset := by
  have hbounds := Wire.decode_message_bounds h
  rw [List.length_drop] at hbounds
  show buffer.length - (x.offset + consumed) < buffer.length - x.offset
  omega

section
variable (app : Application)

/-- Dispatches complete messages of a buffer from a position on, until there is none or the session
stops.  Gives the violation that stopped it, if one did, and its target. -/
def run (limits : Limits) (buffer : List UInt8) (x : Scan app.toKit) :
    Option (Violation × ObjectId) × Scan app.toKit :=
  if x.connection.isOpen then
    match (x.session limits buffer).headerViolation? with
    | some v => (some v, x)
    | none =>
      match h : Wire.decode (buffer.drop x.offset) x.fds x.connection.table.resolve with
      | .incomplete => (none, x)
      | .failed e => (some (.wire e, (x.session limits buffer).inboundTarget), x)
      | .message m consumed fds =>
        match x.connection.dispatch app m with
        | (.error v, connection) => (some (v, m.object), x.pass buffer m consumed fds connection)
        | (.ok (), connection) =>
          have := remaining_pass h connection
          run limits buffer (x.pass buffer m consumed fds connection)
  else (none, x)
termination_by buffer.length - x.offset

theorem session_pass (x : Scan app.toKit) (limits : Limits) (buffer : List UInt8) (m : Message)
    (consumed : Nat) (fds : List Descriptor) (connection : Connection app.toKit) :
    (x.pass buffer m consumed fds connection).session limits buffer =
      { x.session limits buffer with
        inbound := (x.session limits buffer).inbound.drop consumed, fds, connection } := by
  unfold session pass
  rw [List.drop_drop]

/-- A session dispatches its input by the loop, and drains what the loop has passed. -/
theorem dispatchAll_eq (limits : Limits) (buffer : List UInt8) (x : Scan app.toKit) :
    (x.session limits buffer).dispatchAll app =
      ((x.run app limits buffer).1, (x.run app limits buffer).2.session limits buffer) := by
  fun_induction run app limits buffer x with
  | case1 x hopen v hheader =>
    exact Session.dispatchAll_of_violation app (Session.turn_eq_violation_iff.2 ⟨hopen, .inl hheader⟩)
  | case2 x hopen hheader hdecode =>
    exact Session.dispatchAll_of_idle app ((Session.turn_eq_idle_iff hopen).2 ⟨hheader, hdecode⟩)
  | case3 x hopen hheader e hdecode =>
    exact Session.dispatchAll_of_violation app
      (Session.turn_eq_violation_iff.2 ⟨hopen, .inr ⟨hheader, e, hdecode, rfl, rfl⟩⟩)
  | case4 x hopen hheader m consumed fds hdecode v connection hdispatch =>
    rw [session_pass]
    exact Session.dispatchAll_of_refused app
      (Session.turn_eq_request_iff.2 ⟨hopen, hheader, consumed, fds, hdecode, rfl⟩) hdispatch
  | case5 x hopen hheader m consumed fds hdecode connection hdispatch _ ih =>
    rw [← ih, session_pass]
    exact Session.dispatchAll_of_handled app
      (Session.turn_eq_request_iff.2 ⟨hopen, hheader, consumed, fds, hdecode, rfl⟩) hdispatch
  | case6 x hstop => exact Session.dispatchAll_of_idle app (Session.turn_of_not_open hstop)

/-! ### The invariant -/

/-- What the loop has passed of a buffer is in its receipts, and what it has claimed of the descriptors
`fds` is in their messages; and it has dispatched these messages, from the connection `c` on. -/
structure Sound (buffer : List UInt8) (fds : List Descriptor) (c : Connection app.toKit)
    (x : Scan app.toKit) : Prop where
  offset_le : x.offset ≤ buffer.length
  bytes : buffer.take x.offset = x.receipts.flatMap Receipt.frame
  descriptors : fds = x.receipts.flatMap Receipt.fds ++ x.fds
  genuine : ∀ r ∈ x.receipts, r.Genuine
  order : Follow app c x.receipts x.connection

variable {app} {buffer : List UInt8} {fds : List Descriptor} {c : Connection app.toKit} {x : Scan app.toKit}

theorem sound_start (buffer : List UInt8) (fds : List Descriptor) (c : Connection app.toKit) :
    Sound app buffer fds c { fds, connection := c } :=
  ⟨Nat.zero_le _, rfl, rfl, List.forall_mem_nil _, rfl⟩

/-- A request that is handled moves its bytes and its descriptors into a receipt. -/
theorem Sound.pass (h : Sound app buffer fds c x) {m : Message} {consumed : Nat} {left : List Descriptor}
    (hdecode : Wire.decode (buffer.drop x.offset) x.fds x.connection.table.resolve =
      .message m consumed left) {connection : Connection app.toKit}
    (hdispatch : x.connection.dispatch app m = (.ok (), connection)) :
    Sound app buffer fds c (x.pass buffer m consumed left connection) := by
  have hcanonical := Wire.canonical_of_decode hdecode
  have hlength : consumed ≤ buffer.length - x.offset := by
    rw [← List.length_drop]
    exact hcanonical.le_length
  have hoffset := h.offset_le
  refine ⟨?_, ?_, ?_, ?_, ?_⟩
  · show x.offset + consumed ≤ buffer.length
    omega
  · show buffer.take (x.offset + consumed) = (x.receipts ++ [_]).flatMap Receipt.frame
    rw [List.take_add, h.bytes, List.flatMap_append, List.flatMap_singleton]
  · show fds = (x.receipts ++ [_]).flatMap Receipt.fds ++ left
    have hfds : x.fds = m.descriptors ++ left := hcanonical.fds_eq
    rw [List.flatMap_append, List.flatMap_singleton, List.append_assoc, h.descriptors, hfds]
    rfl
  · intro r hr
    rcases List.mem_append.1 hr with hr | hr
    · exact h.genuine r hr
    · obtain rfl := List.mem_singleton.1 hr
      unfold Receipt.Genuine
      rw [List.length_take, List.length_drop, Nat.min_eq_left hlength]
      exact Wire.decode_take hdecode
  · exact h.order.append ⟨rfl, connection, hdispatch, rfl⟩

/-- The loop keeps its invariant, unless it ends in a violation. -/
theorem Sound.run (limits : Limits) (h : Sound app buffer fds c x)
    (hend : (x.run app limits buffer).1 = none) : Sound app buffer fds c (x.run app limits buffer).2 := by
  fun_induction Scan.run app limits buffer x with
  | case1 x hopen v hheader => cases hend
  | case2 x hopen hheader hdecode => exact h
  | case3 x hopen hheader e hdecode => cases hend
  | case4 x hopen hheader m consumed fds hdecode v connection hdispatch => cases hend
  | case5 x hopen hheader m consumed left hdecode connection hdispatch _ ih =>
    exact ih (h.pass hdecode hdispatch) hend
  | case6 x hstop => exact h

end

end Scan

/-! ## Operations -/

section
variable (app : Application)

/-- The receipts of the input that a session holds. -/
def Session.decoded (s : Session app.toKit) : List (Receipt app.toKit) :=
  (Scan.run app s.limits s.inbound { fds := s.fds, connection := s.connection }).2.receipts

namespace Operation

/-- The bytes that an operation brings in. -/
def fedBytes {K : Kit} : Operation K → List UInt8
  | .feed bytes => bytes
  | _ => []

/-- The descriptors that an operation brings in. -/
def fedFds {K : Kit} : Operation K → List Descriptor
  | .feedFds fds => fds
  | _ => []

/-- Does the operation bring in anything? -/
def isInput {K : Kit} : Operation K → Bool
  | .feed _ | .feedFds _ => true
  | _ => false

/-- The receipts of the requests that an operation decodes: those of the input with what comes in, unless
it is refused.  A request that is handed over decoded leaves none. -/
def receipts : Operation app.toKit → Session app.toKit → List (Receipt app.toKit)
  | .feed bytes, s =>
    if s.connection.isOpen then Session.decoded app { s with inbound := s.inbound ++ bytes } else []
  | .feedFds fds, s =>
    if s.connection.isOpen ∧ (s.fds ++ fds).length ≤ s.limits.maxQueuedFds then
      Session.decoded app { s with fds := s.fds ++ fds }
    else []
  | _, _ => []

end Operation

/-- The receipts of a run. -/
def Session.receipts (s : Session app.toKit) : List (Operation app.toKit) → List (Receipt app.toKit)
  | [] => []
  | op :: ops => op.receipts app s ++ Session.receipts (op.perform app s) ops

/-- Of these bytes and descriptors, what a session does not hold any more has gone into the messages of
receipts: the oldest bytes into their frames, one after the other, the oldest descriptors into their
arguments. -/
structure Conserved {K : Kit} (bytes : List UInt8) (fds : List Descriptor) (rs : List (Receipt K))
    (s : Session K) : Prop where
  bytes : bytes = rs.flatMap Receipt.frame ++ s.inbound
  fds : fds = rs.flatMap Receipt.fds ++ s.fds
  genuine : ∀ r ∈ rs, r.Genuine

/-- Where nothing is used, nothing is lost. -/
theorem Conserved.untouched {K : Kit} {s s' : Session K} (h : s.SameInput s') :
    Conserved (s.inbound ++ []) (s.fds ++ []) [] s' := by
  obtain ⟨hbytes, hfds⟩ := h
  refine ⟨?_, ?_, List.forall_mem_nil _⟩
  · rw [hbytes, List.append_nil]
    rfl
  · rw [hfds, List.append_nil]
    rfl

/-- What a session holds is conserved along with what comes in later. -/
theorem Conserved.trans {K : Kit} {s s' : Session K} {bytes bytes' : List UInt8}
    {fds fds' : List Descriptor} {rs rs' : List (Receipt K)} (h : Conserved bytes fds rs s)
    (h' : Conserved (s.inbound ++ bytes') (s.fds ++ fds') rs' s') :
    Conserved (bytes ++ bytes') (fds ++ fds') (rs ++ rs') s' := by
  refine ⟨?_, ?_, ?_⟩
  · rw [h.bytes, List.append_assoc, h'.bytes, List.flatMap_append, List.append_assoc]
  · rw [h.fds, List.append_assoc, h'.fds, List.flatMap_append, List.append_assoc]
  · intro r hr
    rcases List.mem_append.1 hr with hr | hr
    · exact h.genuine r hr
    · exact h'.genuine r hr

variable {app} {s : Session app.toKit}

/-- A session that is open after processing has only dispatched, and met no violation. -/
theorem Session.dispatchAll_of_process (hopen : (s.process app).2.connection.isOpen) :
    s.dispatchAll app = (none, (s.process app).2) := by
  rcases Session.process_cases app s with ⟨v, target, t, -, hprocess⟩ |
    ⟨t, hall, ⟨hclosed, hprocess⟩ | ⟨-, -, hprocess⟩ | ⟨-, -, hprocess⟩⟩
  · rw [hprocess] at hopen
    exact absurd hopen (Bool.eq_false_iff.1 (Connection.isOpen_fail app t.connection v target))
  · rw [hprocess] at hopen
    exact absurd hopen (Bool.eq_false_iff.1 hclosed)
  · rw [hprocess] at hopen
    exact absurd hopen (Bool.eq_false_iff.1 (Connection.isOpen_fail app t.connection _ _))
  · rw [hprocess]
    exact hall

/-- What processing has passed is in the receipts, and what it has not passed is kept. -/
theorem Session.conserved_process (hopen : (s.process app).2.connection.isOpen) :
    Conserved s.inbound s.fds (s.decoded app) (s.process app).2 ∧
      Follow app s.connection (s.decoded app) (s.process app).2.connection := by
  have hall := Scan.dispatchAll_eq app s.limits s.inbound { fds := s.fds, connection := s.connection }
  change s.dispatchAll app = _ at hall
  rw [Session.dispatchAll_of_process hopen] at hall
  obtain ⟨hend, hleft⟩ := Prod.mk.inj hall
  have hsound := (Scan.sound_start s.inbound s.fds s.connection).run s.limits hend.symm
  rw [hleft]
  refine ⟨⟨?_, hsound.descriptors, hsound.genuine⟩, hsound.order⟩
  unfold Session.decoded Scan.session
  rw [← hsound.bytes, List.take_append_drop]

/-- An operation that leaves an open session open conserves the input, and dispatches what it decodes in
order. -/
theorem Operation.conserved (hopen : s.connection.isOpen) (op : Operation app.toKit)
    (hopen' : (op.perform app s).connection.isOpen) :
    Conserved (s.inbound ++ op.fedBytes) (s.fds ++ op.fedFds) (op.receipts app s) (op.perform app s) ∧
      (op.isInput → Follow app s.connection (op.receipts app s) (op.perform app s).connection) := by
  cases op with
  | feed bytes =>
    have hfeed : s.feed app bytes = _ := Session.feed_of_open app hopen bytes
    have hreceipts : receipts app (.feed bytes) s =
        Session.decoded app { s with inbound := s.inbound ++ bytes } := if_pos hopen
    change (s.feed app bytes).2.connection.isOpen at hopen'
    show Conserved _ (s.fds ++ []) _ (s.feed app bytes).2 ∧
      (_ → Follow app s.connection _ (s.feed app bytes).2.connection)
    rw [hreceipts, List.append_nil]
    rw [hfeed] at hopen' ⊢
    obtain ⟨hconserved, hfollow⟩ := Session.conserved_process hopen'
    exact ⟨hconserved, fun _ => hfollow⟩
  | feedFds fds =>
    have hfeed : s.feedFds app fds = _ := Session.feedFds_of_open app hopen fds
    change (s.feedFds app fds).2.connection.isOpen at hopen'
    show Conserved (s.inbound ++ []) _ _ (s.feedFds app fds).2 ∧
      (_ → Follow app s.connection _ (s.feedFds app fds).2.connection)
    rw [hfeed] at hopen' ⊢
    by_cases hlimit : s.limits.maxQueuedFds < (s.fds ++ fds).length
    · rw [if_pos hlimit] at hopen'
      exact absurd hopen' (Bool.eq_false_iff.1 (Connection.isOpen_fail app s.connection _ _))
    · have hreceipts : receipts app (.feedFds fds) s =
          Session.decoded app { s with fds := s.fds ++ fds } := if_pos ⟨hopen, Nat.le_of_not_lt hlimit⟩
      rw [if_neg hlimit] at hopen' ⊢
      rw [hreceipts, List.append_nil]
      obtain ⟨hconserved, hfollow⟩ := Session.conserved_process hopen'
      exact ⟨hconserved, fun _ => hfollow⟩
  | dispatch m =>
    refine ⟨.untouched ?_, nofun⟩
    change (s.dispatch app m).2.connection.isOpen at hopen'
    show s.SameInput (s.dispatch app m).2
    cases hdispatch : s.connection.dispatch app m with
    | mk outcome c =>
      cases outcome with
      | error v =>
        rw [Session.dispatch_of_refused app hopen hdispatch] at hopen'
        exact absurd hopen' (Bool.eq_false_iff.1 (Connection.isOpen_fail app c v m.object))
      | ok _ =>
        rw [Session.dispatch_of_handled app hopen hdispatch]
        exact ⟨rfl, rfl⟩
  | close => exact absurd hopen' (Bool.eq_false_iff.1 (Connection.isOpen_close app s.connection))
  | postEvent h opcode args => exact ⟨.untouched (Session.sameInput_onHandle h _), nofun⟩
  | bind h i => exact ⟨.untouched (Session.sameInput_onHandle h _), nofun⟩
  | destroy h => exact ⟨.untouched (Session.sameInput_onHandle h _), nofun⟩
  | _ => exact ⟨.untouched ⟨rfl, rfl⟩, nofun⟩

/-! ## Runs -/

/-- A session that is open after an operation was open before it. -/
theorem Operation.isOpen_of_perform (hs : Settled s.connection) {op : Operation app.toKit}
    (hopen : (op.perform app s).connection.isOpen) : s.connection.isOpen := by
  have hadvances := (op.advances hs).2
  rw [show (op.perform app s).state = .open from isOpen_iff.1 hopen] at hadvances
  refine isOpen_iff.2 ?_
  show s.state = .open
  cases hstate : s.state with
  | «open» => rfl
  | closing =>
    rw [hstate] at hadvances
    rcases hadvances with heq | ⟨heq, -⟩
    · cases heq
    · cases heq
  | closed =>
    rw [hstate] at hadvances
    cases hadvances

/-- A session that is open after a run was open throughout. -/
theorem Session.isOpen_of_performAll (hs : Settled s.connection) (ops : List (Operation app.toKit))
    (hopen : (s.performAll app ops).connection.isOpen) : s.connection.isOpen := by
  induction ops generalizing s with
  | nil => exact hopen
  | cons op ops ih => exact op.isOpen_of_perform hs (ih (op.advances hs).1 hopen)

/-- A run that leaves a session open conserves the input. -/
theorem Session.conserved_performAll (hs : Settled s.connection) (ops : List (Operation app.toKit))
    (hopen : (s.performAll app ops).connection.isOpen) :
    Conserved (s.inbound ++ ops.flatMap Operation.fedBytes) (s.fds ++ ops.flatMap Operation.fedFds)
      (s.receipts app ops) (s.performAll app ops) := by
  induction ops generalizing s with
  | nil => exact .untouched ⟨rfl, rfl⟩
  | cons op ops ih =>
    have hs' := (op.advances hs).1
    have hopen' := Session.isOpen_of_performAll hs' ops hopen
    have hfirst := (op.conserved (op.isOpen_of_perform hs hopen') hopen').1
    rw [List.flatMap_cons, List.flatMap_cons, ← List.append_assoc, ← List.append_assoc]
    exact hfirst.trans (ih hs' hopen)

/-- A session begins without input. -/
theorem Session.inbound_new {client : Nat} {registry : Registry} {globals : Globals app.Binder}
    {limits : Limits} {world : app.World}
    (hnew : Session.new client registry globals limits world = .ok s) : s.inbound = [] ∧ s.fds = [] := by
  obtain ⟨_, _, _, -, -, rfl⟩ := Session.exists_of_new hnew
  exact ⟨rfl, rfl⟩

/-- As long as a session is open, all bytes that were ever fed to it are the frames of the requests that it
has decoded, in the order in which it dispatched them, and then its buffer; and all descriptors that were
ever fed are those that these requests claimed, and then its queue. -/
theorem intake_conserved {client : Nat} {registry : Registry} {globals : Globals app.Binder}
    {limits : Limits} {world : app.World}
    (hnew : Session.new client registry globals limits world = .ok s) (ops : List (Operation app.toKit))
    (hopen : (s.performAll app ops).state = .open) :
    Conserved (ops.flatMap Operation.fedBytes) (ops.flatMap Operation.fedFds) (s.receipts app ops)
        (s.performAll app ops) ∧
      ∀ before op after, ops = before ++ op :: after → op.isInput →
        Follow app (s.performAll app before).connection (op.receipts app (s.performAll app before))
          (s.performAll app (before ++ [op])).connection := by
  obtain ⟨-, hsettled⟩ := Settled.new hnew
  have hopen := isOpen_iff.2 hopen
  constructor
  · obtain ⟨hbytes, hfds⟩ := Session.inbound_new hnew
    have hconserved := Session.conserved_performAll hsettled ops hopen
    rw [hbytes, hfds] at hconserved
    exact hconserved
  · rintro before op after rfl hinput
    rw [Session.performAll_append] at hopen
    rw [Session.performAll_append]
    have hbefore := hsettled.performAll before
    have hopen' := Session.isOpen_of_performAll (op.advances hbefore).1 after hopen
    exact (op.conserved (op.isOpen_of_perform hbefore hopen') hopen').2 hinput

end

/-! ## A session with descriptors -/

/-- An application without globals whose handlers take what they are given, and do nothing. -/
def Application.idle : Application where
  Handler := Unit
  Binder := Empty
  World := Unit
  request handler _ := .done (handler, .ok ())
  destroyed _ _ world := world
  bind binder := nomatch binder

/-- The core interfaces, and one with a request that carries a descriptor. -/
def Registry.keeping : Registry :=
  ⟨Protocol.Core.interfaces ++ [{
    name := "keeper"
    version := 1
    requests := [{ name := "keep", signature := ⟨[{ name := "memory", kind := .fd }]⟩ }] }]⟩

/-- A session of that application as it is opened, with the default limits. -/
def Session.keeping : Session Application.idle.toKit where
  limits := {}
  connection :=
    { client := 0
      registry := Registry.keeping
      globals := {}
      table :=
        { objects := [(.display, ⟨Protocol.Core.display, 1, 1, some .display⟩)]
          capacity := 1024
          nextGeneration := 2 }
      outbound := Wire.Outbox.withLimit 4096
      world := () }

theorem Session.new_keeping : Session.new 0 Registry.keeping {} {} () = .ok Session.keeping := rfl

/-- The server makes a keeper.  The client asks for a round trip, in two pieces with two descriptors in
between, then gives one of them to the keeper and begins another request. -/
def keepingRun : List (Operation Application.idle.toKit) :=
  [.createObject "keeper" 1, .bind ⟨quitterId, 2⟩ (.application ()), .feed [1, 0, 0, 0, 0, 0, 12],
    .feedFds [⟨5, "memory"⟩, ⟨6, "memory"⟩], .feed [0, 2, 0, 0, 0, 0, 0, 0, 0xFF, 0, 0, 8, 0, 1, 0]]

theorem intake_conserved_sample :
    (Session.keeping.performAll .idle keepingRun).state = .open ∧
      (Session.keeping.receipts .idle keepingRun).map Receipt.frame =
        [[1, 0, 0, 0, 0, 0, 12, 0, 2, 0, 0, 0], [0, 0, 0, 0xFF, 0, 0, 8, 0]] ∧
      (Session.keeping.receipts .idle keepingRun).map Receipt.fds = [[], [⟨5, "memory"⟩]] ∧
      Conserved (keepingRun.flatMap Operation.fedBytes) (keepingRun.flatMap Operation.fedFds)
        (Session.keeping.receipts .idle keepingRun) (Session.keeping.performAll .idle keepingRun) :=
  ⟨by decide +kernel, by decide +kernel, by decide +kernel,
    (intake_conserved Session.new_keeping keepingRun (by decide +kernel)).1⟩

end Compositor.Sessions
