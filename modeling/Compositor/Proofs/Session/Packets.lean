import Compositor.Proofs.Session.Arrival
import Compositor.Proofs.Session.Violations
import Compositor.Proofs.Wire.Waiting

/-
  Where the bytes of a client are cut does not matter, not even for the limit of the input.

  The limit is checked once all complete messages are dispatched, so whether it is exceeded might depend
  on where the bytes end.  It does not.  Limits that a session can work with leave room for the largest
  message, so a partial one never exceeds them; only a whole message that waits for its descriptors can
  (`exists_awaitsFds`).  Further bytes bring no descriptors, so the limit stays exceeded
  (`turn_extend_of_awaitsFds`).
-/

namespace Compositor.Sessions

open Compositor.Wire (Descriptor Message ObjectId Signature)

/-! ## The limit as a violation of its own -/

/-- The complaint that too many bytes wait. -/
def Violation.isBacklog : Violation → Bool
  | .inboundOverflow _ => true
  | _ => false

/-- No request is refused over bytes that wait. -/
theorem Connection.Grounds.not_isBacklog {K : Kit} {c : Connection K} {m : Message} {v : Violation}
    (h : c.Grounds m v) : v.isBacklog = false := by
  cases h with
  | @missing id e =>
    cases e with
    | _ => rfl
  | _ => rfl

namespace Session

/-- What a turn violates is a matter of the wire. -/
theorem not_isBacklog_of_turn {K : Kit} {s : Session K} {v : Violation} {target : ObjectId}
    (h : s.turn = .violation v target) : v.isBacklog = false := by
  obtain ⟨-, hheader | ⟨-, e, -, rfl, -⟩⟩ := turn_eq_violation_iff.1 h
  · unfold headerViolation? at hheader
    split at hheader
    · injection hheader with hheader
      injection hheader with hv
      rw [← hv]
      rfl
    · nomatch hheader
    · split at hheader
      · injection hheader with hheader
        injection hheader with hv
        rw [← hv]
        rfl
      · nomatch hheader
  · rfl

/-! ## What exceeds the limit -/

section
variable {K : Kit} {s : Session K}

/-- In a session with nothing to do, input beyond the limit is a whole frame that waits for descriptors:
there is room for a header, and for all but the last byte of the largest message. -/
theorem exists_awaitsFds (hopen : s.connection.isOpen) (hvalid : s.limits.Valid) (hidle : s.turn = .idle)
    (hlong : s.limits.maxInboundBytes < s.inbound.length) : ∃ header target signature,
      Wire.AwaitsFds s.inbound s.fds s.connection.table.resolve header target signature := by
  have hroom := hvalid.inbound
  have hmessage := hvalid.header_le
  obtain ⟨hheader, hdecode⟩ := (turn_eq_idle_iff hopen).1 hidle
  rcases Wire.decode_eq_incomplete_iff.1 hdecode with hpeek | ⟨header, hpeek, hshort⟩ | hawaits
  · have hlength : s.inbound.length < Wire.headerSize := Wire.length_lt_of_peekHeader hpeek
    omega
  · have hfits : header.byteLength ≤ s.limits.maxMessageSize :=
      (headerViolation?_eq_none_iff hpeek).1 hheader
    omega
  · exact hawaits

/-- A session that waits for descriptors has nothing to do when bytes come. -/
theorem turn_extend_of_awaitsFds (hopen : s.connection.isOpen) (hidle : s.turn = .idle)
    {header : Wire.Header} {target : ObjectId} {signature : Signature}
    (h : Wire.AwaitsFds s.inbound s.fds s.connection.table.resolve header target signature)
    (bytes : List UInt8) : (s.extend bytes []).turn = .idle := by
  have hpeek : Wire.peekHeader s.inbound ≠ .ok none := by
    rw [h.header_eq]
    exact nofun
  have hlonger := h.append bytes
  have hopen' : (s.extend bytes []).connection.isOpen := hopen
  refine (turn_eq_idle_iff hopen').2 ⟨?_, ?_⟩
  · rw [headerViolation?_extend hpeek]
    exact ((turn_eq_idle_iff hopen).1 hidle).1
  · unfold extend
    rw [List.append_nil]
    exact Wire.decode_eq_incomplete_iff.2 (.inr (.inr ⟨header, target, signature, hlonger⟩))

end

section
variable {app : Application} {s t : Session app.toKit}

/-- Requests leave the limits alone. -/
theorem limits_of_handled (h : Handled app s t) : t.limits = s.limits := by
  induction h with
  | refl s => rfl
  | step hturn _ _ ih =>
    obtain ⟨-, -, consumed, fds, -, rfl⟩ := turn_eq_request_iff.1 hturn
    exact ih

/-- Dispatching that meets no violation comes to rest where there is nothing to do. -/
theorem rests_of_dispatchAll (h : s.dispatchAll app = (none, t)) :
    t.turn = .idle ∧ t.limits = s.limits := by
  obtain ⟨u, hhandled, hend⟩ := handled_dispatchAll s
  rw [h] at hend
  obtain ⟨rfl, hidle⟩ := hend
  exact ⟨hidle, limits_of_handled hhandled⟩

/-! ## Two pieces and one -/

/-- More bytes at once. -/
theorem feed_append (hopen : s.connection.isOpen) (xs ys : List UInt8) :
    s.feed app (xs ++ ys) = ((s.extend xs []).extend ys []).process app := by
  rw [feed_eq_process app hopen, extend_extend, List.append_nil]

/-- What processing comes to is settled by what dispatching comes to. -/
theorem process_eq_of_dispatchAll (h : s.dispatchAll app = t.dispatchAll app) :
    s.process app = t.process app := by
  unfold process
  rw [h]

/-- Bytes that come after a call that went well might as well have come with it. -/
theorem process_extend_of_ok (hok : (s.process app).1 = .ok ())
    (hopen : (s.process app).2.connection.isOpen) (bytes : List UInt8) :
    (s.extend bytes []).process app = (s.process app).2.feed app bytes := by
  rw [feed_eq_process app hopen]
  apply process_eq_of_dispatchAll
  rw [dispatchAll_extend]
  rcases process_cases app s with ⟨v, target, t, -, hprocess⟩ |
    ⟨t, hall, ⟨hclosed, hprocess⟩ | ⟨-, -, hprocess⟩ | ⟨-, -, hprocess⟩⟩
  · rw [hprocess] at hok
    nomatch hok
  · rw [hprocess] at hopen
    change t.connection.isOpen at hopen
    rw [hclosed] at hopen
    nomatch hopen
  · rw [hprocess] at hok
    nomatch hok
  · rw [hall, hprocess]
    rfl

/-- Bytes that come with a call that ends in a violation are dropped. -/
theorem process_extend_of_violation (hvalid : s.limits.Valid) {v : Violation}
    (h : (s.process app).1 = .error (.violation v)) (bytes : List UInt8) :
    (s.extend bytes []).process app = s.process app := by
  have hmore := dispatchAll_extend app s bytes []
  rcases process_cases app s with ⟨v', target, t, hall, hprocess⟩ |
    ⟨t, hall, ⟨-, hprocess⟩ | ⟨hopen, hlong, hprocess⟩ | ⟨-, -, hprocess⟩⟩
  · rw [hall] at hmore
    rw [process_of_failed app hmore, hprocess]
    rfl
  · rw [hprocess] at h
    nomatch h
  · -- the limit is exceeded, and stays so
    obtain ⟨hidle, hlimits⟩ := rests_of_dispatchAll hall
    obtain ⟨header, target, signature, hawaits⟩ := exists_awaitsFds hopen (hlimits ▸ hvalid) hidle hlong
    have hstill := dispatchAll_of_idle app (turn_extend_of_awaitsFds hopen hidle hawaits bytes)
    rw [hall] at hmore
    have hlonger : (t.extend bytes []).limits.maxInboundBytes < (t.extend bytes []).inbound.length := by
      show t.limits.maxInboundBytes < (t.inbound ++ bytes).length
      rw [List.length_append]
      omega
    rw [process_of_overflow app (hmore.trans hstill) hopen hlonger, hprocess]
    rfl
  · rw [hprocess] at h
    nomatch h

end

end Session

/-! ## The limit -/

section
variable {app : Application} {s t : Session app.toKit}

/-- Too many bytes wait only where a whole message waits for its descriptors. -/
theorem awaitsFds_of_breaks {n : Nat} {target : ObjectId} (hvalid : t.limits.Valid)
    (h : Breaks app t (.inboundOverflow n) target) :
    target = .display ∧ n = t.limits.maxInboundBytes ∧ n < t.inbound.length ∧ ∃ header target signature,
      Wire.AwaitsFds t.inbound t.fds t.connection.table.resolve header target signature := by
  cases h with
  | unreadable hturn => nomatch Session.not_isBacklog_of_turn hturn
  | refused _ hdispatch => nomatch (Connection.grounds_of_dispatch hdispatch).not_isBacklog
  | overflow hopen hidle hlong =>
    exact ⟨rfl, rfl, hlong, Session.exists_awaitsFds hopen hvalid hidle hlong⟩

/-- An operation that is told that too many bytes wait is one that brings input. -/
theorem Operation.awaitsFds_of_meets {op : Operation app.toKit} {n : Nat} {target : ObjectId}
    (hvalid : s.limits.Valid) (h : op.Meets app s t (.inboundOverflow n) target) :
    target = .display ∧ n = s.limits.maxInboundBytes ∧ n < t.inbound.length ∧ ∃ header target signature,
      Wire.AwaitsFds t.inbound t.fds t.connection.table.resolve header target signature := by
  cases h with
  | feed hhandled hbreaks =>
    have hlimits : t.limits = s.limits := (Session.limits_of_handled hhandled).trans rfl
    rw [← hlimits] at hvalid ⊢
    exact awaitsFds_of_breaks hvalid hbreaks
  | feedFds _ hhandled hbreaks =>
    have hlimits : t.limits = s.limits := (Session.limits_of_handled hhandled).trans rfl
    rw [← hlimits] at hvalid ⊢
    exact awaitsFds_of_breaks hvalid hbreaks
  | dispatch hdispatch => nomatch (Connection.grounds_of_dispatch hdispatch).not_isBacklog

/-- However the bytes of a client are cut in two, the outcome is the same: a second piece after a first one
that went well might as well have come with it, and a second piece after a violation is dropped, the
violation of the limit included.  That one is met only where a whole message waits for its descriptors. -/
theorem feed_append_and_awaitsFds_of_violates (hopen : s.connection.isOpen)
    (hlimits : s.limits.check = .ok ()) (xs ys : List UInt8) :
    ((s.feed app xs).1 = .ok () → (s.feed app xs).2.connection.isOpen →
      s.feed app (xs ++ ys) = (s.feed app xs).2.feed app ys) ∧
    (∀ v, (s.feed app xs).1 = .error (.violation v) → s.feed app (xs ++ ys) = s.feed app xs) ∧
    ∀ (op : Operation app.toKit) (n : Nat), op.Violates app s (.inboundOverflow n) →
      ∃ t header target signature, op.Meets app s t (.inboundOverflow n) .display ∧
        n = s.limits.maxInboundBytes ∧ n < t.inbound.length ∧
          Wire.AwaitsFds t.inbound t.fds t.connection.table.resolve header target signature := by
  have hvalid : s.limits.Valid := (Limits.check_eq_ok_iff _).1 hlimits
  have hfirst : s.feed app xs = (s.extend xs []).process app := Session.feed_eq_process app hopen xs
  refine ⟨?_, ?_, ?_⟩
  · intro hok hstays
    rw [hfirst] at hok hstays ⊢
    rw [Session.feed_append hopen]
    exact Session.process_extend_of_ok hok hstays ys
  · intro v hv
    rw [hfirst] at hv ⊢
    rw [Session.feed_append hopen]
    have hvalid' : (s.extend xs []).limits.Valid := hvalid
    exact Session.process_extend_of_violation hvalid' hv ys
  · intro op n hviolates
    obtain ⟨t, u, target, hfails⟩ := Operation.fails_of_violates hviolates
    obtain ⟨rfl, hlimit, hlong, header, awaited, signature, hawaits⟩ :=
      Operation.awaitsFds_of_meets hvalid hfails.meets
    exact ⟨t, header, awaited, signature, hfails.meets, hlimit, hlong, hawaits⟩

end

/-! ## The smallest input queue -/

/-- Limits with room for a header and nothing else. -/
def scantLimits : Limits := { maxInboundBytes := 8, maxMessageSize := 8 }

/-- An interface with one request, which takes a descriptor. -/
def sinkInterface : Protocol.Interface where
  name := "sink"
  version := 1
  requests := [{ name := "write", signature := ⟨[{ name := "source", kind := .fd }]⟩ }]

/-- A session with those limits and an object of that interface. -/
def Session.scant : Session Application.bare.toKit where
  limits := scantLimits
  connection :=
    { client := 0
      registry := .core
      globals := {}
      table :=
        { objects := [(.display, ⟨Protocol.Core.display, 1, 1, some .display⟩),
            (⟨5, by decide⟩, ⟨sinkInterface, 1, 2, none⟩)]
          capacity := 1024
          nextGeneration := 3 }
      outbound := Wire.Outbox.withLimit 8
      world := () }

/-- The request of that object, without its descriptor, and the first byte of the next. -/
def sinkBytes : List UInt8 := [5, 0, 0, 0, 0, 0, 8, 0, 1]

theorem feed_append_and_awaitsFds_of_violates_sample :
    (Session.scant.feed .bare [5, 0, 0, 0]).2.feed .bare [0, 0, 8, 0] =
      Session.scant.feed .bare [5, 0, 0, 0, 0, 0, 8, 0] ∧
    Session.scant.feed .bare (sinkBytes ++ [0, 0, 0]) = Session.scant.feed .bare sinkBytes ∧
    (Session.scant.feed .bare sinkBytes).1 = .error (.violation (.inboundOverflow 8)) ∧
    ∃ t header target signature,
      Operation.Meets .bare Session.scant (.feed sinkBytes) t (.inboundOverflow 8) .display ∧
        8 = scantLimits.maxInboundBytes ∧ 8 < t.inbound.length ∧
          Wire.AwaitsFds t.inbound t.fds t.connection.table.resolve header target signature := by
  have hopen : Session.scant.connection.isOpen := rfl
  have hcheck : Session.scant.limits.check = .ok () := rfl
  have hidle : (Session.scant.extend sinkBytes []).turn = .idle := rfl
  have hoverflow : (Session.scant.feed .bare sinkBytes).1 = .error (.violation (.inboundOverflow 8)) := by
    have hall := Session.dispatchAll_of_idle .bare hidle
    rw [Session.feed_eq_process .bare hopen, Session.process_of_overflow .bare hall rfl (by decide)]
    rfl
  have hwaits : (Session.scant.extend [5, 0, 0, 0] []).turn = .idle := rfl
  have hhalf : Session.scant.feed .bare [5, 0, 0, 0] = (.ok (), Session.scant.extend [5, 0, 0, 0] []) := by
    rw [Session.feed_eq_process .bare hopen]
    exact Session.process_of_rest .bare (Session.dispatchAll_of_idle .bare hwaits) rfl (by decide)
  have htwo := @feed_append_and_awaitsFds_of_violates .bare _ hopen hcheck [5, 0, 0, 0] [0, 0, 8, 0]
  have hlong := @feed_append_and_awaitsFds_of_violates .bare _ hopen hcheck sinkBytes [0, 0, 0]
  exact ⟨(htwo.1 (by rw [hhalf]) (by rw [hhalf]; rfl)).symm, hlong.2.1 _ hoverflow, hoverflow,
    hlong.2.2 (.feed sinkBytes) 8 hoverflow⟩

end Compositor.Sessions
