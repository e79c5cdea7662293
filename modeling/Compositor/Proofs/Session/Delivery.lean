import Compositor.Proofs.Session.Arrival
import Compositor.Proofs.Wire.Reading

/-
  A request that is handed over decoded, and the same request over the wire.

  `Session.dispatch` takes a message as it is.  `Session.feed` takes bytes, and has a reader take the message
  apart by the table before the message is checked.  Both come to the same for a message in the form that
  the writer gives it: where the table knows the request, the reader gives back what was written
  (`turn_frame`), and where it does not, the reader fails for the reason that the checks would give
  (`FrameAhead.turn_of_unresolved`, `Connection.accept_of_unresolved`).

  The arguments have to fit the signature.  If they do not, the reader cannot tell them apart as they were
  meant, and fails in its own way or sees other arguments.
-/

namespace Compositor.Sessions

open Compositor.Wire (Descriptor Message ObjectId Outbox Signature)
open Compositor.Objects (Table)
open Compositor.Protocol (Interface)

/-! ## Requests that the table does not know -/

/-- Where the reader finds no signature, the checks find no method, for the same reason. -/
theorem Connection.accept_of_unresolved {K : Kit} {c : Connection K} {m : Message} {e : Wire.Error}
    (h : c.table.resolve m.object m.opcode = .error e) : c.accept m = .error (.wire e) := by
  unfold Table.resolve at h
  unfold accept
  cases hget : c.table.get m.object with
  | error f =>
    rw [hget] at h
    -- a lookup has two ways to fail
    have hmissing : f = .stale m.object ∨ f = .notFound m.object := by
      unfold Table.get at hget
      split at hget
      · nomatch hget
      · injection hget with hget
        rw [← hget]
        unfold Table.missing
        split
        · exact .inl rfl
        · exact .inr rfl
    rcases hmissing with rfl | rfl
    · injection h with h
      rw [← h]
      rfl
    · injection h with h
      rw [← h]
      rfl
  | ok target =>
    rw [hget] at h
    dsimp only at h ⊢
    cases hmethod : target.interface.method? .request m.opcode with
    | some method =>
      rw [hmethod] at h
      nomatch h
    | none =>
      rw [hmethod] at h
      injection h with h
      rw [← h]

namespace Session

/-! ## A frame at the front of the input -/

/-- A whole frame is at the front of the input, and not too large. -/
structure FrameAhead {K : Kit} (s : Session K) (header : Wire.Header) (target : ObjectId) : Prop where
  header_eq : Wire.peekHeader s.inbound = .ok (some header)
  target_eq : ObjectId.ofRaw? header.object = some target
  fits : header.byteLength ≤ s.limits.maxMessageSize
  complete : header.byteLength ≤ s.inbound.length

section
variable {K : Kit} {s : Session K} {header : Wire.Header} {target : ObjectId} {m : Message} {limit : Nat}

theorem FrameAhead.headerViolation?_eq (h : s.FrameAhead header target) : s.headerViolation? = none :=
  (headerViolation?_eq_none_iff h.header_eq).2 h.fits

theorem FrameAhead.inboundTarget_eq (h : s.FrameAhead header target) : s.inboundTarget = target := by
  unfold inboundTarget targetOf
  rw [h.header_eq]
  dsimp only
  rw [h.target_eq]
  rfl

/-- A frame that the table does not know is a violation, about its target. -/
theorem FrameAhead.turn_of_unresolved (h : s.FrameAhead header target) (hopen : s.connection.isOpen)
    {e : Wire.Error} (hresolve : s.connection.table.resolve target header.opcode = .error e) :
    s.turn = .violation (.wire e) target :=
  turn_eq_violation_iff.2 ⟨hopen, .inr ⟨h.headerViolation?_eq, e,
    Wire.decode_of_unresolved h.header_eq h.complete h.target_eq hresolve, rfl, h.inboundTarget_eq.symm⟩⟩

/-- The frame of a message within the limits. -/
theorem exists_frameAhead (hinbound : s.inbound = m.frame) (hsize : m.size ≤ Wire.maxMessageSize)
    (hlimit : m.size ≤ s.limits.maxMessageSize) :
    ∃ header, s.FrameAhead header m.object ∧ header.opcode = m.opcode := by
  obtain ⟨header, hpeek, hobject, hopcode, hlength⟩ := Wire.exists_header_frame hsize []
  rw [List.append_nil, ← hinbound] at hpeek
  refine ⟨header, ⟨hpeek, ?_, ?_, ?_⟩, hopcode⟩
  · rw [hobject]
    exact ObjectId.ofRaw?_raw m.object
  · rw [hlength]
    exact hlimit
  · refine Nat.le_of_eq ?_
    rw [hlength, hinbound, m.length_frame]

/-- A message that fits the signature of its target is the next request, and nothing is left over. -/
theorem turn_frame (hopen : s.connection.isOpen) (hinbound : s.inbound = m.frame)
    (hfds : s.fds = m.descriptors) (hlimit : m.size ≤ s.limits.maxMessageSize)
    (hfault : m.fault? (min limit Wire.maxMessageSize) = none) {signature : Signature}
    (hresolve : s.connection.table.resolve m.object m.opcode = .ok signature)
    (hcheck : signature.check m.args = .ok ()) :
    s.turn = .request m { s with inbound := [], fds := [] } := by
  have hsize : m.size ≤ Wire.maxMessageSize :=
    Nat.le_trans (Message.size_le_of_fault? hfault) (Nat.min_le_right _ _)
  obtain ⟨header, hframe, -⟩ := exists_frameAhead hinbound hsize hlimit
  have haccepts : signature.Accepts m.args := (Signature.check_eq_ok_iff _ _).1 hcheck
  have hdecode := Wire.decode_frame (Nat.min_le_right _ _) hfault hresolve haccepts [] []
  rw [List.append_nil, List.append_nil, ← hinbound, ← hfds] at hdecode
  have hdrop : s.inbound.drop m.size = [] := by
    rw [hinbound]
    exact List.drop_eq_nil_of_le (Nat.le_of_eq m.length_frame)
  refine turn_eq_request_iff.2 ⟨hopen, hframe.headerViolation?_eq, m.size, [], hdecode, ?_⟩
  rw [hdrop]

/-- Without input there is no turn to take. -/
theorem turn_of_empty (h : s.inbound = []) : s.turn = .idle := by
  cases hturn : s.turn with
  | idle => rfl
  | _ =>
    have hpeek := peekHeader_of_turn (s := s) (by rw [hturn]; exact nofun)
    rw [h] at hpeek
    exact absurd rfl hpeek

end

section
variable {app : Application} {s t : Session app.toKit} {m : Message} {limit : Nat}

/-- A session without input has nothing to do. -/
theorem process_of_empty (hopen : s.connection.isOpen) (hinbound : s.inbound = []) :
    s.process app = (.ok (), s) := by
  have hwithin : s.inbound.length ≤ s.limits.maxInboundBytes := by
    rw [hinbound]
    exact Nat.zero_le _
  exact process_of_rest app (dispatchAll_of_idle app (turn_of_empty hinbound)) hopen hwithin

/-- A request that uses up all input leaves what its handler makes of the session. -/
theorem process_of_handled (hturn : t.turn = .request m { t with inbound := [], fds := [] })
    {connection : Connection app.toKit}
    (hdispatch : t.connection.dispatch app m = (.ok (), connection)) :
    t.process app = (.ok (), { t with inbound := [], fds := [], connection }) := by
  have hall : t.dispatchAll app = (none, { t with inbound := [], fds := [], connection }) := by
    rw [dispatchAll_of_handled app hturn hdispatch]
    exact dispatchAll_of_idle app (turn_of_empty rfl)
  cases hopen : connection.isOpen with
  | false => exact process_of_closed app hall hopen
  | true => exact process_of_rest app hall hopen (Nat.zero_le _)

/-- A request that is refused drops all input. -/
theorem process_of_refused (hturn : t.turn = .request m { t with inbound := [], fds := [] })
    {v : Violation} {connection : Connection app.toKit}
    (hdispatch : t.connection.dispatch app m = (.error v, connection)) :
    t.process app = fail app { t with connection } v m.object := by
  have hall := dispatchAll_of_refused app hturn hdispatch
  exact (process_of_failed app hall).trans rfl

/-! ## Both ways -/

/-- What a whole frame and its descriptors come to, when they are all the input there is. -/
theorem process_frame (hopen : t.connection.isOpen) (hinbound : t.inbound = m.frame)
    (hfds : t.fds = m.descriptors) (hlimit : m.size ≤ t.limits.maxMessageSize)
    (hfault : m.fault? (min limit Wire.maxMessageSize) = none)
    (hargs : ∀ signature, t.connection.table.resolve m.object m.opcode = .ok signature →
      signature.check m.args = .ok ()) :
    t.process app = dispatch app { t with inbound := [], fds := [] } m := by
  have hopen' : ({ t with inbound := [], fds := [] } : Session app.toKit).connection.isOpen := hopen
  cases hresolve : t.connection.table.resolve m.object m.opcode with
  | error e =>
    have hsize : m.size ≤ Wire.maxMessageSize :=
      Nat.le_trans (Message.size_le_of_fault? hfault) (Nat.min_le_right _ _)
    obtain ⟨header, hframe, hopcode⟩ := exists_frameAhead hinbound hsize hlimit
    have hdispatch : t.connection.dispatch app m = (.error (.wire e), t.connection) := by
      unfold Connection.dispatch
      rw [Connection.accept_of_unresolved hresolve]
    rw [← hopcode] at hresolve
    rw [process_of_violation app (hframe.turn_of_unresolved hopen hresolve),
      dispatch_of_refused app hopen' hdispatch]
    rfl
  | ok signature =>
    have hturn := turn_frame hopen hinbound hfds hlimit hfault hresolve (hargs signature hresolve)
    cases hdispatch : t.connection.dispatch app m with
    | mk outcome connection =>
      cases outcome with
      | error v =>
        rw [process_of_refused hturn hdispatch, dispatch_of_refused app hopen' hdispatch]
        rfl
      | ok _ => rw [process_of_handled hturn hdispatch, dispatch_of_handled app hopen' hdispatch]

/-- A message as it is written, its descriptors fed first and its bytes then, comes to the same as the
message itself: the same result, and the same session, without input.  This holds of messages within the
limits that the table does not know, or that fit the signature the table has for them, whatever handlers
do. -/
theorem feed_frame_eq_dispatch (hopen : s.connection.isOpen) (hinbound : s.inbound = [])
    (hfds : s.fds = []) {out : Outbox} (hout : (Outbox.withLimit limit).push m = .ok out)
    (hsize : out.bytes.length ≤ s.limits.maxMessageSize)
    (hcount : out.fds.length ≤ s.limits.maxQueuedFds)
    (hargs : ∀ signature, s.connection.table.resolve m.object m.opcode = .ok signature →
      signature.check m.args = .ok ()) :
    (s.feedFds app out.fds).1 = .ok () ∧
      (s.feedFds app out.fds).2.feed app out.bytes = s.dispatch app m ∧
        (s.dispatch app m).2.inbound = [] ∧ (s.dispatch app m).2.fds = [] := by
  obtain ⟨hfault, hwritten⟩ := (Outbox.push_eq_ok_iff _ _ _).1 hout
  have hbytes : out.bytes = m.frame := by
    rw [hwritten, Outbox.bytes_append]
    rfl
  have hdescriptors : out.fds = m.descriptors := by
    rw [hwritten, Outbox.fds_append]
    rfl
  rw [hbytes, m.length_frame] at hsize
  -- the descriptors wait, and then the bytes are all the input there is
  have hwaiting : s.feedFds app out.fds = (.ok (), { s with fds := out.fds }) := by
    rw [feedFds_of_open app hopen, hfds, List.nil_append, if_neg (by omega)]
    exact process_of_empty hopen hinbound
  have hfeed : (s.feedFds app out.fds).2.feed app out.bytes =
      process app { s with inbound := out.bytes, fds := out.fds } := by
    rw [hwaiting]
    have hfed := feed_of_open app (s := { s with fds := out.fds }) hopen out.bytes
    dsimp only at hfed ⊢
    rw [hfed, hinbound, List.nil_append]
  have hempty : { s with inbound := [], fds := [] } = s := by
    rw [← hinbound, ← hfds]
  have hsame : process app { s with inbound := out.bytes, fds := out.fds } =
      dispatch app { s with inbound := [], fds := [] } m :=
    process_frame hopen hbytes hdescriptors hsize hfault hargs
  rw [hempty] at hsame
  refine ⟨congrArg Prod.fst hwaiting, hfeed.trans hsame, ?_⟩
  cases hdispatch : s.connection.dispatch app m with
  | mk outcome connection =>
    cases outcome with
    | error v =>
      rw [dispatch_of_refused app hopen hdispatch]
      exact ⟨rfl, rfl⟩
    | ok _ =>
      rw [dispatch_of_handled app hopen hdispatch]
      exact ⟨hinbound, hfds⟩

end

/-! ### A request with a descriptor -/

/-- An application whose handlers keep the descriptors that they are sent. -/
def storing : Application where
  Handler := List Descriptor
  Binder := Empty
  World := Unit
  request kept r := .done (kept ++ (r.takeFd 1).1.toList, .ok ())
  destroyed _ _ world := world
  bind binder := nomatch binder

def storeId : ObjectId := ⟨27, by decide⟩

/-- An interface with one request, which brings a size and a descriptor. -/
def storeInterface : Interface where
  name := "store"
  version := 1
  requests := [{ name := "put", signature := ⟨[⟨"size", .uint, none, false⟩, ⟨"fd", .fd, none, false⟩]⟩ }]

/-- A session with an object of that interface. -/
def stocked : Session storing.toKit where
  limits := {}
  connection :=
    { client := 0
      registry := .core
      globals := {}
      table :=
        { objects := [(.display, ⟨Protocol.Core.display, 1, 1, some .display⟩),
            (storeId, ⟨storeInterface, 1, 2, some (.application [])⟩)]
          capacity := 1024
          nextGeneration := 3 }
      outbound := Outbox.withLimit 4096
      world := () }

/-- The descriptor of a buffer. -/
def buffer : Descriptor := ⟨1, "buffer"⟩

/-- A buffer of 512 bytes is put into the store. -/
def storeRequest : Message := ⟨storeId, 0, [.uint 512, .fd buffer]⟩

/-- The handler has the descriptor, over the wire or not. -/
theorem feed_frame_eq_dispatch_sample :
    (stocked.feedFds storing [buffer]).1 = .ok () ∧
      (stocked.feedFds storing [buffer]).2.feed storing [27, 0, 0, 0, 0, 0, 12, 0, 0, 2, 0, 0] =
        stocked.dispatch storing storeRequest ∧
      (stocked.dispatch storing storeRequest).2.inbound = [] ∧
      (stocked.dispatch storing storeRequest).2.fds = [] ∧
      (stocked.dispatch storing storeRequest).2.connection.table.get storeId =
        .ok ⟨storeInterface, 1, 2, some (.application [buffer])⟩ := by
  have hout : (Outbox.withLimit 4096).push storeRequest = .ok ((Outbox.withLimit 4096).append storeRequest) :=
    rfl
  have hargs : ∀ signature,
      stocked.connection.table.resolve storeRequest.object storeRequest.opcode = .ok signature →
        signature.check storeRequest.args = .ok () := by
    intro signature hresolve
    injection hresolve with hsignature
    rw [← hsignature]
    rfl
  have hopen : stocked.connection.isOpen := rfl
  obtain ⟨hwaiting, hsame, hinbound, hfds⟩ :=
    feed_frame_eq_dispatch hopen rfl rfl hout (by decide) (by decide) hargs
  exact ⟨hwaiting, hsame, hinbound, hfds, rfl⟩

end Session

end Compositor.Sessions
