import Compositor.Proofs.Session.Destruction
import Compositor.Proofs.Wire.Canonical

/-
  Posting, exact and all or nothing.

  An event is appended to the queue before a destructor takes its object away, so a destruction that failed
  would leave the client with the event and the server with the object.  It cannot fail (`exists_destroyed`):
  the object is live, for the event was encoded; the deletion has room, where messages may have twelve bytes;
  and the object is not the display, for the display has no destructors (`destructor_display`).  That last
  point needs the display to keep its type as long as the connection is open, which is the invariant
  `Reporting`.

  `posts_of_reporting` says when an event is posted (`Postable`) and what has changed afterwards (`Posted`).
  `posts_of_new` says it for the whole life of a session.
-/

namespace Compositor.Wire

/-- Where arguments fit a signature, a message can be sent within a limit exactly if its size is within it. -/
theorem Message.fault?_eq_none_iff_of_check {s : Signature} {m : Message} (h : s.check m.args = .ok ())
    {limit : Nat} : m.fault? limit = none ↔ m.size ≤ limit := by
  refine ⟨size_le_of_fault?, fun hsize => ?_⟩
  have hfits := (s.check_eq_ok_iff m.args).1 h
  have hargs : argsSize m.args ≤ limit := by
    rw [size] at hsize
    omega
  unfold fault?
  rw [hfits.argFaultFrom_eq_none hargs]
  exact if_neg (Nat.not_lt.2 hsize)

end Compositor.Wire

namespace Compositor.Sessions

open Compositor.Wire (Arg Message ObjectId Outbox)
open Compositor.Objects (Object Table)
open Compositor.Protocol

namespace Connection

/-! ## Outcomes -/

/-- An event that an open connection can post: its object is live and has it at its version, the arguments
fit, and its frame fits the limit. -/
structure Postable {K : Kit} (limit : Nat) (c : Connection K) (e : Message)
    (o : Object (Implementation K.Handler)) (m : Method) : Prop where
  live : c.table.get e.object = .ok o
  event : o.interface.method? .event e.opcode = some m
  since_le : m.since ≤ o.version
  fits : m.signature.check e.args = .ok ()
  size_le : e.size ≤ limit

/-- The deletions that an event brings with it: that of its object, if it is a destructor and the id is the
client's. -/
def deletions (m : Method) (id : ObjectId) : List ObjectId :=
  if m.destructor ∧ id.side = .client then [id] else []

section
variable (app : Application)

/-- What is different when an event has been posted. -/
structure Posted (c : Connection app.toKit) (e : Message) (o : Object (Implementation app.Handler))
    (m : Method) (c' : Connection app.toKit) : Prop where
  /-- Its frame is queued, and behind it the deletions. -/
  bytes : c'.outbound.bytes =
    c.outbound.bytes ++ e.frame ++ (deletions m e.object).flatMap fun id => (deletion id).frame
  fds : c'.outbound.fds = c.outbound.fds ++ e.descriptors
  acks : c'.pendingAcks = c.pendingAcks ++ deletions m e.object
  /-- A destructor ends its object, and nothing else does. -/
  live : c'.table.contains e.object = !m.destructor
  /-- Apart from the queue, any other event leaves everything as it is. -/
  stays : m.destructor = false → c' = { c with outbound := c.outbound.append e }
  /-- A destructor is queued, and then the object is destroyed. -/
  ends : m.destructor = true → Destroyed app { c with outbound := c.outbound.append e } e.object o c'

/-- What posting an event comes to where the limit of the queue is `limit`. -/
structure Posts (limit : Nat) (c : Connection app.toKit) (e : Message) : Prop where
  /-- It succeeds exactly if the event can be posted. -/
  ok_iff : (c.post app e.object e.opcode e.args).1 = .ok () ↔ ∃ o m, c.Postable limit e o m
  done : ∀ o m, c.Postable limit e o m → c.Posted app e o m (c.post app e.object e.opcode e.args).2
  /-- Otherwise nothing has changed. -/
  refused : ∀ r, (c.post app e.object e.opcode e.args).1 = .error r →
    (c.post app e.object e.opcode e.args).2 = c

end

section
variable {app : Application} {c : Connection app.toKit} {id : ObjectId} {e : Message}
  {o : Object (Implementation app.Handler)} {m : Method} {limit : Nat}

/-! ## The second step -/

/-- Where announcements have room, a live object is destroyed as a whole. -/
theorem exists_destroyed (hopen : c.isOpen) (hroom : 12 ≤ c.outbound.limit) (hget : c.table.get id = .ok o)
    (hid : id ≠ .display) : ∃ c', c.destroy app id = (.ok (), c') ∧ Destroyed app c id o c' := by
  have hvoice : ∀ o, ¬ c.Voiceless c.outbound.limit id o := by
    intro o hvoiceless
    have hsize : (deletion id).size = 12 := rfl
    have hsmall := hvoiceless.small
    omega
  cases (destroys_of_isOpen hopen id).whole hvoice with
  | permanent hdisplay _ => exact absurd hdisplay hid
  | missing hmissing _ =>
    rw [hget] at hmissing
    cases hmissing
  | @all o' c' hdestroy hdestroyed =>
    have hlive := Table.get_eq_ok_iff.2 (Table.remove_eq_ok_iff.1 hdestroyed.removed).1
    rw [hget] at hlive
    injection hlive with heq
    subst heq
    exact ⟨c', hdestroy, hdestroyed⟩

/-- The display has no destructors. -/
theorem destructor_display {opcode : UInt16} (h : Core.display.method? .event opcode = some m) :
    m.destructor = false := by
  have hall : ∀ m ∈ Core.display.events, m.destructor = false := by decide
  exact hall m (List.mem_of_getElem? h)

/-- A destructor belongs to another object than the display. -/
theorem Postable.ne_display (h : c.Postable limit e o m) (hc : Reporting limit c) (hopen : c.isOpen)
    (hdestructor : m.destructor = true) : e.object ≠ .display := by
  intro hid
  obtain ⟨o', hlive, hinterface, -⟩ := hc.display hopen
  have hget := Table.get_eq_ok_iff_get?.1 h.live
  rw [hid, hlive] at hget
  injection hget with heq
  subst heq
  have hevent := h.event
  rw [hinterface] at hevent
  rw [destructor_display hevent] at hdestructor
  cases hdestructor

/-! ## Both steps -/

/-- An event is encoded exactly if it can be posted. -/
theorem encodeEvent_eq_ok_iff_postable (hopen : c.isOpen) {outbound : Outbox} :
    c.encodeEvent e.object e.opcode e.args = .ok (m, outbound) ↔
      (∃ o, c.Postable c.outbound.limit e o m) ∧ outbound = c.outbound.append e := by
  rw [encodeEvent_eq_ok_iff]
  constructor
  · rintro ⟨-, o, hget, hmethod, hsince, hcheck, hpush⟩
    obtain ⟨hfault, houtbound⟩ := (Outbox.push_eq_ok_iff _ _ _).1 hpush
    have hsize := (Message.fault?_eq_none_iff_of_check (m := e) hcheck).1 hfault
    exact ⟨⟨o, hget, hmethod, UInt32.not_lt.1 hsince, hcheck, hsize⟩, houtbound⟩
  · rintro ⟨⟨o, h⟩, houtbound⟩
    have hfault := (Message.fault?_eq_none_iff_of_check h.fits).2 h.size_le
    exact ⟨hopen, o, h.live, h.event, UInt32.not_lt.2 h.since_le, h.fits,
      (Outbox.push_eq_ok_iff _ _ _).2 ⟨hfault, houtbound⟩⟩

/-- An event that can be posted is queued, and a destructor then destroys its object. -/
theorem Postable.post_eq (h : c.Postable c.outbound.limit e o m) (hopen : c.isOpen) :
    c.post app e.object e.opcode e.args = if m.destructor = true then
      destroy app { c with outbound := c.outbound.append e } e.object
      else (.ok (), { c with outbound := c.outbound.append e }) := by
  unfold post
  rw [(encodeEvent_eq_ok_iff_postable hopen).2 ⟨⟨o, h⟩, rfl⟩]

/-- Any other event than a destructor is only queued. -/
theorem Postable.posted_of_stays (h : c.Postable limit e o m) (hdestructor : m.destructor = false) :
    c.Posted app e o m { c with outbound := c.outbound.append e } := by
  have hnone : deletions m e.object = [] := by
    unfold deletions
    rw [if_neg (by rw [hdestructor]; exact fun h => Bool.false_ne_true h.1)]
  refine ⟨?_, Outbox.fds_append _ _, ?_, ?_, fun _ => rfl, fun h => ?_⟩
  · rw [hnone, List.flatMap_nil, List.append_nil]
    exact Outbox.bytes_append _ _
  · rw [hnone, List.append_nil]
  · rw [hdestructor]
    exact Option.isSome_iff_exists.2 ⟨o, Table.get_eq_ok_iff_get?.1 h.live⟩
  · rw [hdestructor] at h
    cases h

/-- A destructor is queued, and its object is gone. -/
theorem posted_of_destroyed {c' : Connection app.toKit} (hdestructor : m.destructor = true)
    (h : Destroyed app { c with outbound := c.outbound.append e } e.object o c') : c.Posted app e o m c' := by
  have hgone : c'.table.contains e.object = !m.destructor := by
    unfold Table.contains
    rw [h.objects, Objects.Directory.get?_erase, if_pos rfl, hdestructor]
    rfl
  refine ⟨?_, ?_, ?_, hgone, fun hstays => ?_, fun _ => h⟩
  · unfold deletions
    cases hside : e.object.side with
    | client =>
      rw [(h.client hside).1, if_pos ⟨hdestructor, rfl⟩, Outbox.bytes_append, Outbox.bytes_append,
        List.flatMap_singleton]
    | server =>
      rw [(h.server hside).1, if_neg (fun h => by cases h.2), Outbox.bytes_append, List.flatMap_nil,
        List.append_nil]
  · cases hside : e.object.side with
    | client =>
      rw [(h.client hside).1, Outbox.fds_append, Outbox.fds_append]
      exact List.append_nil _
    | server => rw [(h.server hside).1, Outbox.fds_append]
  · unfold deletions
    cases hside : e.object.side with
    | client => rw [(h.client hside).2, if_pos ⟨hdestructor, rfl⟩]
    | server =>
      rw [(h.server hside).2, if_neg (fun h => by cases h.2)]
      exact (List.append_nil _).symm
  · rw [hdestructor] at hstays
    cases hstays

/-- An event that can be posted is posted. -/
theorem Postable.posted (h : c.Postable limit e o m) (hc : Reporting limit c) (hopen : c.isOpen)
    (hroom : 12 ≤ limit) :
    ∃ c', c.post app e.object e.opcode e.args = (.ok (), c') ∧ c.Posted app e o m c' := by
  obtain rfl := hc.limit_eq
  have hpost := h.post_eq hopen
  cases hdestructor : m.destructor with
  | false =>
    rw [hdestructor, if_neg Bool.false_ne_true] at hpost
    exact ⟨_, hpost, h.posted_of_stays hdestructor⟩
  | true =>
    rw [hdestructor, if_pos rfl] at hpost
    obtain ⟨c', hdestroy, hdestroyed⟩ := exists_destroyed
      (c := { c with outbound := c.outbound.append e }) hopen hroom h.live (h.ne_display hc hopen hdestructor)
    exact ⟨c', hpost.trans hdestroy, posted_of_destroyed hdestructor hdestroyed⟩

/-- What posting comes to on a connection that can report. -/
theorem posts_of_reporting (hc : Reporting limit c) (hopen : c.isOpen) (hroom : 12 ≤ limit) (e : Message) :
    c.Posts app limit e := by
  have hposted : ∀ o m, c.Postable limit e o m → ∃ c', c.post app e.object e.opcode e.args = (.ok (), c') ∧
      c.Posted app e o m c' := fun o m h => h.posted hc hopen hroom
  cases hencode : c.encodeEvent e.object e.opcode e.args with
  | error r =>
    have hpost : c.post app e.object e.opcode e.args = (.error r, c) := by
      unfold post
      rw [hencode]
    have hnot : ¬ ∃ o m, c.Postable limit e o m := by
      rintro ⟨o, m, h⟩
      obtain ⟨c', hok, -⟩ := hposted o m h
      rw [hpost] at hok
      injection hok with hok
      cases hok
    refine ⟨⟨fun hok => ?_, fun h => absurd h hnot⟩, fun o m h => absurd ⟨o, m, h⟩ hnot, fun _ _ => ?_⟩
    · rw [hpost] at hok
      cases hok
    · rw [hpost]
  | ok p =>
    obtain ⟨m, outbound⟩ := p
    obtain ⟨⟨o, h⟩, -⟩ := (encodeEvent_eq_ok_iff_postable hopen).1 hencode
    rw [hc.limit_eq] at h
    obtain ⟨c', hok, -⟩ := hposted o m h
    refine ⟨⟨fun _ => ⟨o, m, h⟩, fun _ => by rw [hok]⟩, fun o m h => ?_, fun r hrefused => ?_⟩
    · obtain ⟨c', hok, hdone⟩ := hposted o m h
      rw [hok]
      exact hdone
    · rw [hok] at hrefused
      cases hrefused

end

end Connection

/-! ## The whole life of a session -/

section
variable {app : Application}

/-- In every run, and in the middle of any operation after it, whose actions up to there are `as`: while the
connection is open, posting an event is exact and all or nothing, in a session whose messages have room for
a deletion. -/
theorem posts_of_new {client : Nat} {registry : Registry} {globals : Globals app.Binder} {limits : Limits}
    {world : app.World} {s : Session app.toKit}
    (hcore : registry.get? Core.displayName = some Core.display)
    (hnew : Session.new client registry globals limits world = .ok s) (hroom : 12 ≤ limits.maxMessageSize)
    (ops : List (Operation app.toKit)) (as : List (Action app.toKit))
    (hopen : (replay app as (s.performAll app ops).connection).isOpen) (e : Message) :
    (replay app as (s.performAll app ops).connection).Posts app
      (min limits.maxMessageSize Wire.maxMessageSize) e := by
  have hreporting := replay_preserves Reporting.apply as
    (Session.performAll_preserves Reporting.apply ops (Reporting.new hnew hcore))
  refine Connection.posts_of_reporting hreporting hopen ?_ e
  unfold Wire.maxMessageSize
  omega

/-- The id of a round trip. -/
def roundTripId : ObjectId := ⟨13, by decide⟩

/-- What a request for a round trip does before its handler runs: the callback is there. -/
def roundTripAsked : List (Action Application.bare.toKit) :=
  [.insertCreated 1 [{ name := "callback", kind := .newId, interface := some Core.callbackName }]
    [.newId roundTripId]]

/-- The answer, which ends the callback. -/
def roundTripAnswer : Message := ⟨roundTripId, Core.doneOpcode, [.uint 0]⟩

theorem posts_of_new_sample :
    Session.new 0 .core {} {} () = .ok Session.bare ∧
      (replay .bare roundTripAsked Session.bare.connection).isOpen ∧
      (∃ o m, Connection.Postable 4096 (replay .bare roundTripAsked Session.bare.connection)
        roundTripAnswer o m ∧ m.destructor) ∧
      Connection.Posts .bare 4096 (replay .bare roundTripAsked Session.bare.connection) roundTripAnswer := by
  have hopen : (replay .bare roundTripAsked Session.bare.connection).isOpen := by decide +kernel
  refine ⟨Session.new_bare, hopen, ⟨_, _, ⟨rfl, rfl, ?_, rfl, ?_⟩, rfl⟩,
    posts_of_new rfl Session.new_bare (by decide) [] roundTripAsked hopen roundTripAnswer⟩
  · decide
  · decide

end

end Compositor.Sessions
