import Compositor.Proofs.Session.Lifecycle

/-
  Reporting violations.

  The first violation is reported to the client by `wl_display.error`, and then the session stops.  The text
  of that event is cut to the size limit of the queue, so nothing can be wrong with the event but that the
  limit is below even the smallest one (`fault?_errorEvent`).  A display that can report is there while a
  connection is open (`Reporting`), whatever handlers and the owner do.

  `reported_of_violates` puts this together with where a violation is met (`Operation.Meets`): what is queued
  in the end is what was queued there, and then the report, if the limit has room for one.
-/

namespace Compositor.Sessions

open Compositor.Wire (Descriptor Message ObjectId Outbox)
open Compositor.Objects (Handle Object Table)
open Compositor.Protocol

/-! ## The report -/

/-- The event that reports an error about an object, with as much of its text as a size limit allows. -/
def errorEvent (limit : Nat) (target : ObjectId) (code : UInt32) (text : String) : Message :=
  ⟨.display, Core.errorOpcode,
    [.object (some target), .uint code, .string (some (Connection.errorText limit text))]⟩

/-- The size of an error event without text. -/
def leastErrorSize : Nat := Wire.headerSize + 16

/-- What the client is told about a violation: the frame of one error event, if the limit has room for
one. -/
def report (limit : Nat) (v : Violation) (target : ObjectId) : List UInt8 :=
  if leastErrorSize ≤ limit then (errorEvent limit target v.code v.message).frame else []

/-- A blank takes as many bytes as the NUL that it stands for. -/
theorem utf8Size_blanked (cs : List Char) :
    Text.utf8Size (cs.map fun c => if c = '\x00' then ' ' else c) = Text.utf8Size cs := by
  induction cs with
  | nil => rfl
  | cons c cs ih =>
    have hc : (if c = '\x00' then ' ' else c).utf8Size = c.utf8Size := by
      split
      · rename_i h
        rw [h]
        rfl
      · rfl
    rw [List.map_cons, Text.utf8Size, Text.utf8Size, ih, hc]

namespace Connection

theorem utf8ByteSize_errorText_le (limit : Nat) (text : String) :
    (errorText limit text).utf8ByteSize ≤ errorRoom limit := by
  unfold errorText
  rw [Text.utf8ByteSize_ofList, utf8Size_blanked]
  exact Text.utf8Size_fitting_le _ _

theorem hasNul_errorText (limit : Nat) (text : String) : Wire.hasNul (errorText limit text) = false := by
  unfold errorText Wire.hasNul
  rw [String.toList_ofList, List.contains_eq_any_beq, List.any_map, List.any_eq_false]
  intro c _
  dsimp only [Function.comp]
  split
  · decide
  · rename_i h
    rw [beq_iff_eq]
    exact Ne.symm h

end Connection

/-- The text of an error event takes its length, its bytes and the NUL, in whole words. -/
theorem size_error (target : ObjectId) (code : UInt32) (text : String) :
    Message.size ⟨.display, Core.errorOpcode, [.object (some target), .uint code, .string (some text)]⟩ =
      Wire.headerSize + 12 + Wire.padded (text.utf8ByteSize + 1) := by
  show Wire.headerSize + (4 + (4 + (4 + Wire.padded _ + 0))) = _
  omega

theorem size_errorEvent (limit : Nat) (target : ObjectId) (code : UInt32) (text : String) :
    (errorEvent limit target code text).size =
      Wire.headerSize + 12 + Wire.padded ((Connection.errorText limit text).utf8ByteSize + 1) :=
  size_error target code _

/-- Of the arguments of an error event only the text can be at fault. -/
theorem argFaultFrom_errorEvent_eq (limit : Nat) (target : ObjectId) (code : UInt32) (text : String) :
    Wire.argFaultFrom limit 0 (errorEvent limit target code text).args =
      Wire.textFault? limit 2 (Connection.errorText limit text) := by
  simp only [errorEvent, Wire.argFaultFrom, Wire.Arg.fault?]
  cases Wire.textFault? limit 2 (Connection.errorText limit text) with
  | none => rfl
  | some e => rfl

/-- It is at fault by its length only. -/
theorem argFaultFrom_errorEvent (limit : Nat) (target : ObjectId) (code : UInt32) (text : String) :
    Wire.argFaultFrom limit 0 (errorEvent limit target code text).args = none ↔
      Wire.padded ((Connection.errorText limit text).utf8ByteSize + 1) ≤ limit := by
  rw [argFaultFrom_errorEvent_eq]
  unfold Wire.textFault?
  rw [if_neg (by rw [Connection.hasNul_errorText]; exact Bool.false_ne_true)]
  split
  · rename_i hlong
    exact ⟨fun h => absurd h (Option.some_ne_none _), fun h => absurd h (Nat.not_le_of_lt hlong)⟩
  · rename_i hfits
    exact ⟨fun _ => Nat.le_of_not_lt hfits, fun _ => rfl⟩

/-- An error event can be sent exactly if the limit has room for one without text. -/
theorem fault?_errorEvent (limit : Nat) (target : ObjectId) (code : UInt32) (text : String) :
    (errorEvent limit target code text).fault? limit = none ↔ leastErrorSize ≤ limit := by
  have hargs := argFaultFrom_errorEvent limit target code text
  have hsize := size_errorEvent limit target code text
  have hroom := Connection.utf8ByteSize_errorText_le limit text
  generalize (Connection.errorText limit text).utf8ByteSize = n at hargs hsize hroom
  -- the text and its NUL take a word at least, and no more than the whole words that are left
  have hword : 4 ≤ Wire.padded (n + 1) := by
    unfold Wire.padded
    omega
  have hpadded : leastErrorSize ≤ limit → Wire.padded (n + 1) ≤ limit - (Wire.headerSize + 12) := by
    intro h
    unfold leastErrorSize at h
    unfold Connection.errorRoom at hroom
    unfold Wire.padded
    omega
  unfold leastErrorSize at hpadded ⊢
  unfold Message.fault?
  cases hfault : Wire.argFaultFrom limit 0 (errorEvent limit target code text).args with
  | some e =>
    rw [hfault] at hargs
    have hlong := mt hargs.2 (Option.some_ne_none e)
    refine ⟨fun h => absurd h (Option.some_ne_none e), fun h => ?_⟩
    have := hpadded h
    omega
  | none =>
    dsimp only
    rw [hsize]
    split
    · rename_i hlarge
      refine ⟨fun h => absurd h (Option.some_ne_none _), fun h => ?_⟩
      have := hpadded h
      omega
    · rename_i hfits
      exact ⟨fun _ => by omega, fun _ => rfl⟩

/-! ## The display -/

/-- The connection can report, as far as the limit allows: while it is open, its display is there. -/
structure Reporting {K : Kit} (limit : Nat) (c : Connection K) : Prop where
  limit_eq : c.outbound.limit = limit
  display : c.isOpen → ∃ o, c.table.objects.get? .display = some o ∧ o.interface = Core.display ∧ o.version = 1

section
variable {app : Application} {limit : Nat} {c : Connection app.toKit}

/-- What is needed of a change for the connection to be able to report after it. -/
theorem Reporting.step {c' : Connection app.toKit} (hc : Reporting limit c)
    (hlimit : c'.outbound.limit = c.outbound.limit) (hopen : c'.isOpen → c.isOpen)
    (hdisplay : ∀ o, c.table.objects.get? .display = some o →
      ∃ o', c'.table.objects.get? .display = some o' ∧ o'.interface = o.interface ∧ o'.version = o.version) :
    Reporting limit c' := by
  refine ⟨hlimit.trans hc.limit_eq, fun h => ?_⟩
  obtain ⟨o, hlive, hinterface, hversion⟩ := hc.display (hopen h)
  obtain ⟨o', hlive', hinterface', hversion'⟩ := hdisplay o hlive
  exact ⟨o', hlive', hinterface'.trans hinterface, hversion'.trans hversion⟩

/-- Installing or taking out an implementation leaves the display. -/
theorem display_modify {α : Type} {t : Table α} {o : Object α} (hlive : t.objects.get? .display = some o)
    (id : ObjectId) (implementation : Option α) :
    ∃ o', (t.modify id fun o => { o with implementation }).objects.get? .display = some o' ∧
      o'.interface = o.interface ∧ o'.version = o.version := by
  by_cases hid : ObjectId.display = id
  · subst hid
    refine ⟨{ o with implementation }, ?_, rfl, rfl⟩
    rw [Table.get?_modify, if_pos rfl, hlive]
    rfl
  · refine ⟨o, ?_, rfl, rfl⟩
    rw [Table.get?_modify, if_neg hid, hlive]

/-- A new object does not take the place of the display. -/
theorem display_insert {α : Type} {t t' : Table α} {side : Wire.Side} {id : ObjectId} {new o : Object α}
    {h : Handle} (hi : t.insert side id new = .ok (h, t')) (hlive : t.objects.get? .display = some o) :
    ∃ o', t'.objects.get? .display = some o' ∧ o'.interface = o.interface ∧ o'.version = o.version := by
  have hfree := Table.get?_of_insert hi
  have hid : ObjectId.display ≠ id := by
    rintro rfl
    rw [hlive] at hfree
    cases hfree
  refine ⟨o, ?_, rfl, rfl⟩
  rw [Table.objects_insert hi, Objects.Directory.get?_put, if_neg hid, hlive]

/-- The display cannot be destroyed, and a destruction that fails halfway does not touch it either. -/
theorem Reporting.destroy (hc : Reporting limit c) (id : ObjectId) :
    Reporting limit (c.destroy app id).2 := by
  rcases c.destroy_outcomes app id with ⟨e, heq⟩ | ⟨o, table, -, hid, hremove, houtcome⟩
  · rw [heq]
    exact hc
  · have hdisplay : ∀ o, c.table.objects.get? .display = some o → table.objects.get? .display = some o := by
      intro o hlive
      rw [(Table.objects_remove hremove).2.1, Objects.Directory.get?_erase, if_neg (Ne.symm hid), hlive]
    rcases houtcome with ⟨e, -, heq⟩ | heq
    · rw [heq]
      exact hc.step rfl (fun h => h) fun o hlive => ⟨o, hdisplay o hlive, rfl, rfl⟩
    · obtain ⟨htable, hstate, -, hlimit⟩ := Connection.announced_keeps { c with table } id
      rw [heq]
      refine hc.step hlimit (fun h => ?_) fun o hlive => ⟨o, ?_, rfl, rfl⟩
      · rw [isOpen_iff] at h ⊢
        exact hstate.symm.trans h
      · exact (congrArg (·.objects.get? .display) htable).trans (hdisplay o hlive)

/-- However an action turns out, the display of an open connection is there. -/
theorem Reporting.outcome {a : Action app.toKit} {c' : Connection app.toKit} {hs : List Happening}
    (hc : Reporting limit c) (houtcome : a.Outcome app c c' hs) : Reporting limit c' := by
  -- most actions leave the display as it is
  have hsame : ∀ {c' : Connection app.toKit}, c'.outbound.limit = c.outbound.limit →
      c'.state = c.state → c'.table = c.table → Reporting limit c' := by
    intro c' hlimit hstate htable
    refine hc.step hlimit (fun h => ?_) fun o hlive => ⟨o, by rw [htable, hlive], rfl, rfl⟩
    rw [isOpen_iff] at h ⊢
    rw [← hstate, h]
  cases houtcome with
  | aside => exact hsame rfl rfl rfl
  | queued _ => exact hsame rfl rfl rfl
  | destroyed => exact hc.destroy _
  | created _ _ hinsert => exact hc.step rfl (fun h => h) fun o hlive => display_insert hinsert hlive
  | inserted _ _ hinsert => exact hc.step rfl (fun h => h) fun o hlive => display_insert hinsert hlive
  | bound _ _ => exact hc.step rfl (fun h => h) fun o hlive => display_modify hlive _ _
  | taken _ => exact hc.step rfl (fun h => h) fun o hlive => display_modify hlive _ _
  | returned _ _ => exact hc.step rfl (fun h => h) fun o hlive => display_modify hlive _ _
  | withdrawn => exact hsame rfl rfl rfl
  | closed =>
    refine ⟨?_, fun hopen => ?_⟩
    · unfold Connection.close
      split
      · exact hc.limit_eq
      · exact hc.limit_eq
    · rw [Connection.isOpen_close app c] at hopen
      cases hopen
  | drained =>
    obtain ⟨hobjects, -⟩ := Table.acknowledgeAll_keeps c.pendingAcks c.table
    refine hc.step rfl (fun hopen => ?_) fun o hlive => ⟨o, ?_, rfl, rfl⟩
    · rw [isOpen_iff] at hopen ⊢
      change (if c.state = .closing then .closed else c.state) = .open at hopen
      split at hopen
      · cases hopen
      · exact hopen
    · exact (congrArg (Objects.Directory.get? .display) hobjects).trans hlive
  | fdsDrained => exact hsame rfl rfl rfl

/-- No action takes the display away from an open connection. -/
theorem Reporting.apply (a : Action app.toKit) (c : Connection app.toKit) (hc : Reporting limit c) :
    Reporting limit (a.apply app c) := hc.outcome (a.outcome c)

/-- A new session can report if its registry has the display as the protocol defines it. -/
theorem Reporting.new {client : Nat} {registry : Registry} {globals : Globals app.Binder}
    {limits : Limits} {world : app.World} {s : Session app.toKit}
    (hnew : Session.new client registry globals limits world = .ok s)
    (hcore : registry.get? Core.displayName = some Core.display) :
    Reporting (min limits.maxMessageSize Wire.maxMessageSize) s.connection := by
  have hlookup : registry.lookup Core.displayName 1 = .ok Core.display := by
    unfold Registry.lookup
    rw [hcore]
    rfl
  obtain ⟨i, h, table, hfound, hinsert, rfl⟩ := Session.exists_of_new hnew
  rw [hlookup] at hfound
  injection hfound with hfound
  subst hfound
  refine ⟨rfl, fun _ => ⟨⟨Core.display, 1, 1, some .display⟩, ?_, rfl, rfl⟩⟩
  show table.objects.get? .display = _
  rw [Table.objects_insert hinsert]
  rfl

/-- The event `wl_display.error`. -/
def errorMethod : Method :=
  { name := "error"
    signature := ⟨[{ name := "object_id", kind := .object }, { name := "code", kind := .uint },
      { name := "message", kind := .string }]⟩ }

theorem check_errorEvent (limit : Nat) (target : ObjectId) (code : UInt32) (text : String) :
    errorMethod.signature.check (errorEvent limit target code text).args = .ok () := by
  refine (Wire.Signature.check_eq_ok_iff _ _).2
    (.cons ⟨rfl, nofun, nofun⟩ (.cons ⟨rfl, nofun, nofun⟩ (.cons ⟨rfl, nofun, fun s hs => ?_⟩ .nil)))
  injection hs with hs
  rw [← hs]
  exact Connection.hasNul_errorText limit text

/-- Where there is room for an error event, there is room for a deletion. -/
theorem Reporting.room (hc : Reporting limit c) (hroom : leastErrorSize ≤ limit) : 12 ≤ c.outbound.limit := by
  rw [hc.limit_eq]
  unfold leastErrorSize at hroom
  omega

/-- The display of an open connection has the event for errors, at its version. -/
theorem Reporting.exists_display (hc : Reporting limit c) (hopen : c.isOpen) :
    ∃ o, c.table.get .display = .ok o ∧
      o.interface.method? .event Core.errorOpcode = some errorMethod ∧ ¬ o.version < errorMethod.since := by
  obtain ⟨o, hlive, hinterface, hversion⟩ := hc.display hopen
  refine ⟨o, Table.get_eq_ok_iff_get?.2 hlive, ?_, ?_⟩
  · rw [hinterface]
    rfl
  · rw [hversion]
    decide

/-- The display of an open connection encodes an error event where the limit has room for one. -/
theorem Reporting.encodeEvent_error (hc : Reporting limit c) (hopen : c.isOpen) (hroom : leastErrorSize ≤ limit)
    (target : ObjectId) (code : UInt32) (text : String) :
    c.encodeEvent .display Core.errorOpcode (errorEvent limit target code text).args =
      .ok (errorMethod, c.outbound.append (errorEvent limit target code text)) := by
  obtain ⟨o, hget, hmethod, hsince⟩ := hc.exists_display hopen
  have hpush := Outbox.push_eq_ok_iff c.outbound (c.outbound.append (errorEvent limit target code text))
    (errorEvent limit target code text)
  rw [hc.limit_eq, fault?_errorEvent] at hpush
  exact Connection.encodeEvent_eq_ok_iff.2 ⟨hopen, o, hget, hmethod, hsince,
    check_errorEvent limit target code text, hpush.2 ⟨hroom, rfl⟩⟩

/-- Reporting an error queues the event for it, and that is all. -/
theorem Reporting.postError_eq (hc : Reporting limit c) (hopen : c.isOpen) (hroom : leastErrorSize ≤ limit)
    (target : ObjectId) (code : UInt32) (text : String) : c.postError app target code text =
      (.ok (), { c with outbound := c.outbound.append (errorEvent limit target code text) }) := by
  have hencode := hc.encodeEvent_error hopen hroom target code text
  unfold errorEvent at hencode
  unfold Connection.postError Connection.post
  rw [hc.limit_eq, hencode]
  rfl

/-- The display of an open connection sends an error event, if the limit has room for one. -/
theorem Reporting.bytes_postError (hc : Reporting limit c) (hopen : c.isOpen) (target : ObjectId)
    (code : UInt32) (text : String) : (c.postError app target code text).2.outbound.bytes =
      c.outbound.bytes ++
        if leastErrorSize ≤ limit then (errorEvent limit target code text).frame else [] := by
  by_cases hroom : leastErrorSize ≤ limit
  · rw [hc.postError_eq hopen hroom, if_pos hroom]
    exact Outbox.bytes_append c.outbound (errorEvent limit target code text)
  · unfold Connection.postError Connection.post
    rw [hc.limit_eq, if_neg hroom, List.append_nil]
    cases hencode : c.encodeEvent .display Core.errorOpcode
        [.object (some target), .uint code, .string (some (Connection.errorText limit text))] with
    | error e => rfl
    | ok p =>
      obtain ⟨m, outbound⟩ := p
      obtain ⟨-, -, -, -, -, -, hpushed⟩ := Connection.encodeEvent_eq_ok_iff.1 hencode
      have hfault := ((Outbox.push_eq_ok_iff _ _ _).1 hpushed).1
      rw [hc.limit_eq] at hfault
      exact absurd ((fault?_errorEvent limit target code text).1 hfault) hroom

/-- A violation is reported before the connection stops, if the limit has room for that. -/
theorem Reporting.bytes_fail (hc : Reporting limit c) (hopen : c.isOpen) (v : Violation)
    (target : ObjectId) :
    (c.fail app v target).outbound.bytes = c.outbound.bytes ++ report limit v target := by
  have hclose : ∀ c : Connection app.toKit, (c.close app).outbound = c.outbound := by
    intro c
    unfold Connection.close
    split
    · rfl
    · rfl
  unfold Connection.fail report
  rw [hclose, hc.bytes_postError hopen]

end

/-! ## Reporting -/

section
variable {app : Application} {limit : Nat} {s : Session app.toKit} {v : Violation}

/-- An operation that ends with a violation reports it, where it meets it. -/
theorem Operation.bytes_of_violates {op : Operation app.toKit} (hs : Reporting limit s.connection)
    (hv : op.Violates app s v) : ∃ t target, op.Meets app s t v target ∧
      (op.perform app s).connection.outbound.bytes =
        t.connection.outbound.bytes ++ report limit v target := by
  obtain ⟨t, u, target, hfails⟩ := fails_of_violates hv
  have hu : Reporting limit u.connection := by
    obtain ⟨as, hreached⟩ := hfails.reached
    rw [hreached]
    exact replay_preserves Reporting.apply as hs
  refine ⟨t, target, hfails.meets, ?_⟩
  rw [hfails.perform_eq, ← hfails.outbound_eq]
  exact hu.bytes_fail hfails.isOpen v target

/-- Every violation in every run is reported where it is met, after what was queued until then, if the
limit of the session has room for an error event. -/
theorem reported_of_violates {client : Nat} {registry : Registry} {globals : Globals app.Binder}
    {limits : Limits} {world : app.World}
    (hnew : Session.new client registry globals limits world = .ok s)
    (hlimits : limits.check = .ok ()) (hcore : registry.get? Core.displayName = some Core.display)
    (ops : List (Operation app.toKit)) {op : Operation app.toKit}
    (hv : op.Violates app (s.performAll app ops) v) :
    ∃ t target, op.Meets app (s.performAll app ops) t v target ∧
      (op.perform app (s.performAll app ops)).connection.outbound.bytes =
        t.connection.outbound.bytes ++ report limits.maxMessageSize v target := by
  have hreports := Reporting.new hnew hcore
  rw [Nat.min_eq_left ((Limits.check_eq_ok_iff limits).1 hlimits).message_le] at hreports
  exact op.bytes_of_violates (Session.performAll_preserves Reporting.apply ops hreports) hv

end

/-! ## The smallest limits -/

/-- Limits that a session can work with, but with no room for an error event. -/
def tightLimits : Limits := { maxMessageSize := 8 }

/-- A session of the core objects with those limits, as it is opened. -/
def Session.tight : Session Application.bare.toKit :=
  { Session.bare with
    limits := tightLimits
    connection := { Session.bare.connection with outbound := Outbox.withLimit 8 } }

/-- A header that declares seven bytes. -/
def malformedBytes : List UInt8 := [1, 0, 0, 0, 0, 0, 7, 0]

/-- An open session without input that is fed this header fails. -/
theorem feed_malformedBytes {app : Application} {s : Session app.toKit} (hopen : s.connection.isOpen)
    (hempty : s.inbound = []) : (s.feed app malformedBytes).1 =
      .error (.violation (.wire (.malformedHeader 7))) := by
  have hturn : Session.turn { s with inbound := malformedBytes } =
      .violation (.wire (.malformedHeader 7)) .display :=
    Session.turn_eq_violation_iff.2 ⟨hopen, .inl rfl⟩
  rw [Session.feed_of_open app hopen, hempty, List.nil_append, Session.process_of_violation app hturn]
  rfl

/-- Its violation is not reported where there is no room: nothing is queued. -/
theorem unreported_sample : tightLimits.check = .ok () ∧
    Session.new 0 .core {} tightLimits () = .ok Session.tight ∧
    (Session.tight.feed .bare malformedBytes).1 = .error (.violation (.wire (.malformedHeader 7))) ∧
    (Session.tight.feed .bare malformedBytes).2.connection.outbound.bytes = [] :=
  ⟨rfl, rfl, feed_malformedBytes rfl rfl, by decide +kernel⟩

/-- With the default limits it is. -/
theorem reported_of_violates_sample : ∃ t target,
    Operation.Meets .bare Session.bare (.feed malformedBytes) t (.wire (.malformedHeader 7)) target ∧
      (Session.bare.feed .bare malformedBytes).2.connection.outbound.bytes =
        t.connection.outbound.bytes ++ report 4096 (.wire (.malformedHeader 7)) target :=
  reported_of_violates Session.new_bare rfl rfl []
    (show (Session.bare.feed .bare malformedBytes).1 = _ from feed_malformedBytes rfl rfl)

end Compositor.Sessions
