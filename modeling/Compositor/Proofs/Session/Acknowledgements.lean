import Compositor.Proofs.Object.Consistency
import Compositor.Proofs.Session.Lifetimes

/-
  No client id is lost.

  A deletion of a client id waits for its acknowledgement until the bytes that announce it are handed over.
  The connection writes down which ones they are.  `Accounted` says that this list is right: it names every
  id that waits, no other, and none twice.  Every action keeps it so (`Accounted.apply`), whatever handlers
  do: only the removal of an object makes an id wait, and it is announced on the spot, since the limit of the
  queue has room for any announcement.

  Handing over the queue acknowledges the list.  Then no id waits (`Accounted.none_waits`), so that all client
  ids but those of live objects can be used again (`client_ids_free_of_drained`).
-/

namespace Compositor.Sessions

open Compositor.Wire (ObjectId Outbox)
open Compositor.Objects (Handle Object Table)
open Compositor.Protocol

/-! ## The list of announced deletions -/

/-- The ids whose deletion is announced in the queue are those that wait for an acknowledgement. -/
structure Accounted {K : Kit} (capacity : Nat) (c : Connection K) : Prop where
  room : 12 ≤ c.outbound.limit
  capacity_eq : c.table.capacity = capacity
  consistent : c.table.Consistent
  nodup : c.pendingAcks.Nodup
  mem_iff : ∀ id, id ∈ c.pendingAcks ↔ c.table.slot id = some (.stale false)

namespace Accounted

section
variable {K : Kit} {capacity : Nat} {c c' : Connection K}

/-- What neither announces a deletion nor makes an id wait keeps the list right. -/
theorem step (h : Accounted capacity c) (hlimit : c'.outbound.limit = c.outbound.limit)
    (hpending : c'.pendingAcks = c.pendingAcks) (hcapacity : c'.table.capacity = c.table.capacity)
    (hconsistent : c'.table.Consistent)
    (hwaits : ∀ id, c'.table.slot id = some (.stale false) ↔ c.table.slot id = some (.stale false)) :
    Accounted capacity c' := by
  refine ⟨?_, hcapacity.trans h.capacity_eq, hconsistent, ?_, fun id => ?_⟩
  · rw [hlimit]
    exact h.room
  · rw [hpending]
    exact h.nodup
  · rw [hpending, hwaits]
    exact h.mem_iff id

/-- What leaves the table alone does. -/
theorem of_eq (h : Accounted capacity c) (hlimit : c'.outbound.limit = c.outbound.limit)
    (hpending : c'.pendingAcks = c.pendingAcks) (htable : c'.table = c.table) :
    Accounted capacity c' := by
  refine h.step hlimit hpending (congrArg (·.capacity) htable) ?_ fun id => ?_
  · rw [htable]
    exact h.consistent
  · rw [htable]

/-- Installing or taking out an implementation makes no id wait. -/
theorem modify (h : Accounted capacity c) (id : ObjectId)
    (implementation : Option (Implementation K.Handler)) :
    Accounted capacity { c with table := c.table.modify id fun o => { o with implementation } } :=
  h.step rfl rfl (Table.modify_keeps c.table id _).2.2 (h.consistent.modify id _)
    (Table.waits_modify c.table id _)

/-- Nor does an insertion. -/
theorem insert (h : Accounted capacity c) {side : Wire.Side} {id : ObjectId}
    {o : Object (Implementation K.Handler)} {handle : Handle}
    {table : Table (Implementation K.Handler)}
    (hinsert : c.table.insert side id o = .ok (handle, table)) : Accounted capacity { c with table } := by
  have hcapacity : table.capacity = c.table.capacity := by
    obtain ⟨-, -, rfl⟩ := Table.insert_eq_ok_iff.1 hinsert
    rfl
  exact h.step rfl rfl hcapacity (h.consistent.insert hinsert) (Table.waits_insert hinsert)

/-- A removed id is announced if it waits, and only then. -/
theorem announced (h : Accounted capacity c) {id : ObjectId} {o : Object (Implementation K.Handler)}
    {table : Table (Implementation K.Handler)} (hremove : c.table.remove id = .ok (o, table)) :
    Accounted capacity (Connection.announced { c with table } id) := by
  obtain ⟨hlive, htable⟩ := Table.remove_eq_ok_iff.1 hremove
  have hcapacity : table.capacity = capacity := by
    rw [htable]
    exact h.capacity_eq
  have hconsistent : table.Consistent := h.consistent.remove hremove
  have hwaits := Table.waits_remove h.consistent.tidy hremove
  unfold Connection.announced
  by_cases hside : id.side = .client
  · rw [if_pos hside]
    -- the id was live until now, so it is not on the list yet
    have hnew : id ∉ c.pendingAcks := by
      intro hmem
      have hslot := (h.mem_iff id).1 hmem
      rw [hlive] at hslot
      cases hslot
    refine ⟨h.room, hcapacity, hconsistent, ?_, fun other => ?_⟩
    · show (c.pendingAcks ++ [id]).Nodup
      rw [List.nodup_append]
      refine ⟨h.nodup, List.pairwise_singleton _ id, fun a ha b hb heq => ?_⟩
      rw [heq, List.mem_singleton.1 hb] at ha
      exact hnew ha
    · show other ∈ c.pendingAcks ++ [id] ↔ table.slot other = some (.stale false)
      rw [hwaits, List.mem_append, List.mem_singleton, h.mem_iff]
      constructor
      · rintro (hslot | hid)
        · exact .inr hslot
        · exact .inl ⟨hid, hside⟩
      · rintro (⟨hid, -⟩ | hslot)
        · exact .inr hid
        · exact .inl hslot
  · rw [if_neg hside]
    refine ⟨h.room, hcapacity, hconsistent, h.nodup, fun other => ?_⟩
    show other ∈ c.pendingAcks ↔ table.slot other = some (.stale false)
    rw [hwaits, h.mem_iff]
    constructor
    · exact .inr
    · rintro (⟨-, hclient⟩ | hslot)
      · exact absurd hclient hside
      · exact hslot

/-- Handing over the queue acknowledges all that are on the list, hence all that wait. -/
theorem none_waits (h : Accounted capacity c) (id : ObjectId) :
    c.takeOutbound.2.table.slot id ≠ some (.stale false) := by
  intro hslot
  obtain ⟨-, -, hwaits⟩ := h.consistent.acknowledgeAll c.pendingAcks
  obtain ⟨hlisted, hwaited⟩ := (hwaits id).1 hslot
  exact hlisted ((h.mem_iff id).2 hwaited)

/-- The list is empty then. -/
theorem drain (h : Accounted capacity c) : Accounted capacity c.takeOutbound.2 := by
  obtain ⟨hconsistent, hcapacity, -⟩ := h.consistent.acknowledgeAll c.pendingAcks
  refine ⟨h.room, hcapacity.trans h.capacity_eq, hconsistent, List.nodup_nil, fun id => ?_⟩
  constructor
  · nofun
  · intro hslot
    exact absurd hslot (h.none_waits id)

end

section
variable {app : Application} {capacity : Nat} {c : Connection app.toKit}

theorem destroy (h : Accounted capacity c) (id : ObjectId) :
    Accounted capacity (c.destroy app id).2 := by
  rcases Connection.destroy_cases app h.room id with ⟨e, heq⟩ | ⟨o, table, -, -, hremove, heq⟩
  · rw [heq]
    exact h
  · rw [heq]
    exact (h.announced hremove).of_eq rfl rfl rfl

/-- A connection that stops has neither objects nor markers. -/
theorem close (h : Accounted capacity c) : Accounted capacity (c.close app) := by
  unfold Connection.close
  split
  · refine ⟨h.room, h.capacity_eq, h.consistent.drain, List.nodup_nil, fun id => ?_⟩
    constructor
    · nofun
    · nofun
  · exact h

/-- However an action turns out, the list stays right. -/
theorem outcome {a : Action app.toKit} {c' : Connection app.toKit} {hs : List Happening}
    (h : Accounted capacity c) (houtcome : a.Outcome app c c' hs) : Accounted capacity c' := by
  cases houtcome with
  | aside => exact h.of_eq rfl rfl rfl
  | queued _ => exact h.of_eq rfl rfl rfl
  | destroyed => exact h.destroy _
  | created _ _ hinsert => exact h.insert hinsert
  | inserted _ _ hinsert => exact h.insert hinsert
  | bound _ _ => exact h.modify _ _
  | taken _ => exact h.modify _ _
  | returned _ _ => exact h.modify _ _
  | withdrawn => exact h.of_eq rfl rfl rfl
  | closed => exact h.close
  | drained => exact h.drain
  | fdsDrained => exact h.of_eq rfl rfl rfl

/-- Every action keeps the list right. -/
theorem apply (a : Action app.toKit) (c : Connection app.toKit) (h : Accounted capacity c) :
    Accounted capacity (a.apply app c) := h.outcome (a.outcome c)

/-- In a new session nothing waits. -/
theorem new {client : Nat} {registry : Registry} {globals : Globals app.Binder} {limits : Limits}
    {world : app.World} {s : Session app.toKit}
    (hnew : Session.new client registry globals limits world = .ok s)
    (hroom : 12 ≤ limits.maxMessageSize) : Accounted limits.staleIdCapacity s.connection := by
  obtain ⟨i, handle, table, -, hinsert, rfl⟩ := Session.exists_of_new hnew
  have hlimit : 12 ≤ min limits.maxMessageSize Wire.maxMessageSize := by
    unfold Wire.maxMessageSize
    omega
  -- the same connection, before it has its display
  let c : Connection app.toKit :=
    { client, registry, globals, table := .empty limits.staleIdCapacity
      outbound := Outbox.withLimit limits.maxMessageSize, world }
  have hempty : Accounted limits.staleIdCapacity c :=
    ⟨hlimit, rfl, Table.consistent_empty _, List.nodup_nil, fun id => ⟨nofun, nofun⟩⟩
  exact hempty.insert hinsert

end

end Accounted

/-! ## After the queue is handed over -/

/-- In every run of a session, once its output is taken no id waits for an acknowledgement, the markers are
within the capacity, and every client id that is not live can be used for a new object. -/
theorem client_ids_free_of_drained {app : Application} {client : Nat} {registry : Registry}
    {globals : Globals app.Binder} {limits : Limits} {world : app.World} {s : Session app.toKit}
    (hnew : Session.new client registry globals limits world = .ok s)
    (hroom : 12 ≤ limits.maxMessageSize) (ops : List (Operation app.toKit)) :
    let t := ((s.performAll app ops).drainOutbound app).2.connection.table
    (∀ id, t.slot id ≠ some (.stale false)) ∧ t.staleSize ≤ limits.staleIdCapacity ∧
      ∀ id, id.side = .client → t.contains id = false →
        ∀ o, ∃ h t', t.insert .client id o = .ok (h, t') := by
  intro t
  have hrun : Accounted limits.staleIdCapacity (s.performAll app ops).connection :=
    Session.performAll_preserves Accounted.apply ops (Accounted.new hnew hroom)
  have hnone : ∀ id, t.slot id ≠ some (.stale false) := hrun.none_waits
  have hsize : t.staleSize ≤ t.capacity := hrun.drain.consistent.staleSize_le hnone
  have hcapacity : t.capacity = limits.staleIdCapacity := hrun.drain.capacity_eq
  refine ⟨hnone, ?_, fun id hside hfree o => ?_⟩
  · rw [← hcapacity]
    exact hsize
  · exact Table.insert_of_not_waiting hside hfree (hnone id) o

/-- A client that has asked for two round trips with the same id can use it a third time. -/
theorem client_ids_free_of_drained_sample :
    let t := ((Session.bare.performAll .bare sampleRun).drainOutbound .bare).2.connection.table
    t.contains sampleId = false ∧ t.slot sampleId ≠ some (.stale false) ∧ t.staleSize ≤ 1024 ∧
      ∃ h t', t.insert .client sampleId { interface := Core.callback, version := 1 } = .ok (h, t') := by
  intro t
  have hfree : t.contains sampleId = false := rfl
  obtain ⟨hnone, hsize, hinsert⟩ := client_ids_free_of_drained Session.new_bare (by decide) sampleRun
  exact ⟨hfree, hnone sampleId, hsize, hinsert sampleId rfl hfree _⟩

end Compositor.Sessions
