import Compositor.Proofs.Session.Posting
import Compositor.Proofs.Session.Registries

/-
  Withdrawing a global, all or nothing.

  A withdrawal takes the global from the list first and then tells the registries one by one, up to the first
  that cannot be told.  A registry can be told if twelve bytes fit a message (`withdraw_of_room`), so in most
  sessions the global goes and all registries hear of it, or nothing happens because there is no such global
  (`WithdrawsWhole`).  The smallest limits that a session can work with have no room for the event
  (`CannotTell`).  There the very first registry cannot be told, but the global is gone: the withdrawal is refused
  and cannot be made again (`WithdrawsHalfway`).

  `withdraws_of_new` says which of the two it is for the whole life of a session.
-/

namespace Compositor.Sessions

open Compositor.Wire (ObjectId Outbox)
open Compositor.Objects (Object)
open Compositor.Protocol

/-! ## The list of globals -/

namespace Globals

section
variable {β : Type} {gs gs' : Globals β} {g : Global β} {name : UInt32}

/-- The globals `gs'` are `gs` without the first global of a name; all others are there in order. -/
structure Without (gs : Globals β) (name : UInt32) (g : Global β) (gs' : Globals β) : Prop where
  name_eq : g.name = name
  entries : ∃ before after, gs.entries = before ++ g :: after ∧ (∀ other ∈ before, other.name ≠ name) ∧
    gs'.entries = before ++ after
  lastName_eq : gs'.lastName = gs.lastName

theorem remove?_eq_none_iff : gs.remove? name = none ↔ ∀ g ∈ gs.entries, g.name ≠ name := by
  have hget : gs.get? name = none ↔ ∀ g ∈ gs.entries, g.name ≠ name := by
    unfold get?
    simp only [List.find?_eq_none, beq_iff_eq, ne_eq]
  rw [← hget]
  unfold remove?
  cases gs.get? name with
  | none => simp
  | some g => simp

theorem without_of_remove? (h : gs.remove? name = some (g, gs')) : gs.Without name g gs' := by
  unfold remove? at h
  split at h
  · rename_i hget
    injection h with h
    injection h with hg hgs
    subst hg hgs
    obtain ⟨hname, before, after, hentries, hbefore⟩ := List.find?_eq_some_iff_append.1 hget
    have hothers : ∀ other ∈ before, other.name ≠ name := by
      intro other hmem heq
      have hnot := hbefore other hmem
      rw [heq, beq_self_eq_true] at hnot
      cases hnot
    refine ⟨eq_of_beq hname, ⟨before, after, hentries, hothers, ?_⟩, rfl⟩
    show gs.entries.eraseP _ = _
    rw [hentries, List.eraseP_append_right _ fun other hmem heq => hothers other hmem (eq_of_beq heq),
      List.eraseP_cons, hname, cond_true]
  · cases h

end

end Globals

/-! ## Telling registries -/

namespace Connection

section
variable {app : Application} {c : Connection app.toKit} {id : ObjectId}

/-- The queue with the withdrawal of a global for each of some registries. -/
def tell (name : UInt32) (ids : List ObjectId) (queue : Outbox) : Outbox :=
  ids.foldl (fun queue id => queue.append (withdrawal id name)) queue

theorem bytes_tell (name : UInt32) (ids : List ObjectId) : ∀ queue : Outbox,
    (tell name ids queue).bytes = queue.bytes ++ ids.flatMap fun id => (withdrawal id name).frame := by
  induction ids with
  | nil =>
    intro queue
    exact (List.append_nil _).symm
  | cons id ids ih =>
    intro queue
    rw [tell, List.foldl_cons, ← tell, ih, Outbox.bytes_append, List.flatMap_cons, List.append_assoc]

theorem fds_tell (name : UInt32) (ids : List ObjectId) : ∀ queue : Outbox,
    (tell name ids queue).fds = queue.fds := by
  induction ids with
  | nil => exact fun _ => rfl
  | cons id ids ih =>
    intro queue
    rw [tell, List.foldl_cons, ← tell, ih, Outbox.fds_append]
    exact List.append_nil _

theorem size_withdrawal (id : ObjectId) (name : UInt32) : (withdrawal id name).size = 12 := rfl

/-- A registry that listens can be told, where the event has room. -/
theorem Listens.post_withdrawal (h : c.Listens id) (hroom : 12 ≤ c.outbound.limit) (name : UInt32) :
    c.post app id Core.globalRemoveOpcode [.uint name] =
      (.ok (), { c with outbound := c.outbound.append (withdrawal id name) }) := by
  obtain ⟨o, hget, hinterface, hversion⟩ := h.live
  have hpostable : c.Postable c.outbound.limit (withdrawal id name) o globalRemoveMethod := by
    refine ⟨hget, ?_, UInt32.not_lt.1 hversion, rfl, ?_⟩
    · rw [hinterface]
      rfl
    · rw [size_withdrawal]
      exact hroom
  exact hpostable.post_eq h.isOpen

/-- Where it has none, the registry cannot be told. -/
theorem Listens.post_withdrawal_of_small (h : c.Listens id) (hsmall : c.outbound.limit < 12) (name : UInt32) :
    c.post app id Core.globalRemoveOpcode [.uint name] =
      (.error (.wire (.messageTooLarge 12 c.outbound.limit)), c) := by
  obtain ⟨o, hget, hinterface, hversion⟩ := h.live
  have hmethod : o.interface.method? .event Core.globalRemoveOpcode = some globalRemoveMethod := by
    rw [hinterface]
    rfl
  have hpush := (Outbox.push_eq_error_iff c.outbound (withdrawal id name) _).2 (if_pos hsmall)
  have hencode := encodeEvent_of_push_eq_error h.isOpen hget hmethod hversion rfl hpush
  rw [post, hencode]
  rfl

/-- Where the event has room, or there is nobody to tell, all registries are told. -/
theorem withdraw_of_room (name : UInt32) (ids : List ObjectId) : ∀ {c : Connection app.toKit},
    (∀ id ∈ ids, c.Listens id) → (ids ≠ [] → 12 ≤ c.outbound.limit) →
      withdraw app name ids c = (.ok (), { c with outbound := tell name ids c.outbound }) := by
  induction ids with
  | nil => exact fun _ _ => rfl
  | cons id ids ih =>
    intro c hlisten hroom
    rw [List.forall_mem_cons] at hlisten
    have hfits := hroom (List.cons_ne_nil _ _)
    have hrest := ih (c := { c with outbound := c.outbound.append (withdrawal id name) })
      (fun other hmem => (hlisten.2 other hmem).append _) fun _ => hfits
    rw [withdraw, hlisten.1.post_withdrawal hfits]
    exact hrest

/-- Where it has none, not even the first one is. -/
theorem withdraw_of_small (name : UInt32) {ids : List ObjectId} (hlisten : ∀ id ∈ ids, c.Listens id)
    (hne : ids ≠ []) (hsmall : c.outbound.limit < 12) :
    withdraw app name ids c = (.error (.wire (.messageTooLarge 12 c.outbound.limit)), c) := by
  cases ids with
  | nil => exact absurd rfl hne
  | cons id ids => rw [withdraw, (hlisten id (List.mem_cons_self ..)).post_withdrawal_of_small hsmall]

/-! ## Withdrawing -/

theorem removeGlobal_of_unlisted (hopen : c.isOpen) {name : UInt32}
    (h : ∀ g ∈ c.globals.entries, g.name ≠ name) : c.removeGlobal app name = (.ok false, c) := by
  unfold removeGlobal
  rw [requireOpen_eq_ok_iff.2 hopen]
  dsimp only
  rw [Globals.remove?_eq_none_iff.2 h]

/-- A global that is listed leaves the list, and what comes then is up to the registries. -/
theorem removeGlobal_of_listed (app : Application) {c : Connection app.toKit} (hopen : c.isOpen) {name : UInt32}
    (h : ∃ g ∈ c.globals.entries, g.name = name) : ∃ g globals, c.globals.Without name g globals ∧
      ∀ result c', withdraw app name (c.registryIds app) { c with globals } = (result, c') →
        c.removeGlobal app name = (result.map fun _ => true, c') := by
  cases hremove : c.globals.remove? name with
  | none =>
    obtain ⟨g, hmem, hname⟩ := h
    exact absurd hname (Globals.remove?_eq_none_iff.1 hremove g hmem)
  | some p =>
    obtain ⟨g, globals⟩ := p
    refine ⟨g, globals, Globals.without_of_remove? hremove, ?_⟩
    intro result c' hwithdraw
    unfold removeGlobal
    rw [requireOpen_eq_ok_iff.2 hopen]
    dsimp only
    rw [hremove]
    dsimp only
    rw [hwithdraw]
    cases result with
    | error e => rfl
    | ok _ => rfl

end

end Connection

/-! ## Outcomes -/

namespace Session

/-- A global that cannot be withdrawn from a session as a whole: it is listed, there is a registry to tell, and
messages have no room for that. -/
structure CannotTell {K : Kit} (limit : Nat) (s : Session K) (name : UInt32) : Prop where
  listed : ∃ g ∈ s.connection.globals.entries, g.name = name
  registry : ∃ id o, s.connection.table.get id = .ok o ∧ o.interface.name = Core.registryName
  small : limit < 12

section
variable (app : Application)

/-- What is different when a global has been withdrawn. -/
structure Withdrawn (s : Session app.toKit) (name : UInt32) (s' : Session app.toKit) : Prop where
  /-- It is gone from the list, and nothing else. -/
  globals : ∃ g, s.connection.globals.Without name g s'.connection.globals
  /-- Every registry was sent one event, in ascending order of their ids. -/
  bytes : s'.connection.outbound.bytes = s.connection.outbound.bytes ++
    (s.connection.registryIds app).flatMap fun id => (withdrawal id name).frame
  fds : s'.connection.outbound.fds = s.connection.outbound.fds
  others : s' = { s with connection := { s.connection with
    globals := s'.connection.globals, outbound := s'.connection.outbound } }

/-- A withdrawal is done as a whole, or there is nothing to withdraw, and then the session is as before. -/
inductive WithdrawsWhole (s : Session app.toKit) (name : UInt32) : Prop where
  | listed {s' : Session app.toKit} : (∃ g ∈ s.connection.globals.entries, g.name = name) →
      s.removeGlobal app name = (.ok true, s') → Withdrawn app s name s' → WithdrawsWhole s name
  | unlisted : (∀ g ∈ s.connection.globals.entries, g.name ≠ name) →
      s.removeGlobal app name = (.ok false, s) → WithdrawsWhole s name

/-- A withdrawal that stops halfway: it is refused, no registry is told, and yet the global is gone. -/
def WithdrawsHalfway (limit : Nat) (s : Session app.toKit) (name : UInt32) : Prop :=
  ∃ g globals, s.connection.globals.Without name g globals ∧ s.removeGlobal app name =
    (.error (.wire (.messageTooLarge 12 limit)), { s with connection := { s.connection with globals } })

/-- What comes of withdrawing a global from an open session with messages of a limited size. -/
structure Withdraws (limit : Nat) (s : Session app.toKit) (name : UInt32) : Prop where
  /-- The registries that are told are the live ones, in ascending order, each of them once. -/
  ascending : (s.connection.registryIds app).Pairwise fun a b => a.toNat < b.toNat
  registries : ∀ id, id ∈ s.connection.registryIds app ↔
    ∃ o, s.connection.table.get id = .ok o ∧ o.interface.name = Core.registryName
  whole : ¬ s.CannotTell limit name → s.WithdrawsWhole app name
  halfway : s.CannotTell limit name → s.WithdrawsHalfway app limit name

end

section
variable {app : Application} {s : Session app.toKit} {registry : Registry}

theorem removeGlobal_of_connection {name : UInt32} {result : Except Refusal Bool} {c : Connection app.toKit}
    (h : s.connection.removeGlobal app name = (result, c)) :
    s.removeGlobal app name = (result, { s with connection := c }) := by
  unfold removeGlobal onConnection
  dsimp only
  rw [h]

/-- What a withdrawal comes to where all registries listen. -/
theorem withdraws_of_typed (hs : Typed registry s.connection) (hascending : s.connection.table.objects.Ascending)
    (hcore : registry.get? Core.registryName = some Core.registry) (hopen : s.connection.isOpen)
    (name : UInt32) : s.Withdraws app s.connection.outbound.limit name := by
  have hregistries : ∀ id, id ∈ s.connection.registryIds app ↔
      ∃ o, s.connection.table.get id = .ok o ∧ o.interface.name = Core.registryName := by
    intro id
    rw [Connection.mem_registryIds_iff hascending]
    simp only [Objects.Table.get_eq_ok_iff_get?]
  have hlisten : ∀ id ∈ s.connection.registryIds app, s.connection.Listens id := by
    intro id hid
    obtain ⟨o, hlive, hname⟩ := (Connection.mem_registryIds_iff hascending).1 hid
    exact hs.listens hcore hopen hlive hname
  -- the first step of a withdrawal leaves the registries alone
  have hlisten' : ∀ globals, ∀ id ∈ s.connection.registryIds app,
      Connection.Listens { s.connection with globals } id :=
    fun globals id hid => ⟨(hlisten id hid).isOpen, (hlisten id hid).live⟩
  refine ⟨?_, hregistries, fun htell => ?_, fun hcannot => ?_⟩
  · have hsorted : (s.connection.table.objects.map (·.1)).Pairwise fun a b => a.toNat < b.toNat :=
      List.pairwise_map.2 hascending
    exact hsorted.sublist (List.filter_sublist.map _)
  · by_cases hlisted : ∃ g ∈ s.connection.globals.entries, g.name = name
    · obtain ⟨g, globals, hwithout, hremove⟩ := Connection.removeGlobal_of_listed app hopen hlisted
      have hroom : s.connection.registryIds app ≠ [] → 12 ≤ s.connection.outbound.limit := by
        intro hne
        obtain ⟨id, hid⟩ := List.exists_mem_of_ne_nil _ hne
        exact Nat.le_of_not_lt fun hsmall => htell ⟨hlisted, ⟨id, (hregistries id).1 hid⟩, hsmall⟩
      have hwithdraw := Connection.withdraw_of_room (c := { s.connection with globals }) name _
        (hlisten' globals) hroom
      exact .listed hlisted (removeGlobal_of_connection (hremove _ _ hwithdraw))
        ⟨⟨g, hwithout⟩, Connection.bytes_tell name _ _, Connection.fds_tell name _ _, rfl⟩
    · have hunlisted : ∀ g ∈ s.connection.globals.entries, g.name ≠ name :=
        fun g hmem heq => hlisted ⟨g, hmem, heq⟩
      exact .unlisted hunlisted
        (removeGlobal_of_connection (Connection.removeGlobal_of_unlisted hopen hunlisted))
  · obtain ⟨g, globals, hwithout, hremove⟩ := Connection.removeGlobal_of_listed app hopen hcannot.listed
    obtain ⟨id, hlive⟩ := hcannot.registry
    have hne : s.connection.registryIds app ≠ [] := List.ne_nil_of_mem ((hregistries id).2 hlive)
    have hwithdraw := Connection.withdraw_of_small (c := { s.connection with globals }) name (hlisten' globals) hne
      hcannot.small
    exact ⟨g, globals, hwithout, removeGlobal_of_connection (hremove _ _ hwithdraw)⟩

end

end Session

/-! ## The whole life of a session -/

section
variable {app : Application}

/-- In every run: while the session is open, withdrawing whatever name is all or nothing, unless there is a
registry to tell and the limit of the session has no room for that. -/
theorem withdraws_of_new {client : Nat} {registry : Registry} {globals : Globals app.Binder} {limits : Limits}
    {world : app.World} {s : Session app.toKit}
    (hcore : registry.get? Core.registryName = some Core.registry)
    (hnew : Session.new client registry globals limits world = .ok s) (hlimits : limits.check = .ok ())
    (ops : List (Operation app.toKit)) (hopen : (s.performAll app ops).state = .open) (name : UInt32) :
    (s.performAll app ops).Withdraws app limits.maxMessageSize name := by
  have hlimit : s.connection.outbound.limit = limits.maxMessageSize :=
    (Session.limit_of_new hnew).trans
      (Nat.min_eq_left ((Limits.check_eq_ok_iff limits).1 hlimits).message_le)
  have hascending : s.connection.table.objects.Ascending := by
    obtain ⟨_, _, _, -, hinsert, rfl⟩ := Session.exists_of_new hnew
    exact Objects.Table.ascending_insert (t := Objects.Table.empty limits.staleIdCapacity) List.Pairwise.nil hinsert
  have hkeeps : ∀ (a : Action app.toKit) c,
      Typed registry c ∧ c.table.objects.Ascending ∧ c.outbound.limit = limits.maxMessageSize →
        Typed registry (a.apply app c) ∧ (a.apply app c).table.objects.Ascending ∧
          (a.apply app c).outbound.limit = limits.maxMessageSize := fun a c h =>
    ⟨h.1.apply a c, (a.effect c).ascending h.2.1, (a.keeps c).limit_eq.trans h.2.2⟩
  obtain ⟨htyped, hsorted, hkept⟩ :=
    Session.performAll_preserves hkeeps ops ⟨Typed.new hnew, hascending, hlimit⟩
  rw [← hkept]
  exact Session.withdraws_of_typed htyped hsorted hcore (isOpen_iff.2 hopen) name

end

/-! ## A withdrawal that stops halfway -/

/-- A session with a seat and a screen under the smallest limits, as it is opened. -/
def Session.cramped : Session Application.offering.toKit :=
  { Session.offering with
    limits := tightLimits
    connection := { Session.offering.connection with outbound := Outbox.withLimit 8 } }

/-- The host makes a registry there itself. -/
def lonelyRun : List (Operation Application.offering.toKit) := [.createObject Core.registryName 1]

/-- Withdrawing the seat then is refused and tells nobody, and yet the seat is gone: asked again, the session
knows of no such global. -/
theorem withdrawn_halfway_sample : tightLimits.check = .ok () ∧
    Session.new 0 .core offeredGlobals tightLimits () = .ok Session.cramped ∧
      (Session.cramped.performAll .offering lonelyRun).state = .open ∧
        (Session.cramped.performAll .offering lonelyRun).connection.globals.offers =
          [⟨1, "seat", 3⟩, ⟨2, "screen", 1⟩] ∧
        ((Session.cramped.performAll .offering lonelyRun).removeGlobal .offering 1).1 =
          .error (.wire (.messageTooLarge 12 8)) ∧
        ((Session.cramped.performAll .offering lonelyRun).removeGlobal .offering 1).2.connection.globals.offers =
          [⟨2, "screen", 1⟩] ∧
        ((Session.cramped.performAll .offering lonelyRun).removeGlobal .offering 1).2.connection.outbound.bytes =
          [] ∧
        (((Session.cramped.performAll .offering lonelyRun).removeGlobal .offering 1).2.removeGlobal
          .offering 1).1 = .ok false :=
  ⟨rfl, rfl, rfl, by decide +kernel, rfl, by decide +kernel, by decide +kernel, rfl⟩

/-- Both sessions, the one with the smallest limits and the one with the default ones. -/
theorem withdraws_of_new_sample : tightLimits.check = .ok () ∧
    (Session.cramped.performAll .offering lonelyRun).Withdraws .offering 8 1 ∧
      ({} : Limits).check = .ok () ∧
        (Session.offering.performAll .offering lonelyRun).Withdraws .offering 4096 1 := by
  have htight : Session.new 0 .core offeredGlobals tightLimits () = .ok Session.cramped := rfl
  have hroomy : Session.new 0 .core offeredGlobals {} () = .ok Session.offering := rfl
  exact ⟨rfl, withdraws_of_new rfl htight rfl lonelyRun rfl 1, rfl,
    withdraws_of_new rfl hroomy rfl lonelyRun rfl 1⟩

end Compositor.Sessions
