import Compositor.Proofs.Session.Offers
import Compositor.Proofs.Session.Scripts
import Compositor.Proofs.Session.Typing
import Compositor.Proofs.Wire.Reading

/-
  The announcements of globals, and their withdrawals.

  A global that fits the messages of a session (`Offer.Fits`) can be announced to every live registry, and be
  withdrawn again: no registry is skipped and no loop over globals or registries breaks off.  What the loops
  queue is heard by the client of each registry (`Informed.advertise`, `Informed.withdraw`).

  Of the connection this takes what no action changes (`Provisioned`): the types of its objects, the limit of
  its queue, the order of its directory, and that all globals fit.
-/

namespace Compositor.Sessions

open Compositor.Wire (Arg Message ObjectId Outbox)
open Compositor.Objects (Handle Object Table)
open Compositor.Protocol

/-! ## Globals that fit -/

/-- The event that announces a global can be sent under a limit. -/
structure Offer.Fits (limit : Nat) (g : Offer) : Prop where
  text : Wire.hasNul g.interface = false
  size : (announcement .display g).size ≤ limit

theorem Offer.size_announcement (id : ObjectId) (g : Offer) :
    (announcement id g).size = 20 + Wire.padded (g.interface.utf8ByteSize + 1) := by
  show Wire.headerSize + (4 + (4 + Wire.padded _ + (4 + 0))) = _
  unfold Wire.headerSize
  omega

theorem Offer.Fits.fault? {limit : Nat} {g : Offer} (h : g.Fits limit) (id : ObjectId) :
    (announcement id g).fault? limit = none := by
  have hsize := h.size
  rw [size_announcement] at hsize
  have htext : Wire.textFault? limit 1 g.interface = none :=
    (Wire.textFault?_eq_none_iff limit 1 g.interface).2 ⟨h.text, by omega⟩
  have hargs : Wire.argFaultFrom limit 0 (announcement id g).args = none := by
    simp only [announcement, Wire.argFaultFrom, Arg.fault?, htext]
  unfold Message.fault?
  rw [hargs]
  dsimp only
  rw [size_announcement, if_neg (by omega)]

/-- Where a global can be announced, any can be withdrawn: the one event is larger than the other. -/
theorem Offer.Fits.fault?_withdrawal {limit : Nat} {g : Offer} (h : g.Fits limit) (id : ObjectId)
    (name : UInt32) : (withdrawal id name).fault? limit = none := by
  have hsize := h.size
  rw [size_announcement] at hsize
  have hwithdrawal : (withdrawal id name).size = 12 := rfl
  show (if limit < (withdrawal id name).size then _ else none) = none
  rw [hwithdrawal, if_neg (by omega)]

/-! ## Registries that listen -/

/-- The event `wl_registry.global`. -/
def globalMethod : Method :=
  { name := "global"
    signature := ⟨[{ name := "name", kind := .uint }, { name := "interface", kind := .string },
      { name := "version", kind := .uint }]⟩ }

/-- The event `wl_registry.global_remove`. -/
def globalRemoveMethod : Method :=
  { name := "global_remove", signature := ⟨[{ name := "name", kind := .uint }]⟩ }

theorem check_announcement (id : ObjectId) {g : Offer} (htext : Wire.hasNul g.interface = false) :
    globalMethod.signature.check (announcement id g).args = .ok () := by
  refine (Wire.Signature.check_eq_ok_iff _ _).2
    (.cons ⟨rfl, nofun, nofun⟩ (.cons ⟨rfl, nofun, fun s hs => ?_⟩ (.cons ⟨rfl, nofun, nofun⟩ .nil)))
  injection hs with hs
  rw [← hs]
  exact htext

namespace Connection

/-- A live registry of an open connection, which has all events of the core definition. -/
structure Listens {K : Kit} (c : Connection K) (id : ObjectId) : Prop where
  isOpen : c.isOpen
  live : ∃ o, c.table.get id = .ok o ∧ o.interface = Core.registry ∧ ¬ o.version < 1

section
variable {K : Kit} {c : Connection K} {id : ObjectId}

theorem Listens.append (h : c.Listens id) (outbound : Outbox) : Listens { c with outbound } id :=
  ⟨h.isOpen, h.live⟩

theorem Listens.encodeEvent_announcement (h : c.Listens id) {g : Offer} (hfits : g.Fits c.outbound.limit) :
    c.encodeEvent (announcement id g).object (announcement id g).opcode (announcement id g).args =
      .ok (globalMethod, c.outbound.append (announcement id g)) := by
  obtain ⟨o, hget, hinterface, hversion⟩ := h.live
  refine encodeEvent_eq_ok_iff.2 ⟨h.isOpen, o, hget, ?_, hversion, check_announcement id hfits.text,
    (Outbox.push_eq_ok_iff _ _ _).2 ⟨hfits.fault? id, rfl⟩⟩
  rw [hinterface]
  rfl

theorem Listens.encodeEvent_withdrawal (h : c.Listens id) {g : Offer} (hfits : g.Fits c.outbound.limit)
    (name : UInt32) : c.encodeEvent (withdrawal id name).object (withdrawal id name).opcode
      (withdrawal id name).args = .ok (globalRemoveMethod, c.outbound.append (withdrawal id name)) := by
  obtain ⟨o, hget, hinterface, hversion⟩ := h.live
  refine encodeEvent_eq_ok_iff.2 ⟨h.isOpen, o, hget, ?_, hversion, rfl,
    (Outbox.push_eq_ok_iff _ _ _).2 ⟨hfits.fault?_withdrawal id name, rfl⟩⟩
  rw [hinterface]
  rfl

end

end Connection

/-! ## The loops -/

section
variable {app : Application} {limit : Nat} {h : Handle} {c : Connection app.toKit} {ms : List Message}
  {offers : List Offer}

/-- The actions of announcing globals to a registry. -/
def advertiseActions {K : Kit} (id : ObjectId) (gs : List (Global K.Binder)) : List (Action K) :=
  gs.map fun g => .send (announcement id g.offer)

/-- All globals are announced. -/
theorem does_advertise {owner id : ObjectId} (gs : List (Global app.Binder)) :
    ∀ {c : Connection app.toKit}, c.Listens id → (∀ g ∈ gs, g.offer.Fits c.outbound.limit) →
      ∃ c', (advertise id gs : Script app.toKit Unit).run.Does owner c (advertiseActions id gs)
        (.ok ()) c' := by
  induction gs with
  | nil => exact fun _ _ => ⟨_, Script.does_pure () _⟩
  | cons g gs ih =>
    intro c hlistens hfits
    rw [List.forall_mem_cons] at hfits
    have hencode := hlistens.encodeEvent_announcement hfits.1
    obtain ⟨c', hrest⟩ := ih (hlistens.append (c.outbound.append (announcement id g.offer))) hfits.2
    exact ⟨c', Script.does_bind (Script.does_post hencode rfl) hrest⟩

/-- The client of the registry hears them. -/
theorem Informed.advertise (gs : List (Global app.Binder)) :
    ∀ {c : Connection app.toKit} {ms : List Message} {offers : List Offer}, Informed h offers ms c →
      c.Listens h.id → (∀ g ∈ gs, g.offer.Fits c.outbound.limit) →
        Informed h (offers ++ gs.map Global.offer)
          ((happenings app (advertiseActions h.id gs) c).foldl (Happening.note h.id) ms)
          (Sessions.replay app (advertiseActions h.id gs) c) := by
  induction gs with
  | nil =>
    intro c ms offers hc _ _
    rw [List.map_nil, List.append_nil]
    exact hc
  | cons g gs ih =>
    intro c ms offers hc hlistens hfits
    rw [List.forall_mem_cons] at hfits
    have hencode := hlistens.encodeEvent_announcement hfits.1
    have hfirst := hc.send rfl hencode
    rw [Offer.hear_announcement, Action.apply_send app hencode] at hfirst
    have hrest := ih hfirst (hlistens.append _) hfits.2
    rw [List.append_assoc] at hrest
    show Informed h (offers ++ g.offer :: gs.map Global.offer)
      ((happenings app (.send (announcement h.id g.offer) :: advertiseActions h.id gs) c).foldl _ ms)
      (Sessions.replay app (.send (announcement h.id g.offer) :: advertiseActions h.id gs) c)
    rw [happenings, List.foldl_append, Sessions.replay, Action.apply_send app hencode]
    exact hrest

/-- Where all registries listen, all of them are told of a withdrawal; so the client of each of them hears
it. -/
theorem Informed.withdraw {g : Offer} (name : UInt32) (ids : List ObjectId) :
    ∀ {c : Connection app.toKit} {ms : List Message} {offers : List Offer}, Informed h offers ms c →
      ids.Nodup → (∀ id ∈ ids, c.Listens id) → g.Fits c.outbound.limit →
        Informed h (if h.id ∈ ids then offers.eraseP (·.name == name) else offers)
          ((happenings app (Connection.withdrawActions app name ids c) c).foldl (Happening.note h.id) ms)
          (Sessions.replay app (Connection.withdrawActions app name ids c) c) := by
  induction ids with
  | nil => exact fun hc _ _ _ => hc
  | cons id ids ih =>
    intro c ms offers hc hnodup hlisten hfits
    rw [List.nodup_cons] at hnodup
    rw [List.forall_mem_cons] at hlisten
    have hencode := hlisten.1.encodeEvent_withdrawal hfits name
    obtain ⟨hpost, hactions⟩ := Connection.post_of_encodeEvent app hencode rfl
    have hnext := Action.apply_send app hencode
    have hrest : ∀ other ∈ ids, Connection.Listens
        { c with outbound := c.outbound.append (withdrawal id name) } other :=
      fun other hmem => (hlisten.2 other hmem).append _
    have hlist : Connection.withdrawActions app name (id :: ids) c =
        .send (withdrawal id name) :: Connection.withdrawActions app name ids
          { c with outbound := c.outbound.append (withdrawal id name) } := by
      unfold withdrawal at hpost hactions
      rw [Connection.withdrawActions, hactions, hpost]
      rfl
    rw [hlist, happenings, List.foldl_append, Sessions.replay, hnext]
    by_cases hid : id = h.id
    · -- no other of the events is for this registry
      subst hid
      have hfirst := hc.send rfl hencode
      rw [Offer.hear_withdrawal, hnext] at hfirst
      have hall := ih hfirst hnodup.2 hrest hfits
      rw [if_neg hnodup.1] at hall
      rw [if_pos (List.mem_cons_self ..)]
      exact hall
    · have hfirst := hc.apply (a := .send (withdrawal id name)) fun _ => hid
      rw [hnext] at hfirst
      have hall := ih hfirst hnodup.2 hrest hfits
      simp only [List.mem_cons, Ne.symm hid, false_or]
      exact hall

end

/-! ## The registries of a connection -/

section
variable {app : Application} {registry : Registry} {c : Connection app.toKit} {id : ObjectId}

/-- A live object that is called a registry is one, and listens. -/
theorem Typed.listens (hc : Typed registry c)
    (hcore : registry.get? Core.registryName = some Core.registry) (hopen : c.isOpen)
    {o : Object (Implementation app.Handler)} (hlive : c.table.objects.get? id = some o)
    (hname : o.interface.name = Core.registryName) : c.Listens id := by
  have hprovides := hc.objects id o hlive
  have hdefined := hprovides.defined
  rw [hname, hcore] at hdefined
  injection hdefined with hdefined
  exact ⟨hopen, o, Table.get_eq_ok_iff_get?.2 hlive, hdefined.symm,
    UInt32.not_lt.2 hprovides.version_pos⟩

/-- The registries are the live objects of that name. -/
theorem Connection.mem_registryIds_iff (hc : c.table.objects.Ascending) : id ∈ c.registryIds app ↔
    ∃ o, c.table.objects.get? id = some o ∧ o.interface.name = Core.registryName := by
  constructor
  · intro hid
    obtain ⟨entry, hentry, rfl⟩ := List.mem_map.1 hid
    obtain ⟨hmem, hname⟩ := List.mem_filter.1 hentry
    exact ⟨entry.2, Objects.Directory.get?_of_mem hc hmem, eq_of_beq hname⟩
  · rintro ⟨o, hlive, hname⟩
    have hmem : (id, o) ∈ c.table.objects := Objects.Directory.mem_of_get? hlive
    exact List.mem_map.2 ⟨(id, o), List.mem_filter.2 ⟨hmem, beq_iff_eq.2 hname⟩, rfl⟩

end

/-! ## What holds at all times -/

/-- What no action takes away from a connection whose globals fit. -/
structure Provisioned {K : Kit} (registry : Registry) (limit : Nat) (c : Connection K) : Prop where
  typed : Typed registry c
  limit_eq : c.outbound.limit = limit
  ascending : c.table.objects.Ascending
  fits : ∀ g ∈ c.globals.entries, g.offer.Fits limit

theorem Globals.removed_mem {β : Type} {gs gs' : Globals β} {g : Global β} {name : UInt32}
    (h : gs.remove? name = some (g, gs')) : g ∈ gs.entries := by
  unfold remove? at h
  split at h
  · rename_i hget
    injection h with h
    injection h with h _
    rw [← h]
    exact List.mem_of_find?_eq_some hget
  · cases h

theorem Globals.mem_of_remove? {β : Type} {gs gs' : Globals β} {g g' : Global β} {name : UInt32}
    (h : gs.remove? name = some (g', gs')) (hg : g ∈ gs'.entries) : g ∈ gs.entries := by
  unfold remove? at h
  split at h
  · injection h with h
    injection h with _ h
    rw [← h] at hg
    exact List.mem_of_mem_eraseP hg
  · cases h

namespace Provisioned

section
variable {app : Application} {registry : Registry} {limit : Nat}

theorem apply (a : Action app.toKit) (c : Connection app.toKit) (hc : Provisioned registry limit c) :
    Provisioned registry limit (a.apply app c) where
  typed := hc.typed.apply a c
  limit_eq := (a.keeps c).limit_eq.trans hc.limit_eq
  ascending := (a.effect c).ascending hc.ascending
  fits := by
    intro g hg
    by_cases ha : ∀ name, a ≠ .withdraw name
    · rw [(a.keeps c).globals_eq ha] at hg
      exact hc.fits g hg
    · obtain ⟨name, rfl⟩ : ∃ name, a = .withdraw name := by
        simpa using ha
      unfold Action.apply at hg
      dsimp only at hg
      split at hg
      · exact hc.fits g hg
      · rename_i hremove
        exact hc.fits g (Globals.mem_of_remove? hremove hg)

theorem new {client : Nat} {globals : Globals app.Binder} {limits : Limits} {world : app.World}
    {s : Session app.toKit} (hnew : Session.new client registry globals limits world = .ok s)
    (hfits : ∀ g ∈ globals.entries, g.offer.Fits (min limits.maxMessageSize Wire.maxMessageSize)) :
    Provisioned registry (min limits.maxMessageSize Wire.maxMessageSize) s.connection := by
  have htyped := Typed.new hnew
  obtain ⟨i, handle, table, -, hinsert, rfl⟩ := Session.exists_of_new hnew
  have hascending := Table.ascending_insert (t := Table.empty limits.staleIdCapacity) List.Pairwise.nil hinsert
  exact ⟨htyped, rfl, hascending, hfits⟩

variable {c : Connection app.toKit}

/-- The objects that a withdrawal is sent to are the live registries, each of them once. -/
theorem listens_of_mem_registryIds (hc : Provisioned registry limit c)
    (hcore : registry.get? Core.registryName = some Core.registry) (hopen : c.isOpen) :
    (c.registryIds app).Nodup ∧ ∀ id ∈ c.registryIds app, c.Listens id := by
  refine ⟨(Objects.Directory.nodup_ids hc.ascending).sublist (List.filter_sublist.map _), ?_⟩
  intro id hid
  obtain ⟨o, hlive, hname⟩ := (Connection.mem_registryIds_iff hc.ascending).1 hid
  exact hc.typed.listens hcore hopen hlive hname

/-- After a withdrawal, the client of a registry knows the globals that are left. -/
theorem informed_removeGlobal (hc : Provisioned registry limit c)
    (hcore : registry.get? Core.registryName = some Core.registry) {h : Handle} {ms : List Message}
    (hinformed : Informed h c.globals.offers ms c) (name : UInt32) :
    Informed h (c.removeGlobal app name).2.globals.offers
      ((happenings app (c.removeGlobalActions app name) c).foldl (Happening.note h.id) ms)
      (c.removeGlobal app name).2 := by
  rw [← Connection.replay_removeGlobal]
  unfold Connection.removeGlobalActions
  cases hopen : c.requireOpen with
  | error e => exact hinformed
  | ok _ =>
    have hopen := Connection.requireOpen_eq_ok_iff.1 hopen
    dsimp only
    cases hremove : c.globals.remove? name with
    | none => exact hinformed
    | some p =>
      obtain ⟨g, globals⟩ := p
      have hwithdraw : Action.apply app (.withdraw name) c = { c with globals } := by
        unfold Action.apply
        dsimp only
        rw [hremove]
      dsimp only
      rw [happenings, Sessions.replay, hwithdraw, List.foldl_append]
      have hplain : ∀ a ∈ Connection.withdrawActions app name (c.registryIds app) { c with globals },
          a.IsPlain none := Connection.isPlain_of_mem_withdrawActions app none
      have hglobals := globals_replay (fun a ha => Action.ne_withdraw_of_isPlain (hplain a ha))
        { c with globals }
      rw [hglobals, Globals.offers_remove? hremove]
      cases hlive : c.table.behind h with
      | none =>
        exact Informed.replay_of_gone (c := { c with globals }) hinformed.old hlive
          (Connection.withdrawActions app name (c.registryIds app) { c with globals })
      | some o =>
        obtain ⟨hnodup, hlisten⟩ := hc.listens_of_mem_registryIds hcore hopen
        have hmem : h.id ∈ c.registryIds app := (Connection.mem_registryIds_iff hc.ascending).2
          ⟨o, (Table.behind_eq_some_iff.1 hlive).1, (hinformed.told o hlive).1⟩
        have hfits : g.offer.Fits c.outbound.limit := by
          rw [hc.limit_eq]
          exact hc.fits g (Globals.removed_mem hremove)
        have hheard := Informed.withdraw (c := { c with globals }) name (c.registryIds app)
          ⟨hinformed.old, hinformed.told⟩ hnodup
          (fun id hid => ⟨(hlisten id hid).isOpen, (hlisten id hid).live⟩) hfits
        rw [if_pos hmem] at hheard
        exact hheard

end

end Provisioned

end Compositor.Sessions
