import Compositor.Proofs.Object.Identity
import Compositor.Proofs.Session.Effects
import Compositor.Proofs.Session.Runs

/-
  What a client knows of the globals.

  A client learns of the globals from the events of a registry alone: one event adds a global to those that it
  knows, another takes the one of a given name away (`Offer.hear`).  What it knows is the replay of the events
  that were queued for the registry since it was inserted (`eventsOf`).

  `Informed` follows one registry, by its handle, through a run.  No action changes what its client knows but
  one that queues an event for it (`Informed.apply`), and such an event changes it as the client hears it
  (`Informed.send`).
-/

namespace Compositor.Sessions

open Compositor.Wire (Arg Message ObjectId Outbox Param)
open Compositor.Objects (Handle Object Table)
open Compositor.Protocol

/-! ## Offers -/

/-- A global as a client knows it. -/
structure Offer where
  name : UInt32
  interface : String
  version : UInt32
deriving DecidableEq

/-- What a client should know of a global. -/
def Global.offer {β : Type} (g : Global β) : Offer := ⟨g.name, g.interface, g.version⟩

/-- The globals of a server as a client should know them. -/
def Globals.offers {β : Type} (gs : Globals β) : List Offer := gs.entries.map Global.offer

/-- What a client knows after one more event of a registry: the event adds a global, or takes away the one of
a name. -/
def Offer.hear (offers : List Offer) (m : Message) : List Offer :=
  if m.opcode = Core.globalOpcode then
    match m.args with
    | [.uint name, .string (some interface), .uint version] => offers ++ [⟨name, interface, version⟩]
    | _ => offers
  else if m.opcode = Core.globalRemoveOpcode then
    match m.args with
    | [.uint name] => offers.eraseP (·.name == name)
    | _ => offers
  else offers

/-- What a client knows when it has heard events in order. -/
def Offer.heard (ms : List Message) : List Offer := ms.foldl hear []

/-- The events of the object at an id, after something has happened: an object that is inserted there has had
none yet. -/
def Happening.note (id : ObjectId) (ms : List Message) : Happening → List Message
  | .inserted other => if other = id then [] else ms
  | .queued m => if m.object = id then ms ++ [m] else ms
  | _ => ms

/-- The events that were queued for the object at an id since it was inserted, in order. -/
def eventsOf (id : ObjectId) (hs : List Happening) : List Message := hs.foldl (Happening.note id) []

/-- The event that announces a global to a registry. -/
def announcement (id : ObjectId) (g : Offer) : Message :=
  ⟨id, Core.globalOpcode, [.uint g.name, .string (some g.interface), .uint g.version]⟩

/-- The event that takes a global back. -/
def withdrawal (id : ObjectId) (name : UInt32) : Message := ⟨id, Core.globalRemoveOpcode, [.uint name]⟩

theorem Offer.hear_announcement (offers : List Offer) (id : ObjectId) (g : Offer) :
    hear offers (announcement id g) = offers ++ [g] := rfl

theorem Offer.hear_withdrawal (offers : List Offer) (id : ObjectId) (name : UInt32) :
    hear offers (withdrawal id name) = offers.eraseP (·.name == name) := rfl

/-- A client that hears of a withdrawal knows the globals that are left. -/
theorem Globals.offers_remove? {β : Type} {gs gs' : Globals β} {g : Global β} {name : UInt32}
    (h : gs.remove? name = some (g, gs')) : gs'.offers = gs.offers.eraseP (·.name == name) := by
  unfold remove? at h
  split at h
  · injection h with h
    injection h with _ h
    rw [← h]
    unfold offers
    rw [List.eraseP_map]
    rfl
  · cases h

/-! ## The object behind a handle -/

section
variable {app : Application} {c c' : Connection app.toKit} {a : Action app.toKit} {h : Handle}

/-- What is behind a handle that was handed out before has been there, and is of the same interface. -/
theorem Action.Effect.behind_of_lt (heffect : Effect app c a c')
    (hold : h.generation < c.table.nextGeneration) {o' : Object (Implementation app.Handler)}
    (hlive : c'.table.behind h = some o') :
    ∃ o, c.table.behind h = some o ∧ o'.interface = o.interface := by
  have hsame : c'.table.objects = c.table.objects → c.table.behind h = some o' := by
    intro hobjects
    unfold Table.behind at hlive ⊢
    rw [← hobjects, hlive]
  have hmodify : ∀ (id : ObjectId) (implementation : Option (Implementation app.Handler)),
      (c.table.modify id fun o => { o with implementation }).behind h = some o' →
        ∃ o, c.table.behind h = some o ∧ o'.interface = o.interface := by
    intro id implementation hlive
    obtain ⟨hget, hgeneration⟩ := Table.behind_eq_some_iff.1 hlive
    rw [Table.get?_modify] at hget
    split at hget
    · rename_i heq
      rw [← heq] at hget
      obtain ⟨o, ho, rfl⟩ := Option.map_eq_some_iff.1 hget
      exact ⟨o, Table.behind_eq_some_iff.2 ⟨ho, hgeneration⟩, rfl⟩
    · exact ⟨o', Table.behind_eq_some_iff.2 ⟨hget, hgeneration⟩, rfl⟩
  cases heffect with
  | none _ hobjects _ => exact ⟨o', hsame hobjects, rfl⟩
  | inserted hinserts =>
    obtain ⟨-, hinsert⟩ := hinserts
    exact ⟨o', (Table.behind_insert_of_lt hold hinsert).symm.trans hlive, rfl⟩
  | bound _ _ => exact hmodify _ _ hlive
  | taken => exact hmodify _ _ hlive
  | returned => exact hmodify _ _ hlive
  | removed _ _ hobjects _ =>
    refine ⟨o', ?_, rfl⟩
    obtain ⟨hget, hgeneration⟩ := Table.behind_eq_some_iff.1 hlive
    rw [hobjects, Objects.Directory.get?_erase] at hget
    split at hget
    · cases hget
    · exact Table.behind_eq_some_iff.2 ⟨hget, hgeneration⟩
  | closed _ hobjects _ =>
    obtain ⟨hget, -⟩ := Table.behind_eq_some_iff.1 hlive
    rw [hobjects] at hget
    cases hget

/-! ## Events of an object -/

/-- The action of queuing a message. -/
def Action.send {K : Kit} (m : Message) : Action K := .queue m.object m.opcode m.args

theorem Action.apply_send (app : Application) {c : Connection app.toKit} {m : Message} {method : Method}
    {outbound : Outbox} (hencode : c.encodeEvent m.object m.opcode m.args = .ok (method, outbound)) :
    (Action.send m).apply app c = { c with outbound } := by
  unfold send apply
  dsimp only
  rw [hencode]

/-- An action queues nothing for the object behind a handle. -/
def Action.Bypasses {K : Kit} (h : Handle) : Action K → Connection K → Prop
  | .queue id _ _, c => (c.table.behind h).isSome → id ≠ h.id
  | _, _ => True

/-- While an object is live, no other is inserted at its id; so its events become more only by what is queued
for it. -/
theorem Action.note_happenings (hlive : (c.table.behind h).isSome) (ha : a.Bypasses h c)
    (ms : List Message) : (a.happenings app c).foldl (Happening.note h.id) ms = ms := by
  -- an id at which an object can be inserted is free
  have hinserted : ∀ {side id o handle table}, c.table.insert side id o = .ok (handle, table) →
      Happening.note h.id ms (.inserted id) = ms := by
    intro side id o handle table hinsert
    refine if_neg ?_
    rintro rfl
    obtain ⟨o, ho⟩ := Option.isSome_iff_exists.1 hlive
    cases (Table.behind_eq_some_iff.1 ho).1.symm.trans (Table.get?_of_insert hinsert)
  have houtcome := a.outcome c
  generalize a.apply app c = c', a.happenings app c = hs at houtcome
  cases houtcome with
  | queued _ => exact if_neg (ha hlive)
  | destroyed =>
    unfold happenings
    dsimp only
    split
    · rfl
    · split
      · rfl
      · rfl
  | created _ _ hinsert => exact hinserted hinsert
  | inserted _ _ hinsert => exact hinserted hinsert
  | _ => rfl

end

/-! ## Actions in sequence -/

section
variable (app : Application)

/-- Something holds of every action, of the connection on which it is done. -/
def Along (P : Action app.toKit → Connection app.toKit → Prop) :
    List (Action app.toKit) → Connection app.toKit → Prop
  | [], _ => True
  | a :: as, c => P a c ∧ Along P as (a.apply app c)

variable {app} {P : Action app.toKit → Connection app.toKit → Prop}

theorem Action.ne_withdraw_of_isPlain {K : Kit} {running : Option ObjectId} {a : Action K}
    (hplain : a.IsPlain running) (name : UInt32) : a ≠ .withdraw name := by
  rintro rfl
  exact hplain

theorem globals_replay {as : List (Action app.toKit)} (has : ∀ a ∈ as, ∀ name, a ≠ .withdraw name) :
    ∀ c : Connection app.toKit, (replay app as c).globals = c.globals := by
  induction as with
  | nil => exact fun _ => rfl
  | cons a as ih =>
    intro c
    rw [List.forall_mem_cons] at has
    exact (ih has.2 (a.apply app c)).trans ((a.keeps c).globals_eq has.1)

theorem Along.of_forall {as : List (Action app.toKit)} : ∀ {c : Connection app.toKit},
    (∀ a ∈ as, ∀ c, P a c) → Along app P as c := by
  induction as with
  | nil => exact fun _ => trivial
  | cons a as ih =>
    exact fun h => ⟨h a (List.mem_cons_self ..) _, ih fun b hb => h b (List.mem_cons_of_mem a hb)⟩

end

/-! ## An informed client -/

/-- The object behind a handle that was handed out is a registry as long as it is live, and the client that has
heard its events knows certain globals. -/
structure Informed {K : Kit} (h : Handle) (offers : List Offer) (ms : List Message)
    (c : Connection K) : Prop where
  old : h.generation < c.table.nextGeneration
  told : ∀ o, c.table.behind h = some o → o.interface.name = Core.registryName ∧ Offer.heard ms = offers

namespace Informed

section
variable {app : Application} {h : Handle} {offers : List Offer} {ms : List Message}
  {c : Connection app.toKit}

/-- An action changes what is known only by an event for the object. -/
theorem apply (hc : Informed h offers ms c) {a : Action app.toKit} (ha : a.Bypasses h c) :
    Informed h offers ((a.happenings app c).foldl (Happening.note h.id) ms) (a.apply app c) where
  old := Nat.lt_of_lt_of_le hc.old (a.keeps c).generation_le
  told := by
    intro o' hlive'
    obtain ⟨o, hlive, hinterface⟩ := (a.effect c).behind_of_lt hc.old hlive'
    rw [hinterface, Action.note_happenings (by rw [hlive]; rfl) ha]
    exact hc.told o hlive

/-- Once the object is gone, whatever happens is of no concern to its client. -/
theorem replay_of_gone (hold : h.generation < c.table.nextGeneration) (hgone : c.table.behind h = none)
    (as : List (Action app.toKit)) : Informed h offers ms (Sessions.replay app as c) := by
  have hstep : ∀ (a : Action app.toKit) (c : Connection app.toKit),
      h.generation < c.table.nextGeneration ∧ c.table.behind h = none →
        h.generation < (a.apply app c).table.nextGeneration ∧ (a.apply app c).table.behind h = none := by
    rintro a c ⟨hold, hgone⟩
    refine ⟨Nat.lt_of_lt_of_le hold (a.keeps c).generation_le, Option.eq_none_iff_forall_ne_some.2 ?_⟩
    intro o' hlive'
    obtain ⟨o, hlive, -⟩ := (a.effect c).behind_of_lt hold hlive'
    rw [hgone] at hlive
    cases hlive
  obtain ⟨hold', hgone'⟩ := replay_preserves hstep as ⟨hold, hgone⟩
  refine ⟨hold', fun o hlive => ?_⟩
  rw [hgone'] at hlive
  cases hlive

/-- The client hears an event that is queued for it. -/
theorem send (hc : Informed h offers ms c) {m : Message} (hm : m.object = h.id) {method : Method}
    {outbound : Outbox} (hencode : c.encodeEvent m.object m.opcode m.args = .ok (method, outbound)) :
    Informed h (Offer.hear offers m) (((Action.send m).happenings app c).foldl (Happening.note h.id) ms)
      ((Action.send m).apply app c) := by
  have hnote : ((Action.send m).happenings app c).foldl (Happening.note h.id) ms = ms ++ [m] := by
    unfold Action.send Action.happenings
    dsimp only
    rw [hencode]
    exact if_pos hm
  rw [Action.apply_send app hencode, hnote]
  refine ⟨hc.old, fun o hlive => ?_⟩
  obtain ⟨hname, hknown⟩ := hc.told o hlive
  refine ⟨hname, ?_⟩
  unfold Offer.heard at hknown ⊢
  rw [List.foldl_append, hknown]
  rfl

/-- So do actions one after the other, if none of them queues anything for the object. -/
theorem replay {P : Action app.toKit → Connection app.toKit → Prop} (as : List (Action app.toKit))
    (hP : ∀ a c ms, Informed h offers ms c → P a c → a.Bypasses h c) :
    ∀ {c : Connection app.toKit} {ms : List Message}, Informed h offers ms c → Along app P as c →
      Informed h offers ((happenings app as c).foldl (Happening.note h.id) ms)
        (Sessions.replay app as c) := by
  induction as with
  | nil => exact fun hc _ => hc
  | cons a as ih =>
    intro c ms hc halong
    have hfirst := hc.apply (hP a c ms hc halong.1)
    rw [happenings, List.foldl_append]
    exact ih hfirst halong.2

end

end Informed

end Compositor.Sessions
