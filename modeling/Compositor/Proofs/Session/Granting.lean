import Compositor.Proofs.Session.Announcements
import Compositor.Proofs.Session.Presiding
import Compositor.Proofs.Session.Validity

/-
  How a request is handled, and how a registry is granted.

  `Connection.Handling` says what handling a request comes to: the new object is inserted, the implementation
  of the target is taken out, its program runs, and what follows are reports through the display.  The program
  of the display posts for the new object only; those of an application are assumed to spare the registries
  (`Connection.Spares`).  Neither concerns a registry that is there already.

  A registry is granted by the request that inserts it (`Connection.Grants`).  The display finds it without an
  implementation (`Connection.Fresh`), gives it one, and announces all globals to it.
-/

namespace Compositor.Sessions

open Compositor.Wire (Arg Kind Message ObjectId Param)
open Compositor.Objects (Handle Object Table)
open Compositor.Protocol

/-! ## How a request is handled -/

/-- A plain action that queues nothing but events of the display, as when an error is reported. -/
structure Action.IsReport {K : Kit} (a : Action K) : Prop where
  isPlain : a.IsPlain none
  queuesFor : a.QueuesFor .display

namespace Connection

section
variable {K : Kit}

/-- The request as the implementation of its target sees it. -/
def Accepted.request (a : Accepted K) (m : Message) : Request :=
  ⟨m.object, m.opcode, a.target.version, a.target.interface, m.args⟩

/-- The action of inserting what the request creates. -/
def Accepted.insertion (a : Accepted K) (m : Message) : Action K :=
  .insertCreated a.target.version a.method.signature.params m.args

/-- The connection while the request is handled. -/
def Accepted.handled (a : Accepted K) (m : Message) : Connection K :=
  (a.connection.takeImplementation m.object).2

end

section
variable (app : Application)

/-- What handling a request comes to. -/
inductive Handling (c : Connection app.toKit) (m : Message) : List (Action app.toKit) → Prop where
  /-- It fails its checks. -/
  | refused {v : Violation} : c.accept m = .error v → Handling c m []
  /-- Its target has no implementation. -/
  | unanswered {a : Accepted app.toKit} {as : List (Action app.toKit)} : c.accept m = .ok a →
      a.target.implementation = none → (∀ b ∈ as, b.IsReport) →
        Handling c m (a.insertion m :: .take m.object :: as)
  /-- The implementation of its target handles it. -/
  | answered {a : Accepted app.toKit} {i j : Implementation app.Handler} {as : List (Action app.toKit)} :
      c.accept m = .ok a → a.target.implementation = some i →
        ((app.respond i (a.request m)).run app m.object (a.handled m)).1.1 = j →
          (∀ b ∈ as, b.IsReport) →
            Handling c m (a.insertion m :: .take m.object ::
              ((app.respond i (a.request m)).actions app m.object (a.handled m) ++
                .giveBack m.object a.target.generation j :: as))

variable {app} {c : Connection app.toKit} {m : Message}

theorem isReport_of_mem_postActions {opcode : UInt16} {args : List Arg} :
    ∀ a ∈ c.postActions app .display opcode args, a.IsReport :=
  fun a ha => ⟨isPlain_of_mem_postActions app none a ha, queuesFor_of_mem_postActions a ha⟩

theorem isReport_of_mem_failActions {v : Violation} {target : ObjectId} :
    ∀ a ∈ c.failActions app v target, a.IsReport := by
  intro a ha
  rcases List.mem_append.1 ha with ha | ha
  · exact isReport_of_mem_postActions a ha
  · rw [List.mem_singleton.1 ha]
    exact ⟨trivial, trivial⟩

theorem isReport_of_mem_endOfLifeActions {id : ObjectId} {generation : Nat} {method : Method} :
    ∀ a ∈ c.endOfLifeActions app id generation method, a.IsReport := by
  intro a ha
  unfold endOfLifeActions at ha
  split at ha
  · rw [List.mem_singleton.1 ha]
    exact ⟨trivial, trivial⟩
  · cases ha

theorem handling_dispatchActions (c : Connection app.toKit) (m : Message) :
    c.Handling app m (c.dispatchActions app m) := by
  unfold dispatchActions
  cases haccept : c.accept m with
  | error v => exact .refused haccept
  | ok a =>
    have htake := takeImplementation_of_get (get_of_accept haccept)
    have hhandled : a.handled m = (a.connection.takeImplementation m.object).2 := rfl
    rw [htake] at hhandled
    dsimp only at hhandled ⊢
    rw [htake, ← hhandled]
    cases himplementation : a.target.implementation with
    | none =>
      dsimp only
      refine .unanswered haccept himplementation fun b hb => ?_
      split at hb
      · exact isReport_of_mem_endOfLifeActions b hb
      · cases hb
    | some i =>
      dsimp only
      rw [invokeActions, List.append_assoc]
      refine .answered haccept himplementation rfl fun b hb => ?_
      rcases List.mem_append.1 hb with hb | hb
      · split at hb
        · cases hb
        · exact isReport_of_mem_postActions b hb
      · exact isReport_of_mem_endOfLifeActions b hb

/-- Only plain actions are done besides taking an implementation out and putting it back. -/
theorem Handling.cases_of_mem {as : List (Action app.toKit)} (h : c.Handling app m as)
    {b : Action app.toKit} (hb : b ∈ as) : (∃ running, b.IsPlain running) ∨ b = .take m.object ∨
      ∃ a i j, c.accept m = .ok a ∧ a.target.implementation = some i ∧
        ((app.respond i (a.request m)).run app m.object (a.handled m)).1.1 = j ∧
          b = .giveBack m.object a.target.generation j := by
  have hinsertion : ∀ a : Accepted app.toKit, (a.insertion m).IsPlain none := fun _ => trivial
  cases h with
  | refused _ => cases hb
  | unanswered _ _ has =>
    rcases List.mem_cons.1 hb with rfl | hb
    · exact .inl ⟨none, hinsertion _⟩
    · rcases List.mem_cons.1 hb with rfl | hb
      · exact .inr (.inl rfl)
      · exact .inl ⟨none, (has b hb).isPlain⟩
  | answered haccept hi hj has =>
    rcases List.mem_cons.1 hb with rfl | hb
    · exact .inl ⟨none, hinsertion _⟩
    · rcases List.mem_cons.1 hb with rfl | hb
      · exact .inr (.inl rfl)
      · rcases List.mem_append.1 hb with hb | hb
        · exact .inl ⟨some m.object, Program.isPlain_of_mem_actions app _ b hb⟩
        · rcases List.mem_cons.1 hb with rfl | hb
          · exact .inr (.inr ⟨_, _, _, haccept, hi, hj, rfl⟩)
          · exact .inl ⟨none, (has b hb).isPlain⟩

/-- No request withdraws a global. -/
theorem Handling.ne_withdraw {as : List (Action app.toKit)} (h : c.Handling app m as) :
    ∀ b ∈ as, ∀ name, b ≠ .withdraw name := by
  rintro b hb name rfl
  rcases h.cases_of_mem hb with ⟨running, hplain⟩ | htake | ⟨_, _, _, -, -, -, hback⟩
  · exact hplain
  · cases htake
  · cases hback

/-- What is put back into the display is its own implementation, if this is what was taken out. -/
theorem Handling.restores {as : List (Action app.toKit)} (h : c.Handling app m as)
    (hown : ∀ a i, c.accept m = .ok a → m.object = .display → a.target.implementation = some i → i = .display) :
    Restores as := by
  intro generation j hb
  rcases h.cases_of_mem hb with ⟨running, hplain⟩ | htake | ⟨a, i, j', haccept, hi, hj, hback⟩
  · exact hplain.elim
  · cases htake
  · injection hback with hid _ hj'
    have hdisplay := hown a i haccept hid.symm hi
    subst hdisplay
    rw [hj', ← hj]
    exact respond_display app _ _ _

end

end Connection

/-! ## Sparing registries -/

/-- An action queues no event of a registry. -/
def Action.Spares {K : Kit} : Action K → Connection K → Prop
  | .queue id _ _, c => ∀ o, c.table.get id = .ok o → o.interface.name ≠ Core.registryName
  | _, _ => True

/-- A request that is not for the display is handled without posting any event of a registry. -/
def Connection.Spares (app : Application) (c : Connection app.toKit) (m : Message) : Prop :=
  m.object ≠ .display → ∀ a i, c.accept m = .ok a → a.target.implementation = some i →
    Along app Action.Spares ((app.respond i (a.request m)).actions app m.object (a.handled m)) (a.handled m)

namespace Informed

section
variable {app : Application} {h : Handle} {offers : List Offer} {ms : List Message}
  {c : Connection app.toKit} {as : List (Action app.toKit)}

/-- Events of one other object say nothing to the client. -/
theorem replay_of_queuesFor (hc : Informed h offers ms c) {id : ObjectId}
    (hid : (c.table.behind h).isSome → id ≠ h.id) (has : ∀ a ∈ as, a.QueuesFor id) :
    Informed h offers ((happenings app as c).foldl (Happening.note h.id) ms) (Sessions.replay app as c) := by
  cases hlive : c.table.behind h with
  | none => exact replay_of_gone hc.old hlive as
  | some o =>
    rw [hlive] at hid
    have hne := hid rfl
    refine hc.replay (P := fun a _ => a.QueuesFor id) as ?_ (.of_forall fun a ha _ => has a ha)
    intro a c ms _ ha
    cases a with
    | queue other opcode args =>
      intro _
      rw [show other = id from ha]
      exact hne
    | _ => trivial

/-- Neither do those of objects that are no registries. -/
theorem replay_of_spares (hc : Informed h offers ms c) (has : Along app Action.Spares as c) :
    Informed h offers ((happenings app as c).foldl (Happening.note h.id) ms) (Sessions.replay app as c) := by
  refine hc.replay (P := Action.Spares) as ?_ has
  intro a c ms hc ha
  cases a with
  | queue id opcode args =>
    intro hlive hid
    obtain ⟨o, ho⟩ := Option.isSome_iff_exists.1 hlive
    have hget : c.table.get id = .ok o := by
      rw [show id = h.id from hid]
      exact Table.get_eq_ok_iff_get?.2 (Table.behind_eq_some_iff.1 ho).1
    exact ha o hget (hc.told o ho).1
  | _ => trivial

end

end Informed

/-! ## Requests of the display -/

namespace Connection

section
variable {app : Application} {registry : Registry} {limit : Nat} {c : Connection app.toKit} {m : Message}
  {a : Accepted app.toKit}

/-- The display of an open connection is as the core definition has it. -/
theorem display_of_accept (hc : Provisioned registry limit c)
    (hcore : registry.get? Core.displayName = some Core.display) (hopen : c.isOpen)
    (haccept : c.accept m = .ok a) (hm : m.object = .display) :
    a.target.interface = Core.display ∧ a.target.version = 1 := by
  have hget := (accept_eq_ok_iff.1 haccept).target_eq
  rw [hm] at hget
  have hlive := Table.get_eq_ok_iff_get?.1 hget
  obtain ⟨o, hlive', hname, hversion⟩ := hc.typed.display hopen
  rw [hlive] at hlive'
  injection hlive' with heq
  subst heq
  have hdefined := (hc.typed.objects _ _ hlive).defined
  rw [hname, hcore] at hdefined
  injection hdefined with hdefined
  exact ⟨hdefined.symm, hversion⟩

/-- Its own implementation handles its requests. -/
theorem implementation_of_accept (hattended : Attended none c) (hpresided : Presided c) (hopen : c.isOpen)
    (haccept : c.accept m = .ok a) (hm : m.object = .display) : a.target.implementation = some .display := by
  have hget := (accept_eq_ok_iff.1 haccept).target_eq
  rw [hm] at hget
  have hlive := Table.get_eq_ok_iff_get?.1 hget
  cases hi : a.target.implementation with
  | none => cases (hattended.unbound_iff hopen hlive).1 hi
  | some i => rw [hpresided hopen _ i hlive hi]

/-- Each of its requests creates an object, at an id that was free. -/
theorem newId_of_accept (haccept : c.accept m = .ok a) (hinterface : a.target.interface = Core.display) :
    ∃ id, (a.request m).newId 0 = .ok id ∧ c.table.objects.get? id = none := by
  have hpasses := accept_eq_ok_iff.1 haccept
  have hparams : ∃ p name, a.method.signature.params = [p] ∧ p.kind = .newId ∧ p.interface = some name := by
    have hmethod := hpasses.method_eq
    rw [hinterface] at hmethod
    have hmem : a.method ∈ Core.display.requests := List.mem_of_getElem? hmethod
    rcases List.mem_cons.1 hmem with heq | hmem
    · rw [heq]
      exact ⟨_, _, rfl, rfl, rfl⟩
    · rw [List.mem_singleton.1 hmem]
      exact ⟨_, _, rfl, rfl, rfl⟩
  obtain ⟨p, name, hparams, hkind, hname⟩ := hparams
  have hfits := (Wire.Signature.check_eq_ok_iff _ _).1 hpasses.check_eq
  have hinserted := hpasses.inserted
  unfold Wire.Signature.Accepts at hfits
  rw [hparams] at hfits hinserted
  cases hargs : m.args with
  | nil =>
    rw [hargs] at hfits
    cases hfits
  | cons arg args =>
    rw [hargs] at hfits hinserted
    obtain ⟨name', version, id, hdescribes⟩ : ∃ name version id,
        Describes c.registry a.target.version p arg name version id := by
      cases hfits with
      | cons haccepts _ => exact exists_describes _ _ hkind haccepts
    have hid := newId?_of_describes hdescribes
    have hcreated : createdId? [p] (arg :: args) = some id := by
      unfold createdId? creation?
      rw [if_pos hkind]
      exact hid
    refine ⟨id, ?_, ?_⟩
    · unfold Request.newId Request.expect Accepted.request
      dsimp only
      rw [hargs, List.getElem?_cons_zero, Option.bind_some, hid]
    · rcases insertCreated_cases hinserted with
        ⟨hnone, -⟩ | ⟨other, i, version, handle, table, hsome, -, hinsert, -⟩
      · rw [hcreated] at hnone
        cases hnone
      · rw [hcreated] at hsome
        injection hsome with hsome
        rw [hsome]
        exact Table.get?_of_insert hinsert

/-! ### Granting a registry -/

/-- The request asks the display for a registry, which it gets under a handle. -/
structure Grants {K : Kit} (c : Connection K) (m : Message) (h : Handle) : Prop where
  request_eq : m = ⟨.display, Core.getRegistryOpcode, [.newId h.id]⟩
  accepted : ∃ a, c.accept m = .ok a
  generation_eq : h.generation = c.table.nextGeneration

/-- A registry as it is inserted. -/
def freshRegistry {α : Type} : Object α := { interface := Core.registry, version := 1 }

/-- The registry is inserted under that handle. -/
theorem Grants.exists_insert {h : Handle} (hgrants : c.Grants m h) (hc : Provisioned registry limit c)
    (hregistry : registry.get? Core.registryName = some Core.registry) (haccept : c.accept m = .ok a)
    (hinterface : a.target.interface = Core.display) (hversion : a.target.version = 1) :
    createdId? a.method.signature.params m.args = some h.id ∧ ∃ table,
      c.table.insert .client h.id freshRegistry = .ok (h, table) ∧ a.connection = { c with table } := by
  have hpasses := accept_eq_ok_iff.1 haccept
  have hmethod := hpasses.method_eq
  have hinserted := hpasses.inserted
  rw [hinterface, hgrants.request_eq] at hmethod
  injection hmethod with hmethod
  rw [hversion, ← hmethod, hgrants.request_eq] at hinserted
  rw [← hmethod, hgrants.request_eq]
  refine ⟨rfl, ?_⟩
  have hlookup : c.registry.lookup Core.registryName 1 = .ok Core.registry :=
    hc.typed.registry_eq ▸ Registry.lookup_eq_ok_iff.2 ⟨rfl, hregistry, UInt32.le_refl _, UInt32.le_refl _⟩
  -- the version is that of the display, since the registry has no higher one
  have hdescribes : Describes c.registry 1
      { name := "registry", kind := .newId, interface := some Core.registryName } (.newId h.id)
      Core.registryName (inheritedVersion c.registry 1 Core.registryName) h.id := .typed rfl
  have hinherited : inheritedVersion c.registry 1 Core.registryName = 1 := by
    unfold inheritedVersion
    rw [hc.typed.registry_eq, hregistry]
    rfl
  rw [hinherited] at hdescribes
  rw [insertCreated_of_newIdOf ⟨[], [], rfl, fun _ hmem => absurd hmem List.not_mem_nil, rfl⟩ hdescribes,
    hlookup] at hinserted
  dsimp only at hinserted
  split at hinserted
  · cases hinserted
  · rename_i handle table hinsert
    injection hinserted with hinserted
    have hhandle := (Table.nextGeneration_insert hinsert).1
    rw [← hgrants.generation_eq] at hhandle
    rw [hhandle] at hinsert
    exact ⟨table, hinsert, hinserted.symm⟩

/-- An object that has no implementation can be given one. -/
theorem bind_of_get (hopen : c.isOpen) {id : ObjectId} {o : Object (Implementation app.Handler)}
    (hget : c.table.get id = .ok o) (hunbound : o.implementation = none) (i : Implementation app.Handler) :
    c.bind id i = (.ok ⟨id, o.generation⟩,
      { c with table := c.table.modify id fun o => { o with implementation := some i } }) := by
  unfold bind
  rw [requireOpen_eq_ok_iff.2 hopen]
  dsimp only
  rw [hget]
  dsimp only
  rw [Object.isBound, hunbound]
  rfl

/-- A registry without an implementation, as it is while the display grants it. -/
structure Fresh {K : Kit} (c : Connection K) (id : ObjectId) : Prop where
  isOpen : c.isOpen
  live : ∃ o, c.table.get id = .ok o ∧ o.interface = Core.registry ∧ ¬ o.version < 1 ∧ o.implementation = none

/-- This is how the display finds it, when it has just been inserted. -/
theorem Accepted.fresh_handled (hopen : c.isOpen) (haccept : c.accept m = .ok a) {h : Handle}
    (hother : m.object ≠ h.id) {table : Table (Implementation app.Handler)}
    (hinsert : c.table.insert .client h.id freshRegistry = .ok (h, table))
    (hconnection : a.connection = { c with table }) :
    (a.handled m).Fresh h.id ∧ (a.handled m).globals = c.globals ∧ (a.handled m).outbound = c.outbound := by
  have hget := get_of_accept haccept
  unfold Accepted.handled
  rw [takeImplementation_of_get hget, hconnection]
  refine ⟨⟨hopen, { freshRegistry with generation := c.table.nextGeneration }, ?_, rfl, ?_, rfl⟩, rfl, rfl⟩
  · rw [Table.get_eq_ok_iff_get?]
    dsimp only
    rw [Table.get?_modify, if_neg (Ne.symm hother), Table.objects_insert hinsert, Objects.Directory.get?_put,
      if_pos rfl]
  · exact UInt32.lt_irrefl _

/-- Once it has one, it listens. -/
theorem Fresh.exists_bind {id : ObjectId} (h : c.Fresh id) (i : Implementation app.Handler) :
    ∃ handle c', c.bind id i = (.ok handle, c') ∧ c'.Listens id ∧ c'.globals = c.globals ∧
      c'.outbound = c.outbound := by
  obtain ⟨o, hget, hinterface, hversion, hunbound⟩ := h.live
  refine ⟨_, _, bind_of_get h.isOpen hget hunbound i, ⟨h.isOpen, ?_⟩, rfl, rfl⟩
  exact ⟨_, get_modify_of_get hget, hinterface, hversion⟩

/-- The display gives it one, and announces all globals to it. -/
theorem Fresh.actions_displayRequest {id owner : ObjectId} (h : c.Fresh id) (howner : id ≠ owner)
    {r : Request} (hopcode : r.opcode = Core.getRegistryOpcode) (hid : r.newId 0 = .ok id)
    (hfits : ∀ g ∈ c.globals.entries, g.offer.Fits c.outbound.limit) :
    (displayRequest r : Script app.toKit Unit).run.actions app owner c =
      .bind id .registry :: advertiseActions id c.globals.entries := by
  obtain ⟨handle, c', hbind, hlistens, hglobals, houtbound⟩ := h.exists_bind .registry
  rw [← hglobals, ← houtbound] at hfits
  obtain ⟨c'', hadvertise⟩ : ∃ c'', (advertise id c'.globals.entries : Script app.toKit Unit).run.Does owner
      c' (advertiseActions id c'.globals.entries) (.ok ()) c'' := does_advertise _ hlistens hfits
  have hscript : (displayRequest r : Script app.toKit Unit) = (do
      let _ ← Script.bind id .registry
      let globals ← Script.globals
      advertise id globals.entries) := by
    unfold displayRequest
    rw [hopcode, if_neg (by decide), if_pos rfl, hid]
    rfl
  have hgranted : ((do
      let globals ← Script.globals
      advertise id globals.entries) : Script app.toKit Unit).run.Does owner c'
        ([] ++ advertiseActions id c'.globals.entries) (.ok ()) c'' :=
    Script.does_bind (Script.does_globals c') hadvertise
  have hdoes : ((do
      let _ ← Script.bind id .registry
      let globals ← Script.globals
      advertise id globals.entries) : Script app.toKit Unit).run.Does owner c
        ([.bind id .registry] ++ ([] ++ advertiseActions id c'.globals.entries)) (.ok ()) c'' :=
    Script.does_bind (Script.does_install howner hbind) hgranted
  rw [hscript, ← hglobals]
  exact hdoes.actions_eq

end

end Connection

/-- So a client that knows nothing yet comes to know all globals. -/
theorem Informed.getRegistry {app : Application} {h : Handle} {ms : List Message} {c : Connection app.toKit}
    (hc : Informed h [] ms c) (hfresh : c.Fresh h.id)
    (hfits : ∀ g ∈ c.globals.entries, g.offer.Fits c.outbound.limit) :
    Informed h c.globals.offers
      ((happenings app (.bind h.id .registry :: advertiseActions h.id c.globals.entries) c).foldl
        (Happening.note h.id) ms)
      (Sessions.replay app (.bind h.id .registry :: advertiseActions h.id c.globals.entries) c) := by
  obtain ⟨handle, c', hbind, hlistens, hglobals, houtbound⟩ := hfresh.exists_bind .registry
  have happly : Action.apply app (.bind h.id .registry) c = c' := congrArg Prod.snd hbind
  have hfirst := hc.apply (a := .bind h.id .registry) trivial
  rw [happly] at hfirst
  rw [← hglobals, ← houtbound] at hfits
  rw [happenings, List.foldl_append, Sessions.replay, happly, ← hglobals]
  exact hfirst.advertise c'.globals.entries hlistens hfits

end Compositor.Sessions
