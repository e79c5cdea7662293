import Compositor.Proofs.Session.Endings
import Compositor.Proofs.Session.Registries
import Mathlib.Data.List.Basic

/-
  Binding globals.

  A client binds a global through a registry object: it says which global, what it takes the global for, and
  at which id it wants the new object.  The session stops over a request whose object it cannot insert
  (`Unbindable`).  An object that it can insert is there when the global is looked up, and so it has to be
  destroyed again if there is no such global (`Unoffered`), which is reported and no more.  Otherwise the
  function of the global runs, once, and the handler that it makes is installed.

  That function may do whatever a handler may do.  What is said of its new object afterwards is said where it
  has left it alone (`Untouched`): no action but a destruction, an installation or the end of the connection
  gets at an object without an implementation (`behind_of_untouched`).
-/

namespace Compositor.Sessions

open Compositor.Wire (Arg Message ObjectId Param)
open Compositor.Objects (Handle Object Table)
open Compositor.Protocol

/-! ## The request -/

/-- The request for a global through the registry object `r`. -/
def bindRequest (r : ObjectId) (name : UInt32) (interface : String) (version : UInt32) (id : ObjectId) :
    Message := ⟨r, Core.bindOpcode, [.uint name, .genericNewId interface version id]⟩

def nameParam : Param := { name := "name", kind := .uint }

def idParam : Param := { name := "id", kind := .newId }

/-- The request `wl_registry.bind`. -/
def bindMethod : Method := { name := "bind", signature := ⟨[nameParam, idParam]⟩ }

namespace Connection

section
variable {K : Kit}

/-- What can be wrong with the object that a client asks for. -/
inductive Unbindable (c : Connection K) (interface : String) (version : UInt32) (id : ObjectId) : Prop where
  /-- The name of its interface cannot be a string of a message. -/
  | text : Wire.hasNul interface = true → Unbindable c interface version id
  | unknown : c.registry.get? interface = none → Unbindable c interface version id
  | zero : version = 0 → Unbindable c interface version id
  | high {i : Interface} : c.registry.get? interface = some i → i.version < version →
      Unbindable c interface version id
  | id : ¬ Usable c.table id → Unbindable c interface version id

/-- An object that can be inserted. -/
structure Bindable (c : Connection K) (interface : String) (version : UInt32) (id : ObjectId)
    (i : Interface) : Prop where
  text : Wire.hasNul interface = false
  provided : c.registry.lookup interface version = .ok i
  usable : Usable c.table id

variable {c : Connection K} {r id : ObjectId} {name version : UInt32} {interface : String}
  {o : Object (Implementation K.Handler)}

/-- An object can be inserted exactly if nothing is wrong with it. -/
theorem exists_bindable_iff :
    (∃ i, c.Bindable interface version id i) ↔ ¬ c.Unbindable interface version id := by
  constructor
  · rintro ⟨i, h⟩ hwrong
    obtain ⟨hname, hprovides⟩ := Registry.lookup_eq_ok_iff.1 h.provided
    have hdefined := hprovides.defined
    rw [hname] at hdefined
    cases hwrong with
    | text hnul =>
      rw [h.text] at hnul
      cases hnul
    | unknown hnone =>
      rw [hdefined] at hnone
      cases hnone
    | zero hzero => exact absurd hprovides.version_pos (by rw [hzero]; decide)
    | high hget hlow =>
      rw [hdefined] at hget
      injection hget with hget
      exact absurd (hget ▸ hprovides.version_le) (UInt32.not_le.2 hlow)
    | id hid => exact hid h.usable
  · intro hright
    have hpos : ¬ version = 0 := fun hzero => hright (.zero hzero)
    cases hget : c.registry.get? interface with
    | none => exact absurd (.unknown hget) hright
    | some i =>
      have hlow : ¬ i.version < version := fun hlow => hright (.high hget hlow)
      refine ⟨i, Bool.eq_false_iff.2 fun hnul => hright (.text hnul), ?_,
        Classical.not_not.1 fun hid => hright (.id hid)⟩
      unfold Registry.lookup
      rw [hget]
      exact if_neg (not_or.2 ⟨hpos, hlow⟩)

/-- The new id of the request is its second argument. -/
theorem newIdOf_bindRequest : NewIdOf bindMethod.signature.params (bindRequest r name interface version id).args
    idParam (.genericNewId interface version id) := by
  refine ⟨[(nameParam, .uint name)], [], rfl, fun e he => ?_, rfl⟩
  rw [List.mem_singleton.1 he]
  exact (by decide : nameParam.kind ≠ .newId)

/-- The request fits if the name of the interface can be a string of a message. -/
theorem check_bindRequest_iff : bindMethod.signature.check (bindRequest r name interface version id).args =
    .ok () ↔ Wire.hasNul interface = false := by
  rw [Wire.Signature.check_eq_ok_iff]
  constructor
  · rintro (_ | ⟨-, _ | ⟨haccepts, -⟩⟩)
    exact haccepts.text interface rfl
  · intro htext
    refine .cons ⟨rfl, nofun, nofun⟩ (.cons ⟨rfl, nofun, fun s hs => ?_⟩ .nil)
    injection hs with hs
    rw [← hs]
    exact htext

/-- A registry object that has the implementation of one. -/
structure Registrar (c : Connection K) (r : ObjectId) (o : Object (Implementation K.Handler)) : Prop where
  live : c.table.get r = .ok o
  interface_eq : o.interface = Core.registry
  version_pos : 1 ≤ o.version
  bound : o.implementation = some .registry

/-- A request to a registry is valid if its object can be inserted. -/
theorem Bindable.valid {i : Interface} (h : c.Bindable interface version id i) (hr : c.Registrar r o)
    (name : UInt32) : c.Valid (bindRequest r name interface version id) o bindMethod := by
  refine ⟨⟨⟨hr.live, ?_, hr.version_pos⟩, check_bindRequest_iff.2 h.text, fun e he id heq => ?_⟩,
    fun p arg hnew => ?_⟩
  · rw [hr.interface_eq]
    rfl
  · rcases List.mem_cons.1 he with rfl | he
    · cases heq
    · rw [List.mem_singleton.1 he] at heq
      cases heq
  · obtain ⟨rfl, rfl⟩ := newIdOf_unique newIdOf_bindRequest hnew
    exact ⟨interface, version, id, i, .generic rfl, h.provided, h.usable⟩

/-- It is not valid otherwise. -/
theorem exists_bindable_of_valid (hr : c.Registrar r o) {target : Object (Implementation K.Handler)}
    {method : Method} (h : c.Valid (bindRequest r name interface version id) target method) :
    ∃ i, c.Bindable interface version id i := by
  have htarget := h.live
  rw [show (bindRequest r name interface version id).object = r from rfl, hr.live] at htarget
  injection htarget with htarget
  subst htarget
  have hmethod := h.method_eq
  rw [hr.interface_eq] at hmethod
  obtain rfl : bindMethod = method := Option.some.inj hmethod
  obtain ⟨_, _, _, i, hdescribes, hlookup, husable⟩ := h.creates _ _ newIdOf_bindRequest
  cases hdescribes with
  | generic _ => exact ⟨i, check_bindRequest_iff.1 h.check_eq, hlookup, husable⟩

end

end Connection

/-! ## The global -/

namespace Globals

section
variable {β : Type} {globals : Globals β} {name version : UInt32} {interface : String}

/-- The global of that name is of the interface that the client takes it for, and can be bound at the version
that it wants. -/
structure Provides (globals : Globals β) (name : UInt32) (interface : String) (version : UInt32)
    (g : Global β) : Prop where
  named : globals.get? name = some g
  interface_eq : g.interface = interface
  version_le : version ≤ g.version

/-- There is no such global, and what the client is told about that. -/
inductive Lacks (globals : Globals β) (name : UInt32) (interface : String) (version : UInt32) :
    String → Prop where
  | unknown : (∀ g, globals.get? name = some g → g.interface ≠ interface) →
      Lacks globals name interface version s!"invalid global {interface} ({Text.decimal name.toNat})"
  | low {g : Global β} : globals.get? name = some g → g.interface = interface → g.version < version →
      Lacks globals name interface version
        s!"invalid version for global {interface} ({Text.decimal name.toNat}): have {Text.decimal g.version.toNat}, wanted {Text.decimal version.toNat}"

theorem exists_lacks (h : ∀ g, ¬ globals.Provides name interface version g) :
    ∃ text, globals.Lacks name interface version text := by
  by_cases hknown : ∀ g, globals.get? name = some g → g.interface ≠ interface
  · exact ⟨_, .unknown hknown⟩
  · obtain ⟨g, hg⟩ := Classical.not_forall.1 hknown
    obtain ⟨hnamed, hinterface⟩ := Classical.not_imp.1 hg
    rw [Decidable.not_not] at hinterface
    exact ⟨_, .low hnamed hinterface (UInt32.not_le.1 fun hle => h g ⟨hnamed, hinterface, hle⟩)⟩

end

end Globals

/-! ## The script of the registry -/

section
variable {app : Application} {owner id : ObjectId} {name version : UInt32} {interface : String} {r : Request}
  {c c' : Connection app.toKit}

/-- A new object that is taken back is destroyed, and the error says why. -/
theorem Script.does_reject (hdestroy : c.destroy app id = (.ok (), c')) (text : String) :
    (reject id text : Script app.toKit Unit).run.Does owner c [.destroy id]
      (.error ⟨Core.invalidObject, text⟩) c' :=
  Script.does_bind (Script.does_destroy hdestroy) (Script.does_throw _ c')

/-- Without such a global, the registry takes the new object back. -/
theorem does_registryRequest_of_lacks {text : String} (hopcode : r.opcode = Core.bindOpcode)
    (hargs : r.args = [.uint name, .genericNewId interface version id])
    (hlacks : c.globals.Lacks name interface version text) (hdestroy : c.destroy app id = (.ok (), c')) :
    (registryRequest app.bind r : Script app.toKit Unit).run.Does owner c [.destroy id]
      (.error ⟨Core.invalidObject, text⟩) c' := by
  obtain ⟨object, opcode, v, i, args⟩ := r
  dsimp only at hopcode hargs
  subst hopcode hargs
  show Program.Does owner _ c ([] ++ ([] ++ [.destroy id])) _ _
  refine Script.does_bind (Script.does_ofExcept (.ok name) c) (Script.does_bind (Script.does_globals c) ?_)
  cases hlacks with
  | unknown hother =>
    have hnone : (c.globals.get? name).filter (·.interface == interface) = none :=
      Option.filter_eq_none_iff.2 fun g hg => fun heq => hother g hg (eq_of_beq heq)
    rw [hnone]
    exact Script.does_reject hdestroy _
  | @low g hnamed hinterface hlow =>
    have hsome : (c.globals.get? name).filter (·.interface == interface) = some g :=
      Option.filter_eq_some_iff.2 ⟨hnamed, beq_iff_eq.2 hinterface⟩
    rw [hsome]
    dsimp only
    rw [if_pos hlow]
    exact Script.does_reject hdestroy _

/-- Has the function of a global make a handler, and installs that. -/
def startBinding (app : Application) (g : Global app.Binder) (id : ObjectId) (version : UInt32) :
    Script app.toKit Unit := do
  let handler ← app.bind g.binder id version
  let _ ← Script.bind id (.application handler)

/-- Where there is one, this is what the registry does. -/
theorem does_registryRequest_of_provides {g : Global app.Binder} {as : List (Action app.toKit)}
    {result : Except AppError Unit} (hopcode : r.opcode = Core.bindOpcode)
    (hargs : r.args = [.uint name, .genericNewId interface version id])
    (hprovides : c.globals.Provides name interface version g)
    (hstart : (startBinding app g id version).run.Does owner c as result c') :
    (registryRequest app.bind r : Script app.toKit Unit).run.Does owner c as result c' := by
  obtain ⟨object, opcode, v, i, args⟩ := r
  dsimp only at hopcode hargs
  subst hopcode hargs
  have hsome : (c.globals.get? name).filter (·.interface == interface) = some g :=
    Option.filter_eq_some_iff.2 ⟨hprovides.named, beq_iff_eq.2 hprovides.interface_eq⟩
  show Program.Does owner _ c ([] ++ ([] ++ as)) _ _
  refine Script.does_bind (Script.does_ofExcept (.ok name) c) (Script.does_bind (Script.does_globals c) ?_)
  rw [hsome]
  dsimp only
  rw [if_neg (UInt32.not_lt.2 hprovides.version_le)]
  exact hstart

/-- The action of installing the handler that a function makes. -/
def installation {K : Kit} (id : ObjectId) : Except AppError K.Handler → List (Action K)
  | .ok handler => [.bind id (.application handler)]
  | .error _ => []

/-- Binding lets the function run, and then installs its handler.  An error of the function is the error of
the whole. -/
theorem exists_does_startBinding (g : Global app.Binder) (version : UInt32) (howner : id ≠ owner)
    (c : Connection app.toKit) :
    let p := (app.bind g.binder id version).run
    ∃ result c', (startBinding app g id version).run.Does owner c
        (p.actions app owner c ++ installation id (p.run app owner c).1) result c' ∧
      (∀ e c₂, p.run app owner c = (.error e, c₂) → result = .error e ∧ c' = c₂) ∧
      (∀ handler c₂ h c₃, p.run app owner c = (.ok handler, c₂) →
        c₂.bind id (.application handler) = (.ok h, c₃) → result = .ok () ∧ c' = c₃) := by
  intro p
  cases hrun : p.run app owner c with
  | mk made c₂ =>
    have hstart : p.Does owner c (p.actions app owner c) made c₂ := ⟨rfl, hrun⟩
    cases made with
    | error e =>
      refine ⟨.error e, c₂, ?_, fun e' c₂' heq => ?_, fun _ _ _ _ heq => ?_⟩
      · rw [installation, List.append_nil]
        exact Script.does_bind_error hstart
      · cases heq
        exact ⟨rfl, rfl⟩
      · cases heq
    | ok handler =>
      cases hbind : c₂.bind id (.application handler) with
      | mk installed c₃ =>
        cases installed with
        | error e =>
          have hinstall := Script.does_install_error howner hbind
          refine ⟨.error (.ofRefusal e), c₃, ?_, fun _ _ heq => ?_, fun _ _ _ _ heq hbind' => ?_⟩
          · exact Script.does_bind hstart (Script.does_bind_error hinstall)
          · cases heq
          · cases heq
            rw [hbind] at hbind'
            cases hbind'
        | ok h =>
          have hinstall := Script.does_install howner hbind
          refine ⟨.ok (), c₃, ?_, fun _ _ heq => ?_, fun _ _ _ _ heq hbind' => ?_⟩
          · refine Script.does_bind hstart ?_
            show Program.Does owner _ c₂ ([.bind id (.application handler)] ++ []) _ _
            exact Script.does_bind hinstall (Script.does_pure () c₃)
          · cases heq
          · cases heq
            rw [hbind] at hbind'
            cases hbind'
            exact ⟨rfl, rfl⟩

end

/-! ## The new object -/

/-- In these episodes the object behind a handle does not leave, and is given no implementation. -/
structure Untouched {K : Kit} (h : Handle) (es : List (Episode K)) : Prop where
  stays : .left h ∉ es
  unbound : ∀ i, .installed h i ∉ es

section
variable {app : Application} {h : Handle} {c : Connection app.toKit}

theorem Untouched.of_append {K : Kit} {es es' : List (Episode K)} (hes : Untouched h (es ++ es')) :
    Untouched h es ∧ Untouched h es' := by
  constructor
  · exact ⟨fun hmem => hes.stays (List.mem_append_left _ hmem),
      fun i hmem => hes.unbound i (List.mem_append_left _ hmem)⟩
  · exact ⟨fun hmem => hes.stays (List.mem_append_right _ hmem),
      fun i hmem => hes.unbound i (List.mem_append_right _ hmem)⟩

/-- No action opens a connection that has stopped. -/
theorem Action.isOpen_of_apply {a : Action app.toKit} (hopen : (a.apply app c).isOpen) : c.isOpen := by
  have heffect := a.effect c
  generalize a.apply app c = c' at hopen heffect
  cases heffect with
  | none _ _ hopens => exact hopens hopen
  | inserted hinserts => exact hinserts.isOpen_eq ▸ hopen
  | bound _ _ => exact hopen
  | taken => exact hopen
  | returned => exact hopen
  | removed _ _ _ hopens => exact hopens hopen
  | closed _ _ hclosed =>
    rw [hclosed] at hopen
    cases hopen

theorem isOpen_of_replay {as : List (Action app.toKit)} :
    ∀ {c : Connection app.toKit}, (replay app as c).isOpen → c.isOpen := by
  induction as with
  | nil => exact id
  | cons a as ih => exact fun hopen => Action.isOpen_of_apply (ih hopen)

/-- A plain action that leaves the connection open leaves an object alone, unless it ends it or gives it an
implementation. -/
theorem Action.behind_of_untouched {running : Option ObjectId} {a : Action app.toKit}
    (hplain : a.IsPlain running) (hroom : 12 ≤ c.outbound.limit) (hopen : (a.apply app c).isOpen)
    {o : Object (Implementation app.Handler)} (hlive : c.table.behind h = some o)
    (huntouched : Untouched h (a.episodes app c)) : (a.apply app c).table.behind h = some o := by
  have hbefore := isOpen_of_apply hopen
  have heffect := a.effect c
  obtain ⟨hget, hgeneration⟩ := Table.behind_eq_some_iff.1 hlive
  rw [Table.behind_eq_some_iff]
  refine ⟨?_, hgeneration⟩
  generalize a.apply app c = c' at hopen heffect
  cases heffect with
  | none _ hobjects _ => rw [hobjects, hget]
  | inserted hinserts => exact hinserts.get?_of_get? hget
  | @bound id i o' hget' hunbound =>
    dsimp only
    rw [Table.get?_modify]
    split
    · rename_i hid
      rw [← hid, hget] at hget'
      injection hget' with heq
      subst heq
      have hbind := Connection.bind_of_get hbefore (Table.get_eq_ok_iff_get?.2 hget) hunbound i
      refine absurd ?_ (huntouched.unbound i)
      unfold episodes
      dsimp only
      rw [← hid, hbind, hgeneration]
      exact List.mem_singleton.2 rfl
    · exact hget
  | taken => exact hplain.elim
  | returned => exact hplain.elim
  | @removed id _ hdisplay _ hobjects _ =>
    rw [hobjects, Objects.Directory.get?_erase]
    split
    · rename_i hid
      obtain ⟨_, -, hdestroyed⟩ :=
        Connection.exists_destroyed hbefore hroom (Table.get_eq_ok_iff_get?.2 hget) (hid ▸ hdisplay)
      refine absurd ?_ huntouched.stays
      rw [← hid, hdestroyed.episodes, Episode.departure]
      dsimp only
      rw [hgeneration]
      exact List.mem_cons_self ..
    · exact hget
  | closed _ _ hclosed =>
    rw [hclosed] at hopen
    cases hopen

/-- So do plain actions one after the other. -/
theorem behind_of_untouched {running : Option ObjectId} {as : List (Action app.toKit)} :
    ∀ {c : Connection app.toKit}, (∀ a ∈ as, a.IsPlain running) → 12 ≤ c.outbound.limit →
      (replay app as c).isOpen → ∀ {o : Object (Implementation app.Handler)}, c.table.behind h = some o →
        Untouched h (episodes app as c) → (replay app as c).table.behind h = some o := by
  induction as with
  | nil => exact fun _ _ _ _ hlive _ => hlive
  | cons a as ih =>
    intro c hplain hroom hopen o hlive huntouched
    rw [List.forall_mem_cons] at hplain
    obtain ⟨hfirst, hrest⟩ := huntouched.of_append
    have hroom' : 12 ≤ (a.apply app c).outbound.limit := by
      rw [(a.keeps c).limit_eq]
      exact hroom
    have hlive' := Action.behind_of_untouched hplain.1 hroom (isOpen_of_replay hopen) hlive hfirst
    exact ih hplain.2 hroom' hopen hlive' hrest

/-- So does a program. -/
theorem Program.behind_of_untouched {α : Type} {p : Program app.toKit α} {owner : ObjectId} {a : α}
    {c' : Connection app.toKit} (hrun : p.run app owner c = (a, c')) (hroom : 12 ≤ c.outbound.limit)
    (hopen : c'.isOpen) {o : Object (Implementation app.Handler)} (hlive : c.table.behind h = some o)
    (huntouched : Untouched h (episodes app (p.actions app owner c) c)) : c'.table.behind h = some o := by
  have hreplay := p.replay_run app owner c
  rw [hrun] at hreplay
  dsimp only at hreplay
  subst hreplay
  exact Sessions.behind_of_untouched (p.isPlain_of_mem_actions app) hroom hopen hlive huntouched

end

/-! ## Handling the request -/

namespace Connection

section
variable {app : Application} {c : Connection app.toKit} {r id : ObjectId} {name version : UInt32}
  {interface : String} {o : Object (Implementation app.Handler)} {i : Interface}

/-- The connection after a registry has been given back its implementation, and an error of its script has been
reported. -/
def concluded (app : Application) (c : Connection app.toKit) (r : ObjectId) (generation : Nat) :
    Except AppError Unit → Connection app.toKit
  | .ok () => c.giveBack app r generation .registry
  | .error e => ((c.giveBack app r generation .registry).postError app r e.code e.text).2

/-- The actions of reporting that error. -/
def conclusion (app : Application) (c : Connection app.toKit) (r : ObjectId) (generation : Nat) :
    Except AppError Unit → List (Action app.toKit)
  | .ok () => []
  | .error e => (c.giveBack app r generation .registry).postErrorActions app r e.code e.text

/-- What an implementation does that is a registry is what its script does. -/
theorem invoke_registry (q : Request) (generation : Nat) {as : List (Action app.toKit)}
    {result : Except AppError Unit} {c' : Connection app.toKit}
    (hdoes : (registryRequest app.bind q : Script app.toKit Unit).run.Does q.object c as result c') :
    c.invokeActions app generation .registry q =
        as ++ .giveBack q.object generation .registry :: c'.conclusion app q.object generation result ∧
      c.invoke app generation .registry q = c'.concluded app q.object generation result := by
  have hresponds : (app.respond .registry q).Does q.object c (as ++ []) (.registry, result) c' :=
    Program.Does.andThen hdoes ⟨rfl, rfl⟩
  rw [List.append_nil] at hresponds
  unfold invokeActions invoke
  dsimp only
  rw [hresponds.actions_eq, hresponds.run_eq]
  cases result with
  | ok _ => exact ⟨rfl, rfl⟩
  | error e => exact ⟨rfl, rfl⟩

/-- A registry handles a request for an object that can be inserted, and finds it in place. -/
theorem Bindable.handled (h : c.Bindable interface version id i) (hopen : c.isOpen) (hr : c.Registrar r o)
    (name : UInt32) :
    let m := bindRequest r name interface version id
    let before := [.insertCreated o.version bindMethod.signature.params m.args, .take r]
    ∃ c₁, c.Prepared m o bindMethod c₁ ∧ replay app before c = c₁ ∧
      c₁.table.get id = .ok ⟨i, version, c.table.nextGeneration, none⟩ ∧
        ∀ {as result c'}, (registryRequest app.bind ⟨r, m.opcode, o.version, o.interface, m.args⟩ :
          Script app.toKit Unit).run.Does r c₁ as result c' →
            c.dispatchActions app m =
              before ++ (as ++ .giveBack r o.generation .registry :: c'.conclusion app r o.generation result) ∧
            c.dispatch app m = (.ok (), c'.concluded app r o.generation result) := by
  intro m before
  have hvalid : c.Valid m o bindMethod := h.valid hr name
  obtain ⟨c₁, hprepared, hreplay, hactions⟩ := dispatchActions_of_bound hopen hvalid hr.bound
  refine ⟨c₁, hprepared, hreplay, ?_, fun {as result c'} hdoes => ?_⟩
  · obtain ⟨_, _, _, j, hdescribes, hlookup, hcreated⟩ := hprepared.created _ _ newIdOf_bindRequest
    cases hdescribes with
    | generic _ =>
      rw [h.provided] at hlookup
      injection hlookup with hlookup
      rw [hlookup]
      exact hcreated
  · let q : Request := ⟨r, m.opcode, o.version, o.interface, m.args⟩
    obtain ⟨hinvokeActions, hinvoke⟩ := invoke_registry q o.generation hdoes
    -- the request is no destructor
    have hnone : (c₁.invoke app o.generation .registry q).endOfLifeActions app r o.generation bindMethod =
        [] := if_neg fun hends => Bool.false_ne_true hends.1
    have hall : c.dispatchActions app m = before ++ (c₁.invokeActions app o.generation .registry q ++
      (c₁.invoke app o.generation .registry q).endOfLifeActions app r o.generation bindMethod) := hactions
    rw [hnone, List.append_nil, hinvokeActions] at hall
    refine ⟨hall, Prod.ext ?_ ?_⟩
    · obtain ⟨_, -, hdispatch⟩ := dispatch_of_bound hvalid hr.bound
      rw [hdispatch]
    · have hbefore : replay app before c = c₁ := hreplay
      rw [← replay_dispatch app hopen, hall, replay_append, hbefore, ← hinvokeActions, replay_invoke, hinvoke]

/-- Giving back an implementation neither stops the connection nor queues anything. -/
theorem giveBack_keeps (c : Connection app.toKit) (r : ObjectId) (generation : Nat)
    (i : Implementation app.Handler) : (c.giveBack app r generation i).isOpen = c.isOpen ∧
      (c.giveBack app r generation i).outbound = c.outbound := by
  rcases c.giveBack_cases app r generation i with ⟨o, -, -, heq⟩ | ⟨-, heq⟩
  · rw [heq]
    exact ⟨rfl, rfl⟩
  · rw [heq]
    exact ⟨rfl, rfl⟩

/-- It is nothing to other objects. -/
theorem get?_giveBack_of_ne (c : Connection app.toKit) (generation : Nat) (i : Implementation app.Handler)
    (hid : id ≠ r) :
    (c.giveBack app r generation i).table.objects.get? id = c.table.objects.get? id := by
  rcases c.giveBack_cases app r generation i with ⟨o, -, -, heq⟩ | ⟨-, heq⟩
  · rw [heq]
    dsimp only
    rw [Table.get?_modify, if_neg hid]
  · rw [heq]

/-- Where errors can be reported, that of the script is. -/
theorem concluded_error {limit : Nat} (hc : Reporting limit c) (hroom : leastErrorSize ≤ limit)
    (hopen : c.isOpen) (r : ObjectId) (generation : Nat) (e : AppError) :
    c.concluded app r generation (.error e) = { c.giveBack app r generation .registry with
      outbound := c.outbound.append (errorEvent limit r e.code e.text) } := by
  have hback : Reporting limit (c.giveBack app r generation .registry) :=
    Reporting.apply (.giveBack r generation .registry) c hc
  obtain ⟨hopens, houtbound⟩ := c.giveBack_keeps r generation .registry
  rw [concluded, hback.postError_eq (hopens.trans hopen) hroom, houtbound]

/-! ### No such global -/

/-- A new object has been taken back: it is gone, the client is told so and why, and all else is as before. -/
structure Rejected {K : Kit} (limit : Nat) (c : Connection K) (r id : ObjectId) (text : String)
    (c' : Connection K) : Prop where
  objects : ∀ x, c'.table.objects.get? x = c.table.objects.get? x
  dead : c'.table.contains id = false
  /-- First the deletion is queued, and then the error. -/
  outbound : c'.outbound = (c.outbound.append (deletion id)).append (errorEvent limit r Core.invalidObject text)
  acks : c'.pendingAcks = c.pendingAcks ++ [id]
  others : c'.client = c.client ∧ c'.registry = c.registry ∧ c'.globals = c.globals ∧ c'.state = c.state ∧
    c'.serial = c.serial ∧ c'.world = c.world

/-- An object that lends its implementation gets it back. -/
theorem giveBack_of_lent (hget : c.table.get r = .ok o) (hlent : o.implementation = none)
    (i : Implementation app.Handler) : c.giveBack app r o.generation i =
      { c with table := c.table.modify r fun o => { o with implementation := some i } } := by
  unfold giveBack
  rw [hget]
  refine if_pos ⟨rfl, ?_⟩
  rw [Object.isBound, hlent]
  rfl

/-- Once the new object is destroyed again and the registry object has its implementation back, the objects are
those that there were. -/
theorem Bindable.objects_of_destroyed (h : c.Bindable interface version id i) (hr : c.Registrar r o)
    {c₁ c₂ : Connection app.toKit}
    (hprepared : c.Prepared (bindRequest r name interface version id) o bindMethod c₁)
    {new : Object (Implementation app.Handler)} (hdestroyed : Destroyed app c₁ id new c₂) :
    c₂.table.get r = .ok { o with implementation := none } ∧
      ∀ x, (c₂.table.modify r fun o => { o with implementation := some .registry }).objects.get? x =
        c.table.objects.get? x := by
  have hlive := Table.get_eq_ok_iff_get?.1 hr.live
  have hlent : c₂.table.objects.get? r = some { o with implementation := none } := by
    rw [hdestroyed.objects, Objects.Directory.get?_erase, if_neg (h.usable.ne_of_get? hlive)]
    exact Table.get_eq_ok_iff_get?.1 hprepared.lent
  refine ⟨Table.get_eq_ok_iff_get?.2 hlent, fun x => ?_⟩
  rw [Table.get?_modify]
  split
  · rename_i heq
    rw [heq, hlent, hlive, ← hr.bound]
    rfl
  · rename_i hx
    rw [hdestroyed.objects, Objects.Directory.get?_erase]
    split
    · rename_i heq
      rw [heq]
      exact (Table.contains_eq_false_iff.1 h.usable.dead).symm
    · rename_i hid
      refine hprepared.others x hx fun hcreated => hid ?_
      injection hcreated with hcreated
      exact hcreated.symm

/-- Where there is no such global, the new object is taken back. -/
theorem Bindable.rejected (h : c.Bindable interface version id i) {limit : Nat} (hc : Reporting limit c)
    (hroom : leastErrorSize ≤ limit) (hopen : c.isOpen) (hr : c.Registrar r o) {text : String}
    (hlacks : c.globals.Lacks name interface version text) :
    (c.dispatch app (bindRequest r name interface version id)).1 = .ok () ∧
      c.Rejected limit r id text (c.dispatch app (bindRequest r name interface version id)).2 := by
  obtain ⟨c₁, hprepared, hreplay, hnew, hhandled⟩ := h.handled hopen hr name
  have hrest := hprepared.rest
  have hreporting₁ : Reporting limit c₁ := hreplay ▸ replay_preserves Reporting.apply _ hc
  have hopen₁ : c₁.isOpen := by
    rw [hrest]
    exact hopen
  have hlacks₁ : c₁.globals.Lacks name interface version text := by
    rw [hrest]
    exact hlacks
  -- the new object is destroyed
  obtain ⟨_, hdisplay, -⟩ := hc.display hopen
  obtain ⟨c₂, hdestroy, hdestroyed⟩ :=
    exists_destroyed hopen₁ (hreporting₁.room hroom) hnew (h.usable.ne_of_get? hdisplay).symm
  obtain ⟨-, hdispatch⟩ := hhandled (does_registryRequest_of_lacks rfl rfl hlacks₁ hdestroy)
  obtain ⟨houtbound, hacks⟩ := hdestroyed.client h.usable.side
  obtain ⟨hclient, hregistry, hglobals, hstate, hserial⟩ := hdestroyed.others
  have hopen₂ : c₂.isOpen := by
    rw [isOpen_iff] at hopen₁ ⊢
    exact hstate.trans hopen₁
  -- the registry object is still there, and gets its implementation back
  obtain ⟨hlent, hobjects⟩ := h.objects_of_destroyed hr hprepared hdestroyed
  have hback : c₂.giveBack app r o.generation .registry = { c₂ with
      table := c₂.table.modify r fun o => { o with implementation := some .registry } } :=
    giveBack_of_lent hlent rfl .registry
  have hreporting₂ := hreporting₁.destroy id
  rw [hdestroy] at hreporting₂
  rw [hdispatch, concluded_error hreporting₂ hroom hopen₂, hback]
  refine ⟨rfl, hobjects, ?_, ?_, ?_, ?_⟩
  · exact (congrArg Option.isSome (hobjects id)).trans h.usable.dead
  · dsimp only
    rw [houtbound, hrest]
  · dsimp only
    rw [hacks, hrest]
  · dsimp only
    rw [hclient, hregistry, hglobals, hstate, hserial, hdestroyed.world, hrest]
    exact ⟨rfl, rfl, rfl, rfl, rfl, rfl⟩

/-! ### The function of a global -/

/-- Reporting an error queues at most one event, an error of the display. -/
theorem postErrorActions_cases {limit : Nat} (hc : Reporting limit c) (target : ObjectId) (code : UInt32)
    (text : String) : c.postErrorActions app target code text = [] ∨
      ∃ args, c.postErrorActions app target code text = [.queue .display Core.errorOpcode args] := by
  unfold postErrorActions
  generalize [Arg.object (some target), .uint code, .string (some (errorText c.outbound.limit text))] = args
  unfold postActions
  cases hencode : c.encodeEvent .display Core.errorOpcode args with
  | error e => exact .inl rfl
  | ok p =>
    obtain ⟨m, outbound⟩ := p
    obtain ⟨hopen, o, hget, hmethod, -⟩ := encodeEvent_eq_ok_iff.1 hencode
    obtain ⟨o', hlive, hinterface, -⟩ := hc.display hopen
    rw [Table.get_eq_ok_iff_get?.1 hget] at hlive
    injection hlive with heq
    subst heq
    rw [hinterface] at hmethod
    dsimp only
    rw [destructor_display hmethod]
    exact .inr ⟨args, rfl⟩

/-- What comes of a request `m` for a global whose function is the program `p`, which finds the new object in
the connection `c₁`. -/
structure Granted (app : Application) (limit : Nat) (c : Connection app.toKit) (m : Message)
    (o : Object (Implementation app.Handler)) (id : ObjectId) (i : Interface) (version : UInt32)
    (p : Program app.toKit (Except AppError app.Handler)) (c₁ : Connection app.toKit) : Prop where
  prepared : c.Prepared m o bindMethod c₁
  fresh : c₁.table.get id = .ok ⟨i, version, c.table.nextGeneration, none⟩
  accepted : (c.dispatch app m).1 = .ok ()
  /-- The program runs once.  After it there is nothing but the installation of what it has made, the return of
  the registry, and at most one report. -/
  once : ∃ reports, c.dispatchActions app m =
      .insertCreated o.version bindMethod.signature.params m.args :: .take m.object ::
        (p.actions app m.object c₁ ++ (installation id (p.run app m.object c₁).1 ++
          .giveBack m.object o.generation .registry :: reports)) ∧
    (reports = [] ∨ ∃ args, reports = [.queue .display Core.errorOpcode args])
  /-- If it makes a handler, has not stopped the connection and has left the new object alone, the object is
  there with that handler. -/
  bound : ∀ handler c₂, p.run app m.object c₁ = (.ok handler, c₂) → c₂.isOpen →
    Untouched ⟨id, c.table.nextGeneration⟩ (episodes app (p.actions app m.object c₁) c₁) →
      (c.dispatch app m).2.isOpen ∧ (c.dispatch app m).2.outbound = c₂.outbound ∧
        (c.dispatch app m).2.table.get id =
          .ok ⟨i, version, c.table.nextGeneration, some (.application handler)⟩
  /-- If it raises an error instead, the object is there without a handler, and the error is reported about the
  registry object. -/
  failed : ∀ e c₂, p.run app m.object c₁ = (.error e, c₂) → c₂.isOpen →
    Untouched ⟨id, c.table.nextGeneration⟩ (episodes app (p.actions app m.object c₁) c₁) →
      (c.dispatch app m).2.isOpen ∧
        (c.dispatch app m).2.outbound = c₂.outbound.append (errorEvent limit m.object e.code e.text) ∧
          (c.dispatch app m).2.table.get id = .ok ⟨i, version, c.table.nextGeneration, none⟩

/-- Where there is such a global, its function is the program. -/
theorem Bindable.granted (h : c.Bindable interface version id i) {limit : Nat} (hc : Reporting limit c)
    (hroom : leastErrorSize ≤ limit) (hopen : c.isOpen) (hr : c.Registrar r o) {g : Global app.Binder}
    (hprovides : c.globals.Provides name interface version g) :
    ∃ c₁, c.Granted app limit (bindRequest r name interface version id) o id i version
      (app.bind g.binder id version).run c₁ := by
  obtain ⟨c₁, hprepared, hreplay, hnew, hhandled⟩ := h.handled hopen hr name
  have hreporting : Reporting limit c₁ := hreplay ▸ replay_preserves Reporting.apply _ hc
  have hid : id ≠ r := (h.usable.ne_of_get? (Table.get_eq_ok_iff_get?.1 hr.live)).symm
  have hroom₁ := hreporting.room hroom
  have hprovides₁ : c₁.globals.Provides name interface version g := by
    rw [hprepared.rest]
    exact hprovides
  have hlive : c₁.table.behind ⟨id, c.table.nextGeneration⟩ = some ⟨i, version, c.table.nextGeneration, none⟩ :=
    Table.behind_eq_some_iff.2 ⟨Table.get_eq_ok_iff_get?.1 hnew, rfl⟩
  obtain ⟨result, c', hdoes, herror, hok⟩ := exists_does_startBinding g version hid c₁
  obtain ⟨hactions, hdispatch⟩ := hhandled (does_registryRequest_of_provides rfl rfl hprovides₁ hdoes)
  have hreporting' : Reporting limit c' := hdoes.replay_eq ▸ replay_preserves Reporting.apply _ hreporting
  have hback : Reporting limit (c'.giveBack app r o.generation .registry) :=
    Reporting.apply (.giveBack r o.generation .registry) c' hreporting'
  refine ⟨c₁, hprepared, hnew, ?_, ⟨c'.conclusion app r o.generation result, ?_, ?_⟩, ?_, ?_⟩
  · rw [hdispatch]
  · rw [hactions, List.append_assoc]
    rfl
  · cases result with
    | ok _ => exact .inl rfl
    | error e => exact postErrorActions_cases hback r e.code e.text
  · intro handler c₂ hrun hopen₂ huntouched
    have hfresh := (Table.behind_eq_some_iff.1
      (Program.behind_of_untouched hrun hroom₁ hopen₂ hlive huntouched)).1
    have hget := Table.get_eq_ok_iff_get?.2 hfresh
    obtain ⟨rfl, rfl⟩ := hok handler c₂ _ _ hrun (bind_of_get hopen₂ hget rfl (.application handler))
    obtain ⟨hopens, houtbound⟩ := giveBack_keeps { c₂ with
      table := c₂.table.modify id fun o => { o with implementation := some (.application handler) } } r
      o.generation .registry
    rw [hdispatch]
    refine ⟨hopens.trans hopen₂, houtbound, ?_⟩
    rw [Table.get_eq_ok_iff_get?]
    exact (get?_giveBack_of_ne _ o.generation .registry hid).trans
      (Table.get_eq_ok_iff_get?.1 (get_modify_of_get hget))
  · intro e c₂ hrun hopen₂ huntouched
    have hfresh := (Table.behind_eq_some_iff.1
      (Program.behind_of_untouched hrun hroom₁ hopen₂ hlive huntouched)).1
    obtain ⟨rfl, rfl⟩ := herror e c₂ hrun
    rw [hdispatch, concluded_error hreporting' hroom hopen₂]
    refine ⟨(c'.giveBack_keeps r o.generation .registry).1.trans hopen₂, rfl, ?_⟩
    rw [Table.get_eq_ok_iff_get?]
    exact (get?_giveBack_of_ne c' o.generation .registry hid).trans hfresh

/-! ### All of it -/

/-- What becomes of a client's request for a global. -/
structure Binds (app : Application) (limit : Nat) (c : Connection app.toKit) (r : ObjectId)
    (o : Object (Implementation app.Handler)) (name : UInt32) (interface : String) (version : UInt32)
    (id : ObjectId) : Prop where
  /-- It is refused exactly if something is wrong with the object that it is to create. -/
  refused_iff : (∃ v, (c.dispatch app (bindRequest r name interface version id)).1 = .error v) ↔
    c.Unbindable interface version id
  /-- Otherwise that is taken back if there is no such global, -/
  rejected : ¬ c.Unbindable interface version id → (∀ g, ¬ c.globals.Provides name interface version g) →
    ∃ text, c.globals.Lacks name interface version text ∧
      (c.dispatch app (bindRequest r name interface version id)).1 = .ok () ∧
        c.Rejected limit r id text (c.dispatch app (bindRequest r name interface version id)).2
  /-- and handed over to the function of the global if there is one. -/
  granted : ¬ c.Unbindable interface version id → ∀ g, c.globals.Provides name interface version g →
    ∃ i c₁, c.registry.lookup interface version = .ok i ∧
      c.Granted app limit (bindRequest r name interface version id) o id i version
        (app.bind g.binder id version).run c₁

/-- What becomes of such a request where errors can be reported. -/
theorem Registrar.binds (hr : c.Registrar r o) {limit : Nat} (hc : Reporting limit c)
    (hroom : leastErrorSize ≤ limit) (hopen : c.isOpen) (name : UInt32) (interface : String) (version : UInt32)
    (id : ObjectId) : c.Binds app limit r o name interface version id where
  refused_iff := by
    rw [← not_iff_not, ← exists_bindable_iff]
    constructor
    · intro hnot
      cases hdispatch : (c.dispatch app (bindRequest r name interface version id)).1 with
      | ok _ =>
        obtain ⟨_, _, hvalid⟩ := exists_valid_of_dispatch hdispatch
        exact exists_bindable_of_valid hr hvalid
      | error v => exact absurd ⟨v, hdispatch⟩ hnot
    · rintro ⟨i, h⟩ ⟨v, hrefused⟩
      obtain ⟨_, -, hdispatch⟩ := dispatch_of_bound (h.valid hr name) hr.bound
      rw [hdispatch] at hrefused
      cases hrefused
  rejected hright hnone := by
    obtain ⟨i, h⟩ := exists_bindable_iff.2 hright
    obtain ⟨text, hlacks⟩ := Globals.exists_lacks hnone
    exact ⟨text, hlacks, h.rejected hc hroom hopen hr hlacks⟩
  granted hright g hprovides := by
    obtain ⟨i, h⟩ := exists_bindable_iff.2 hright
    obtain ⟨c₁, hgranted⟩ := h.granted hc hroom hopen hr hprovides
    exact ⟨i, c₁, h.provided, hgranted⟩

end

end Connection

/-! ## The whole life of a session -/

section
variable {app : Application}

/-- A session fails over a request with a violation, whether the request is dispatched or is the next one in the
input. -/
structure Session.FailsOver (app : Application) (s : Session app.toKit) (m : Message) (v : Violation) :
    Prop where
  dispatched : (s.dispatch app m).1 = .error (.violation v) ∧ (s.dispatch app m).2.connection.isOpen = false
  received : ∀ rest, s.turn = .request m rest →
    (s.process app).1 = .error (.violation v) ∧ (s.process app).2.connection.isOpen = false

/-- An open session fails over the requests that its connection refuses. -/
theorem Session.failsOver_iff {s : Session app.toKit} (hopen : s.connection.isOpen) {m : Message}
    {v : Violation} : s.FailsOver app m v ↔ (s.connection.dispatch app m).1 = .error v := by
  cases hdispatch : s.connection.dispatch app m with
  | mk outcome connection =>
    cases outcome with
    | ok _ =>
      refine ⟨fun hfails => ?_, fun hrefused => by cases hrefused⟩
      have hviolation := hfails.dispatched.1
      rw [dispatch_of_handled app hopen hdispatch] at hviolation
      cases hviolation
    | error v' =>
      have hfailed := dispatch_of_refused app hopen hdispatch
      constructor
      · intro hfails
        have hviolation := hfails.dispatched.1
        rw [hfailed] at hviolation
        rw [eq_of_fail hviolation]
      · rintro ⟨⟩
        refine ⟨?_, fun rest hturn => ?_⟩
        · rw [hfailed]
          exact ⟨rfl, Connection.isOpen_fail app _ _ _⟩
        · have hrest : rest.connection.dispatch app m = (.error v, connection) := by
            rw [connection_of_turn hturn, hdispatch]
          rw [process_of_failed app (dispatchAll_of_refused app hturn hrest)]
          exact ⟨rfl, Connection.isOpen_fail app _ _ _⟩

/-- Whatever a session has been through, and whatever it has handled of the input that it holds: this is what
becomes of every request for a global, at every registry object that has the implementation of one, in a
session whose messages have room for an error event.  The requests that are refused are those that the session
fails over. -/
theorem binds_of_new {client : Nat} {registry : Registry} {globals : Globals app.Binder} {limits : Limits}
    {world : app.World} {s : Session app.toKit} (hcore : HasCore registry)
    (hnew : Session.new client registry globals limits world = .ok s) (hroom : 24 ≤ limits.maxMessageSize)
    (ops : List (Operation app.toKit)) {inbound : List UInt8} {fds : List Wire.Descriptor}
    {t : Session app.toKit} (hhandled : Handled app { s.performAll app ops with inbound, fds } t)
    (hopen : t.connection.isOpen) {r : ObjectId} {o : Object (Implementation app.Handler)}
    (hlive : t.connection.table.get r = .ok o) (hname : o.interface.name = Core.registryName)
    (hbound : o.implementation = some .registry) (name : UInt32) (interface : String) (version : UInt32)
    (id : ObjectId) :
    t.connection.Binds app (min limits.maxMessageSize Wire.maxMessageSize) r o name interface version id ∧
      ∀ v, t.FailsOver app (bindRequest r name interface version id) v ↔
        (t.connection.dispatch app (bindRequest r name interface version id)).1 = .error v := by
  have hreporting := hhandled.preserves Reporting.apply
    (Session.performAll_preserves Reporting.apply ops (Reporting.new hnew hcore.display))
  have htyped : Typed registry t.connection :=
    hhandled.preserves Typed.apply (Session.performAll_preserves Typed.apply ops (.new hnew))
  have hprovides := htyped.objects r o (Table.get_eq_ok_iff_get?.1 hlive)
  have hinterface : o.interface = Core.registry := by
    have hdefined := hprovides.defined
    rw [hname, hcore.registry] at hdefined
    exact (Option.some.inj hdefined).symm
  have hleast : leastErrorSize ≤ min limits.maxMessageSize Wire.maxMessageSize :=
    Nat.le_min.2 ⟨hroom, by decide⟩
  have hr : t.connection.Registrar r o := ⟨hlive, hinterface, hprovides.version_pos, hbound⟩
  exact ⟨hr.binds hreporting hleast hopen name interface version id, fun v => Session.failsOver_iff hopen⟩

end

/-! ### A client that asks for a lamp -/

def lampRegistryId : ObjectId := ⟨16, by decide⟩

/-- The client asks for a registry. -/
def lampRegistryRun : List (Operation Application.leaving.toKit) :=
  [.dispatch ⟨.display, Core.getRegistryOpcode, [.newId lampRegistryId]⟩]

/-- Then it binds the lamp. -/
theorem binds_of_new_sample :
    let s := Session.leaving.performAll .leaving lampRegistryRun
    HasCore ⟨Core.interfaces ++ [lamp]⟩ ∧
    Session.new 0 ⟨Core.interfaces ++ [lamp]⟩ ⟨[⟨1, "lamp", 1, ()⟩], 1⟩ {} () = .ok Session.leaving ∧
    s.connection.isOpen ∧ s.connection.globals.Provides 1 "lamp" 1 ⟨1, "lamp", 1, ()⟩ ∧
    ∃ o, s.connection.table.get lampRegistryId = .ok o ∧ o.interface.name = Core.registryName ∧
      o.implementation = some .registry ∧
        Connection.Binds .leaving 4096 s.connection lampRegistryId o 1 "lamp" 1 ⟨17, by decide⟩ ∧
          ∀ v, s.FailsOver .leaving (bindRequest lampRegistryId 1 "lamp" 1 ⟨17, by decide⟩) v ↔
            (s.connection.dispatch .leaving (bindRequest lampRegistryId 1 "lamp" 1 ⟨17, by decide⟩)).1 =
              .error v := by
  intro s
  have hcore : HasCore ⟨Core.interfaces ++ [lamp]⟩ := ⟨rfl, rfl⟩
  have hnew : Session.new 0 ⟨Core.interfaces ++ [lamp]⟩ ⟨[⟨1, "lamp", 1, ()⟩], 1⟩ {} () =
      .ok Session.leaving := rfl
  have hhandled : Handled .leaving
      { Session.leaving.performAll .leaving lampRegistryRun with inbound := [], fds := [] } s := .refl s
  refine ⟨hcore, hnew, rfl, ⟨rfl, rfl, by decide⟩, _, rfl, rfl, rfl, ?_⟩
  exact binds_of_new hcore hnew (by decide) lampRegistryRun hhandled rfl rfl rfl rfl 1 "lamp" 1
    ⟨17, by decide⟩

/-! ### A name that no message can carry -/

/-- An interface with a NUL in its name. -/
def mute : Interface where
  name := "a\x00b"
  version := 1

/-- A session that has this interface registered, as it is opened. -/
def Session.muted : Session Application.bare.toKit :=
  { Session.bare with
    connection := { Session.bare.connection with registry := ⟨Core.interfaces ++ [mute]⟩ } }

def muteRegistryId : ObjectId := ⟨18, by decide⟩

/-- The client asks for a registry. -/
def muteRun : List (Operation Application.bare.toKit) :=
  [.dispatch ⟨.display, Core.getRegistryOpcode, [.newId muteRegistryId]⟩]

/-- It cannot ask for an object of that interface, although the registry provides the interface and the id is
one that it can use. -/
theorem refused_mute_sample :
    let s := Session.muted.performAll .bare muteRun
    let m := bindRequest muteRegistryId 1 mute.name 1 ⟨19, by decide⟩
    Registry.build (Core.interfaces ++ [mute]) = .ok ⟨Core.interfaces ++ [mute]⟩ ∧
    Session.new 0 ⟨Core.interfaces ++ [mute]⟩ {} {} () = .ok Session.muted ∧ s.connection.isOpen ∧
    (∃ o, s.connection.Registrar muteRegistryId o) ∧
    s.connection.registry.lookup mute.name 1 = .ok mute ∧
    Connection.Usable s.connection.table ⟨19, by decide⟩ ∧
    (s.dispatch .bare m).1 = .error (.violation (.wire (.invalidString 1))) ∧
    (s.dispatch .bare m).2.connection.isOpen = false := by
  intro s m
  have hunused : s.connection.table.slot ⟨19, by decide⟩ = none := rfl
  refine ⟨rfl, rfl, rfl, ⟨_, rfl, rfl, by decide, rfl⟩, rfl, ⟨rfl, rfl, ?_⟩, ?_, ?_⟩
  · rw [hunused]
    exact nofun
  · decide +kernel
  · decide +kernel

end Compositor.Sessions
