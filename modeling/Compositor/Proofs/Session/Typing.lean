import Compositor.Proofs.Session.Attendance
import Compositor.Proofs.Session.Violations

/-
  The types of objects.

  An object never changes its interface nor its version, so what the registry provides when an object is
  inserted it provides as long as the object lives: `Typed` says so of all objects of a connection, and of
  the display, which lives as long as the connection is open.

  An object of a provided type has requests of a registered definition.  What these mention is registered
  as well, so a request whose new id is typed is never refused over the registry
  (`Connection.interface_of_refused`).
-/

namespace Compositor.Sessions

open Compositor.Wire (Arg Message ObjectId Param Signature)
open Compositor.Objects (Object Table TableError)
open Compositor.Protocol

/-! ## Types -/

/-- Every live object is of an interface and a version that the registry provides, and as long as the
connection is open the display is among them. -/
structure Typed {K : Kit} (registry : Registry) (c : Connection K) : Prop where
  registry_eq : c.registry = registry
  objects : ∀ id o, c.table.objects.get? id = some o → registry.Provides o.interface o.version
  display : c.isOpen → ∃ o, c.table.objects.get? .display = some o ∧ o.interface.name = Core.displayName ∧
    o.version = 1

namespace Typed

section
variable {K : Kit} {registry : Registry} {c c' : Connection K}

/-- Types are kept where no object comes in and the display does not leave. -/
theorem step (hc : Typed registry c) (hregistry : c'.registry = c.registry)
    (hobjects : ∀ id o', c'.table.objects.get? id = some o' → ∃ o, c.table.objects.get? id = some o ∧
      o'.interface = o.interface ∧ o'.version = o.version)
    (hdisplay : c'.isOpen → c.isOpen ∧ (c.table.objects.get? .display).isSome =
      (c'.table.objects.get? .display).isSome) : Typed registry c' where
  registry_eq := hregistry.trans hc.registry_eq
  objects id o' hlive := by
    obtain ⟨o, hlive, hinterface, hversion⟩ := hobjects id o' hlive
    rw [hinterface, hversion]
    exact hc.objects id o hlive
  display hopen := by
    obtain ⟨hopen, hstays⟩ := hdisplay hopen
    obtain ⟨o, hlive, hname, hversion⟩ := hc.display hopen
    rw [hlive] at hstays
    obtain ⟨o', hlive'⟩ := Option.isSome_iff_exists.1 hstays.symm
    obtain ⟨o'', hlive'', hinterface, hversion'⟩ := hobjects _ o' hlive'
    rw [hlive] at hlive''
    injection hlive'' with heq
    subst heq
    exact ⟨o', hlive', hinterface ▸ hname, hversion'.trans hversion⟩

/-- Installing an implementation and taking it out are no change of type. -/
theorem modify (hc : Typed registry c) (id : ObjectId) (implementation : Option (Implementation K.Handler)) :
    Typed registry { c with table := c.table.modify id fun o => { o with implementation } } := by
  refine hc.step rfl (fun other o' hlive => ?_) fun hopen => ⟨hopen, ?_⟩
  · change (c.table.modify id _).objects.get? other = some o' at hlive
    rw [Table.get?_modify] at hlive
    split at hlive
    · rename_i heq
      obtain ⟨o, hbefore, rfl⟩ := Option.map_eq_some_iff.1 hlive
      exact ⟨o, heq ▸ hbefore, rfl, rfl⟩
    · exact ⟨o', hlive, rfl, rfl⟩
  · change _ = ((c.table.modify id _).objects.get? .display).isSome
    rw [Table.get?_modify]
    split
    · rename_i heq
      rw [← heq, Option.isSome_map]
    · rfl

/-- What is inserted is of a type that the registry provides. -/
theorem insert (hc : Typed registry c) (h : c.Inserts c') : Typed registry c' := by
  have hkeeps : ∀ id o, c.table.objects.get? id = some o → c'.table.objects.get? id = some o :=
    fun _ _ => h.get?_of_get?
  obtain ⟨hprovides, hinsert⟩ := h
  refine ⟨hc.registry_eq, fun other o hlive => ?_, fun hopen => ?_⟩
  · dsimp only at hlive
    rw [Table.objects_insert hinsert, Objects.Directory.get?_put] at hlive
    split at hlive
    · injection hlive with heq
      rw [← heq]
      exact hc.registry_eq ▸ hprovides
    · exact hc.objects other o hlive
  · obtain ⟨o, hlive, htype⟩ := hc.display hopen
    exact ⟨o, hkeeps _ _ hlive, htype⟩

end

section
variable {app : Application} {registry : Registry} {c c' : Connection app.toKit}

/-- Every action keeps the types. -/
theorem effect (hc : Typed registry c) {a : Action app.toKit} (h : a.Effect app c c') :
    Typed registry c' := by
  cases h with
  | none hregistry hobjects hopen =>
    refine hc.step hregistry (fun id o hlive => ⟨o, ?_, rfl, rfl⟩) fun h => ⟨hopen h, ?_⟩
    · rw [← hobjects, hlive]
    · rw [hobjects]
  | inserted hinserts => exact hc.insert hinserts
  | bound _ _ => exact hc.modify _ _
  | taken => exact hc.modify _ _
  | returned => exact hc.modify _ _
  | removed hid hregistry hobjects hopen =>
    refine hc.step hregistry (fun other o hlive => ⟨o, ?_, rfl, rfl⟩) fun h => ⟨hopen h, ?_⟩
    · rw [hobjects, Objects.Directory.get?_erase] at hlive
      split at hlive
      · cases hlive
      · exact hlive
    · rw [hobjects, Objects.Directory.get?_erase, if_neg (Ne.symm hid)]
  | closed hregistry hobjects hclosed =>
    refine hc.step hregistry (fun other o hlive => ?_) fun h => ?_
    · rw [hobjects] at hlive
      cases hlive
    · rw [hclosed] at h
      cases h

theorem apply (a : Action app.toKit) (c : Connection app.toKit) (hc : Typed registry c) :
    Typed registry (a.apply app c) := hc.effect (a.effect c)

/-- A session begins with the display, at the version that it was looked up at. -/
theorem new {client : Nat} {globals : Globals app.Binder} {limits : Limits} {world : app.World}
    {s : Session app.toKit} (hnew : Session.new client registry globals limits world = .ok s) :
    Typed registry s.connection := by
  obtain ⟨i, handle, table, hlookup, hinsert, rfl⟩ := Session.exists_of_new hnew
  obtain ⟨hname, hprovides⟩ := Registry.lookup_eq_ok_iff.1 hlookup
  have hobjects := Table.objects_insert hinsert
  refine ⟨rfl, fun id o hlive => ?_, fun _ => ?_⟩
  · dsimp only at hlive
    rw [hobjects, Objects.Directory.get?_put] at hlive
    split at hlive
    · injection hlive with heq
      rw [← heq]
      exact hprovides
    · cases hlive
  · dsimp only
    rw [hobjects, Objects.Directory.get?_put, if_pos rfl]
    exact ⟨_, rfl, hname, rfl⟩

end

end Typed

/-! ## New ids -/

/-- The new id among arguments belongs to the parameter that is the signature's first new id. -/
theorem newIdFrom_of_creation? {ps : List Param} {p : Param} {arg : Arg} {i : Nat} :
    ∀ {as : List Arg} {index : Nat}, Connection.creation? index ps as = some (i, p, arg) →
      Signature.newIdFrom index ps = some (i, p) := by
  induction ps with
  | nil =>
    intro as index h
    cases h
  | cons q qs ih =>
    intro as index h
    cases as with
    | nil => cases h
    | cons a as =>
      unfold Connection.creation? at h
      unfold Signature.newIdFrom
      split at h
      · rename_i hk
        injection h with h
        injection h with hi h
        injection h with hp _
        rw [if_pos hk, hi, hp]
      · rename_i hk
        rw [if_neg hk]
        exact ih h

theorem mem_of_newIdFrom {ps : List Param} {p : Param} {i : Nat} :
    ∀ {index : Nat}, Signature.newIdFrom index ps = some (i, p) → p ∈ ps := by
  induction ps with
  | nil =>
    intro index h
    cases h
  | cons q qs ih =>
    intro index h
    unfold Signature.newIdFrom at h
    split at h
    · injection h with h
      injection h with _ hp
      rw [hp]
      exact List.mem_cons_self ..
    · exact List.mem_cons_of_mem _ (ih h)

theorem Violation.ofLookup_ne_registry (e : TableError) (e' : Protocol.Error) :
    ofLookup e ≠ .registry e' := by
  cases e with
  | _ => exact nofun

namespace Connection

section
variable {K : Kit} {c : Connection K} {m : Message} {e : Protocol.Error}

/-- The parameter that the new id of a request is for, if the request creates an object. -/
def newIdParam? (c : Connection K) (m : Message) : Option Param :=
  (c.table.objects.get? m.object).bind fun target =>
    (target.interface.method? .request m.opcode).bind fun method => method.signature.newId?.map (·.2)

/-- A typed new id in a registered definition stands for an object that the registry provides. -/
theorem interface_of_newObject {registry : Registry} (hr : registry.Consistent) {i : Interface}
    (hi : i ∈ registry.interfaces) {method : Method} (hmethod : method ∈ i.requests) {p : Param}
    (hp : p ∈ method.signature.params) {parentVersion : UInt32} (hpos : 1 ≤ parentVersion) {index : Nat}
    {arg : Arg} (h : newObject registry parentVersion index p arg = .error (.registry e)) :
    p.interface = none := by
  cases hname : p.interface with
  | none => rfl
  | some name =>
    exfalso
    unfold newObject at h
    rw [hname] at h
    obtain ⟨j, hget, hj, hprovides⟩ := hr.exists_provides hi hmethod hp hname
    cases arg with
    | newId id =>
      dsimp only at h
      -- the version of the parent, as far as the interface has it
      have hlookup : registry.lookup name (if j.version < parentVersion then j.version else parentVersion) =
          .ok j := by
        split
        · exact hprovides _ hj (UInt32.le_refl _)
        · rename_i hle
          exact hprovides _ hpos (UInt32.not_lt.1 hle)
      rw [hget] at h
      dsimp only at h
      rw [hlookup] at h
      cases h
    | _ => cases h

/-- What is wrong with the objects that arguments name has nothing to do with the registry. -/
theorem objectFault?_ne_registry {ps : List Param} : ∀ {as : List Arg} {index : Nat},
    objectFault? c.table index ps as ≠ some (.registry e) := by
  induction ps with
  | nil =>
    intro as index h
    cases h
  | cons p ps ih =>
    intro as index h
    cases as with
    | nil => cases h
    | cons a as =>
      cases a with
      | object id =>
        cases id with
        | none => exact ih h
        | some id =>
          unfold objectFault? at h
          split at h
          · injection h with h
            exact Violation.ofLookup_ne_registry _ _ h
          · split at h
            · exact ih h
            · split at h
              · exact ih h
              · injection h with h
                cases h
      | _ => exact ih h

/-- An object that cannot be inserted over the registry is one that a new id stands for. -/
theorem newObject_of_insertCreated {parentVersion : UInt32} {ps : List Param} {as : List Arg}
    (h : c.insertCreated parentVersion ps as = .error (.registry e)) :
    ∃ index p arg, creation? 0 ps as = some (index, p, arg) ∧
      newObject c.registry parentVersion index p arg = .error (.registry e) := by
  unfold insertCreated at h
  split at h
  · cases h
  · rename_i index p arg hcreation
    split at h
    · rename_i hnew
      injection h with h
      subst h
      exact ⟨index, p, arg, hcreation, hnew⟩
    · split at h
      · cases h
      · cases h

/-- A request that is refused over the registry is refused for the object that it would create. -/
theorem insertCreated_of_accept (h : c.accept m = .error (.registry e)) :
    ∃ target method, c.table.objects.get? m.object = some target ∧
      target.interface.method? .request m.opcode = some method ∧
        c.insertCreated target.version method.signature.params m.args = .error (.registry e) := by
  unfold accept at h
  split at h
  · injection h with h
    exact absurd h (Violation.ofLookup_ne_registry _ _)
  · rename_i target hget
    split at h
    · cases h
    · rename_i method hmethod
      split at h
      · cases h
      · split at h
        · cases h
        · split at h
          · rename_i hfault
            injection h with h
            subst h
            exact absurd hfault objectFault?_ne_registry
          · split at h
            · rename_i hinsert
              injection h with h
              subst h
              exact ⟨target, method, Table.get_eq_ok_iff_get?.1 hget, hmethod, hinsert⟩
            · cases h

/-- Nothing but the checks of a request refuses it over the registry. -/
theorem accept_of_dispatch {app : Application} {c c' : Connection app.toKit}
    (h : c.dispatch app m = (.error (.registry e), c')) : c.accept m = .error (.registry e) := by
  unfold dispatch at h
  split at h
  · rename_i haccept
    injection h with h
    injection h with h
    rw [haccept, h]
  · split at h
    · injection h with h
      cases h
    · split at h
      · injection h with h
        cases h
      · injection h with h
        injection h with h
        cases h

end

/-- Where all objects are of provided types, a request is refused over the registry only if it creates an
object whose interface and version the client chooses. -/
theorem interface_of_refused {app : Application} {registry : Registry} {c c' : Connection app.toKit}
    (hc : Typed registry c) (hr : registry.Consistent) {m : Message} {e : Protocol.Error}
    (h : c.dispatch app m = (.error (.registry e), c')) :
    ∃ p, c.newIdParam? m = some p ∧ p.interface = none := by
  obtain ⟨target, method, hlive, hmethod, hinsert⟩ := insertCreated_of_accept (accept_of_dispatch h)
  obtain ⟨index, p, arg, hcreation, hnew⟩ := newObject_of_insertCreated hinsert
  have hprovides := hc.objects _ _ hlive
  have hfirst := newIdFrom_of_creation? hcreation
  refine ⟨p, ?_, ?_⟩
  · unfold newIdParam?
    rw [hlive, Option.bind_some, hmethod, Option.bind_some]
    exact congrArg (Option.map Prod.snd) hfirst
  · rw [hc.registry_eq] at hnew
    exact interface_of_newObject hr (Registry.mem_of_get? hprovides.defined) (List.mem_of_getElem? hmethod)
      (mem_of_newIdFrom hfirst) hprovides.version_pos hnew

end Connection

/-! ## Operations -/

section
variable {app : Application} {registry : Registry} {s t : Session app.toKit}

/-- The request at the front of the input, if the next turn is one. -/
def Session.request? {K : Kit} (s : Session K) : Option Message :=
  match s.turn with
  | .request m _ => some m
  | _ => none

/-- The request that an operation handles next: the one that it is given, or the one at the front of the
input. -/
def Operation.request? {K : Kit} : Operation K → Session K → Option Message
  | .dispatch m, _ => some m
  | .feed _, t => t.request?
  | .feedFds _, t => t.request?
  | _, _ => none

/-- An operation on the session `s` ends with a violation, since in the session `t` it handles a request
that is refused. -/
structure Operation.Refuses (app : Application) (op : Operation app.toKit) (s t : Session app.toKit)
    (m : Message) (v : Violation) : Prop where
  request_eq : op.request? t = some m
  refused : (t.connection.dispatch app m).1 = .error v
  fails : ∃ u target, op.Fails app s t u v target

/-- Handling requests keeps the types. -/
theorem Typed.handled (h : Handled app s t) (hs : Typed registry s.connection) :
    Typed registry t.connection := h.preserves Typed.apply hs

/-- What cannot be read off the front of the input has nothing to do with the registry. -/
theorem Session.ne_registry_of_turn {K : Kit} {s : Session K} {target : ObjectId} {e : Protocol.Error} :
    s.turn ≠ .violation (.registry e) target := by
  intro h
  obtain ⟨-, hheader | ⟨-, e, -, hv, -⟩⟩ := turn_eq_violation_iff.1 h
  · unfold headerViolation? at hheader
    split at hheader
    · injection hheader with hheader
      cases hheader
    · cases hheader
    · split at hheader
      · injection hheader with hheader
        cases hheader
      · cases hheader
  · cases hv

/-- Input breaks off over the registry only if the request at the front of it is refused. -/
theorem exists_request_of_breaks {target : ObjectId} {e : Protocol.Error}
    (h : Breaks app t (.registry e) target) : ∃ m, t.request? = some m ∧
      (t.connection.dispatch app m).1 = .error (.registry e) := by
  cases h with
  | unreadable hturn => exact absurd hturn Session.ne_registry_of_turn
  | @refused m rest _ connection hturn hdispatch =>
    refine ⟨m, ?_, ?_⟩
    · unfold Session.request?
      rw [hturn]
    · rw [← Session.connection_of_turn hturn, hdispatch]

/-- An operation that ends with a violation over the registry refuses a request whose new id is generic. -/
theorem Operation.exists_refuses {op : Operation app.toKit} (hs : Typed registry s.connection)
    (hr : registry.Consistent) {e : Protocol.Error} (h : op.Violates app s (.registry e)) :
    ∃ t m p, op.Refuses app s t m (.registry e) ∧ t.connection.newIdParam? m = some p ∧
      p.interface = none := by
  obtain ⟨t, u, target, hfails⟩ := fails_of_violates h
  have hrequest : ∃ m, op.request? t = some m ∧ (t.connection.dispatch app m).1 = .error (.registry e) ∧
      Typed registry t.connection := by
    cases hfails.meets with
    | feed hhandled hbreaks =>
      obtain ⟨m, hrequest, hrefused⟩ := exists_request_of_breaks hbreaks
      exact ⟨m, hrequest, hrefused, Typed.handled hhandled hs⟩
    | feedFds _ hhandled hbreaks =>
      obtain ⟨m, hrequest, hrefused⟩ := exists_request_of_breaks hbreaks
      exact ⟨m, hrequest, hrefused, Typed.handled hhandled hs⟩
    | @dispatch m _ _ hdispatch => exact ⟨m, rfl, congrArg Prod.fst hdispatch, hs⟩
  obtain ⟨m, hrequest, hrefused, ht⟩ := hrequest
  obtain ⟨p, hparam, hgeneric⟩ := Connection.interface_of_refused ht hr (Prod.ext hrefused rfl)
  exact ⟨t, m, p, ⟨hrequest, hrefused, u, target, hfails⟩, hparam, hgeneric⟩

/-! ## Runs -/

/-- What an operation on a session keeps to: at every moment of it all objects are of provided types; before
it, as long as the session is open, the display has its implementation; and it refuses a request over the
registry only if the new id of that is generic. -/
structure KeepsTypes (app : Application) (registry : Registry) (s : Session app.toKit)
    (op : Operation app.toKit) : Prop where
  typed : ∀ as bs, op.actions app s = as ++ bs → Typed registry (replay app as s.connection)
  bound : s.state = .open → ∃ o, s.connection.table.objects.get? .display = some o ∧ o.isBound
  generic : ∀ e, op.Violates app s (.registry e) → ∃ t m p, op.Refuses app s t m (.registry e) ∧
    t.connection.newIdParam? m = some p ∧ p.interface = none

/-- Every operation in every run keeps to the types, in a session whose registry was built. -/
theorem keepsTypes_of_new {client : Nat} {globals : Globals app.Binder} {limits : Limits} {world : app.World}
    (hbuilt : registry.IsBuilt) (hnew : Session.new client registry globals limits world = .ok s)
    (ops : List (Operation app.toKit)) (op : Operation app.toKit) :
    KeepsTypes app registry (s.performAll app ops) op := by
  have htyped := Session.performAll_preserves Typed.apply ops (Typed.new hnew)
  have hattended := (Attended.new hnew).performAll ops
  refine ⟨fun as bs _ => replay_preserves Typed.apply as htyped, fun hopen => ?_, fun e h => ?_⟩
  · obtain ⟨o, hlive, hiff⟩ := hattended (isOpen_iff.2 hopen)
    refine ⟨o, hlive, Option.isSome_iff_ne_none.2 fun hunbound => ?_⟩
    cases hiff.1 hunbound
  · exact op.exists_refuses htyped hbuilt.consistent h

end

/-- The id that a client asks for the globals with. -/
def inventingId : ObjectId := ⟨7, by decide⟩

/-- A client asks for the globals, and next binds something that it has made up. -/
def inventingRun : List (Operation Application.bare.toKit) :=
  [.dispatch ⟨.display, Core.getRegistryOpcode, [.newId inventingId]⟩]

/-- A request that binds an interface that the registry does not know. -/
def inventedBind : Message :=
  ⟨inventingId, Core.bindOpcode, [.uint 1, .genericNewId "invented" 1 ⟨8, by decide⟩]⟩

theorem keepsTypes_of_new_sample :
    (Session.bare.performAll .bare inventingRun).state = .open ∧
      (Operation.dispatch inventedBind).Violates .bare (Session.bare.performAll .bare inventingRun)
        (.registry (.interfaceNotFound "invented")) ∧
      KeepsTypes .bare .core (Session.bare.performAll .bare inventingRun) (.dispatch inventedBind) :=
  ⟨rfl, rfl, keepsTypes_of_new (.inl rfl) Session.new_bare inventingRun (.dispatch inventedBind)⟩

end Compositor.Sessions
