import Compositor.Proofs.Session.Attendance
import Compositor.Proofs.Session.Destruction
import Compositor.Proofs.Session.Validity

/-
  Which requests reach an implementation.

  `Connection.askings` lists the implementations that a request is put to.  There is one if the request is valid
  and its target has an implementation, and none otherwise (`askings_cases`); it finds the object that the
  request creates in place (`Prepared`).  A valid destructor of an object without an implementation ends the
  object.  Every other request is refused with its first fault, before anything is queued.

  `screens_of_new` says this of every request at every time in the life of a session.
-/

namespace Compositor.Sessions

open Compositor.Wire (Message ObjectId)
open Compositor.Objects (Handle Object Table)
open Compositor.Protocol

/-! ## Asking -/

/-- The implementation that is asked in an episode, and the object that it belongs to. -/
def Episode.asked? {K : Kit} : Episode K → Option (Handle × Implementation K.Handler)
  | .asked h i => some (h, i)
  | _ => none

section
variable {app : Application}

theorem Episode.asked?_of_mem_notices {K : Kit} {entry : ObjectId × Object (Implementation K.Handler)}
    {e : Episode K} (he : e ∈ notices entry) : e.asked? = none := by
  obtain ⟨i, -, rfl⟩ := List.mem_map.1 he
  rfl

/-- Only taking an implementation out asks it. -/
theorem Action.asked_of_ne_take {a : Action app.toKit} (ha : ∀ id, a ≠ .take id) (c : Connection app.toKit) :
    (a.episodes app c).filterMap Episode.asked? = [] := by
  rw [List.filterMap_eq_nil_iff]
  intro e he
  unfold episodes at he
  cases a with
  | take id => exact absurd rfl (ha id)
  | destroy id =>
    dsimp only at he
    split at he
    · cases he
    · split at he
      · cases he
      · rcases List.mem_cons.1 he with rfl | he
        · rfl
        · exact Episode.asked?_of_mem_notices he
  | create interface version =>
    dsimp only at he
    split at he
    · cases he
    · rw [List.mem_singleton.1 he]
      rfl
  | insertCreated version params args =>
    dsimp only at he
    split at he
    · split at he
      · cases he
      · obtain ⟨id, -, rfl⟩ := List.mem_map.1 he
        rfl
    · cases he
  | bind id i =>
    dsimp only at he
    split at he
    · cases he
    · rw [List.mem_singleton.1 he]
      rfl
  | giveBack id generation i =>
    rcases giveBack_episodes_cases app c id generation i with ⟨-, -, -, heq, -⟩ | ⟨-, heq, -⟩
    · unfold episodes at heq
      rw [heq] at he
      rw [List.mem_singleton.1 he]
      rfl
    · unfold episodes at heq
      rw [heq] at he
      rw [List.mem_singleton.1 he]
      rfl
  | record world =>
    rw [List.mem_singleton.1 he]
    rfl
  | close =>
    dsimp only at he
    split at he
    · rcases List.mem_append.1 he with he | he
      · obtain ⟨entry, -, rfl⟩ := List.mem_map.1 he
        rfl
      · obtain ⟨entry, -, he⟩ := List.mem_flatMap.1 he
        exact Episode.asked?_of_mem_notices he
    · cases he
  | _ => cases he

theorem asked_of_ne_take {as : List (Action app.toKit)} (has : ∀ a ∈ as, ∀ id, a ≠ .take id) :
    ∀ c : Connection app.toKit, (episodes app as c).filterMap Episode.asked? = [] := by
  induction as with
  | nil =>
    intro c
    rfl
  | cons a as ih =>
    intro c
    rw [List.forall_mem_cons] at has
    rw [episodes, List.filterMap_append, Action.asked_of_ne_take has.1, ih has.2]
    rfl

theorem Action.ne_take_of_isPlain {running : Option ObjectId} {a : Action app.toKit}
    (hplain : a.IsPlain running) (id : ObjectId) : a ≠ .take id := by
  rintro rfl
  exact hplain

namespace Connection

/-- The implementations that a request is put to, one after the other. -/
def askings (app : Application) (c : Connection app.toKit) (m : Message) :
    List (Handle × Implementation app.Handler) :=
  (episodes app (c.dispatchActions app m) c).filterMap Episode.asked?

section
variable {c : Connection app.toKit} {m : Message} {v : Violation}
  {target : Object (Implementation app.Handler)} {method : Method}

/-- While an implementation handles a request, no other is asked. -/
theorem ne_take_of_mem_invokeActions {generation : Nat} {i : Implementation app.Handler} {r : Request} :
    ∀ a ∈ c.invokeActions app generation i r, ∀ id, a ≠ .take id := by
  intro a ha
  unfold invokeActions at ha
  rcases List.mem_append.1 ha with ha | ha
  · exact Action.ne_take_of_isPlain (Program.isPlain_of_mem_actions app _ a ha)
  · rcases List.mem_cons.1 ha with rfl | ha
    · exact fun _ => nofun
    · split at ha
      · cases ha
      · exact Action.ne_take_of_isPlain (isPlain_of_mem_postActions app none a ha)

theorem ne_take_of_mem_endOfLifeActions {id : ObjectId} {generation : Nat} :
    ∀ a ∈ c.endOfLifeActions app id generation method, ∀ id, a ≠ .take id := fun a ha =>
  Action.ne_take_of_isPlain (isPlain_of_mem_endOfLifeActions app none a ha)

/-- A valid request asks the implementation of its target, if it has one. -/
theorem askings_of_valid (hopen : c.isOpen) (h : c.Valid m target method) : c.askings app m =
    target.implementation.toList.map (⟨m.object, target.generation⟩, ·) := by
  obtain ⟨c', haccept, c₁, htake, -⟩ := exists_prepared h
  have hinsert := apply_insertCreated app hopen haccept
  have hasked : Action.episodes app (.take m.object) c' =
      target.implementation.toList.map (.asked ⟨m.object, target.generation⟩) := by
    unfold Action.episodes
    dsimp only
    rw [get_of_accept haccept]
  have hquiet : (Action.episodes app (.insertCreated target.version method.signature.params m.args)
      c).filterMap Episode.asked? = [] := Action.asked_of_ne_take (fun _ heq => by cases heq) c
  unfold askings dispatchActions
  rw [haccept]
  dsimp only
  rw [episodes, List.filterMap_append, hquiet, List.nil_append, episodes, List.filterMap_append, hinsert,
    hasked, htake, List.filterMap_map]
  cases target.implementation with
  | none =>
    dsimp only
    split
    · rw [asked_of_ne_take ne_take_of_mem_endOfLifeActions]
      rfl
    · rfl
  | some i =>
    dsimp only
    rw [asked_of_ne_take fun a ha => ?_]
    · rfl
    · rcases List.mem_append.1 ha with ha | ha
      · exact ne_take_of_mem_invokeActions a ha
      · exact ne_take_of_mem_endOfLifeActions a ha

/-- Nobody is asked, or the implementation of the target of a valid request, once. -/
theorem askings_cases (hopen : c.isOpen) (m : Message) : c.askings app m = [] ∨
    ∃ target method i, c.Valid m target method ∧ target.implementation = some i ∧
      c.askings app m = [(⟨m.object, target.generation⟩, i)] := by
  have hvalid : ∀ target method, c.Valid m target method → c.askings app m = [] ∨
      ∃ target method i, c.Valid m target method ∧ target.implementation = some i ∧
        c.askings app m = [(⟨m.object, target.generation⟩, i)] := by
    intro target method hvalid
    have hasked := askings_of_valid hopen hvalid
    cases hbound : target.implementation with
    | none =>
      rw [hbound] at hasked
      exact .inl hasked
    | some i =>
      rw [hbound] at hasked
      exact .inr ⟨target, method, i, hvalid, hbound, hasked⟩
  rcases c.valid_or_firstFault m with ⟨target, method, h⟩ | ⟨v, hfault⟩
  · exact hvalid target method h
  · rcases accept_of_firstFault hfault with haccept | ⟨target, method, h, -⟩
    · left
      unfold askings dispatchActions
      rw [haccept]
      rfl
    · exact hvalid target method h

/-! ## Dispatching -/

/-- A valid request is handled by the implementation of its target, and a destructor then ends that. -/
theorem dispatch_of_bound (h : c.Valid m target method) {i : Implementation app.Handler}
    (hbound : target.implementation = some i) : ∃ c₁, c.Prepared m target method c₁ ∧
      c.dispatch app m = (.ok (), (c₁.invoke app target.generation i
        ⟨m.object, m.opcode, target.version, target.interface, m.args⟩).endOfLife app m.object
          target.generation method) := by
  obtain ⟨c', haccept, c₁, htake, hprepared⟩ := exists_prepared h
  refine ⟨c₁, hprepared, ?_⟩
  unfold dispatch
  rw [haccept]
  dsimp only
  rw [htake, hbound]

/-- Between the insertion of what it creates and the end of its target, its actions are those of that
implementation. -/
theorem dispatchActions_of_bound (hopen : c.isOpen) (h : c.Valid m target method)
    {i : Implementation app.Handler} (hbound : target.implementation = some i) :
    ∃ c₁, c.Prepared m target method c₁ ∧
      let r : Request := ⟨m.object, m.opcode, target.version, target.interface, m.args⟩
      let before := [.insertCreated target.version method.signature.params m.args, .take m.object]
      replay app before c = c₁ ∧ c.dispatchActions app m = before ++
        (c₁.invokeActions app target.generation i r ++
          (c₁.invoke app target.generation i r).endOfLifeActions app m.object target.generation method) := by
  obtain ⟨c', haccept, c₁, htake, hprepared⟩ := exists_prepared h
  have hinsert := apply_insertCreated app hopen haccept
  have htaken : Action.apply app (.take m.object) c' = c₁ := congrArg Prod.snd htake
  refine ⟨c₁, hprepared, ?_, ?_⟩
  · rw [replay, hinsert, replay, htaken, replay]
  · unfold dispatchActions
    rw [haccept]
    dsimp only
    rw [htake, hbound]
    rfl

/-- Without an implementation, a destructor ends its object all the same. -/
theorem dispatch_of_unbound (hopen : c.isOpen) (h : c.Valid m target method)
    (hunbound : target.implementation = none) (hdestructor : method.destructor = true) :
    ∃ c₁, c.Prepared m target method c₁ ∧ c.dispatch app m = (.ok (), (c₁.destroy app m.object).2) := by
  obtain ⟨c', haccept, c₁, htake, hprepared⟩ := exists_prepared h
  have hopen₁ : c₁.isOpen := by
    rw [hprepared.rest]
    exact hopen
  have hcurrent : c₁.table.isCurrent m.object target.generation := by
    unfold Table.isCurrent
    rw [Table.get_eq_ok_iff_get?.1 hprepared.lent]
    exact beq_self_eq_true _
  refine ⟨c₁, hprepared, ?_⟩
  unfold dispatch
  rw [haccept]
  dsimp only
  rw [htake, hunbound]
  dsimp only
  rw [if_pos hdestructor]
  unfold endOfLife
  rw [if_pos ⟨hdestructor, hopen₁, hcurrent⟩]

/-- A request with a fault is refused for it; at most its object has been inserted. -/
theorem dispatch_of_firstFault (h : c.FirstFault m v) :
    ∃ table, c.dispatch app m = (.error v, { c with table }) := by
  unfold dispatch
  rcases accept_of_firstFault h with haccept | ⟨target, method, hvalid, hunbound, hstays, rfl⟩
  · rw [haccept]
    exact ⟨c.table, rfl⟩
  · obtain ⟨c', haccept, c₁, htake, hprepared⟩ := exists_prepared hvalid
    rw [haccept]
    dsimp only
    rw [htake, hunbound]
    dsimp only
    rw [hstays]
    refine ⟨c₁.table, ?_⟩
    rw [← hprepared.rest]
    rfl

/-- A request is refused for nothing else. -/
theorem firstFault_of_dispatch (hopen : c.isOpen) (hv : (c.dispatch app m).1 = .error v) :
    c.FirstFault m v := by
  have hfault : ∀ v', c.FirstFault m v' → c.FirstFault m v := by
    intro v' hfault
    obtain ⟨table, hdispatch⟩ : ∃ table, c.dispatch app m = (.error v', { c with table }) :=
      dispatch_of_firstFault hfault
    rw [hdispatch] at hv
    cases hv
    exact hfault
  rcases c.valid_or_firstFault m with ⟨target, method, hvalid⟩ | ⟨v', h⟩
  · cases hbound : target.implementation with
    | some i =>
      obtain ⟨c₁, -, hdispatch⟩ := dispatch_of_bound hvalid hbound
      rw [hdispatch] at hv
      cases hv
    | none =>
      cases hdestructor : method.destructor with
      | true =>
        obtain ⟨c₁, -, hdispatch⟩ := dispatch_of_unbound hopen hvalid hbound hdestructor
        rw [hdispatch] at hv
        cases hv
      | false => exact hfault _ (.implementation hvalid hbound hdestructor)
  · exact hfault v' h

/-- A valid destructor of an object without an implementation destroys it, unless it is the display. -/
theorem contains_dispatch_of_unbound (hopen : c.isOpen) (h : c.Valid m target method)
    (hunbound : target.implementation = none) (hdestructor : method.destructor = true)
    (hid : m.object ≠ .display) : (c.dispatch app m).1 = .ok () ∧
      (c.dispatch app m).2.table.contains m.object = false := by
  obtain ⟨c₁, hprepared, hdispatch⟩ := dispatch_of_unbound hopen h hunbound hdestructor
  have hopen₁ : c₁.isOpen := by
    rw [hprepared.rest]
    exact hopen
  rw [hdispatch]
  exact ⟨rfl, contains_destroy hopen₁ hprepared.lent hid⟩

end

/-- What becomes of a request: it is put to the implementation of its target, it ends its target, or it is
refused. -/
structure Screens (app : Application) (c : Connection app.toKit) (m : Message) : Prop where
  /-- Somebody is asked exactly if the request is valid and its target has an implementation, -/
  asked_iff : ∀ h i, (h, i) ∈ c.askings app m ↔ ∃ target method, c.Valid m target method ∧
    target.implementation = some i ∧ h = ⟨m.object, target.generation⟩
  /-- and nobody is asked twice. -/
  once : (c.askings app m).length ≤ 1
  /-- That implementation handles it, and finds the new object in place. -/
  handled : ∀ target method i, c.Valid m target method → target.implementation = some i →
    ∃ c₁, c.Prepared m target method c₁ ∧ c.dispatch app m = (.ok (), (c₁.invoke app target.generation i
      ⟨m.object, m.opcode, target.version, target.interface, m.args⟩).endOfLife app m.object
        target.generation method)
  /-- A valid destructor of an object without an implementation destroys the object. -/
  ended : ∀ target method, c.Valid m target method → target.implementation = none →
    method.destructor = true → (c.dispatch app m).1 = .ok () ∧
      (c.dispatch app m).2.table.contains m.object = false
  /-- All others are refused with their first fault, -/
  refused_iff : ∀ v, (c.dispatch app m).1 = .error v ↔ c.FirstFault m v
  /-- and then nothing is queued, and nothing but the table may have changed. -/
  untouched : ∀ v, c.FirstFault m v → ∃ table, c.dispatch app m = (.error v, { c with table })

/-- What becomes of a request while the display has its implementation. -/
theorem screens_of_isOpen {c : Connection app.toKit} (hopen : c.isOpen) (hdisplay : Attended none c)
    (m : Message) : c.Screens app m where
  asked_iff := by
    intro h i
    constructor
    · intro hmem
      rcases askings_cases hopen m with hnone | ⟨target, method, j, hvalid, hbound, hone⟩
      · rw [hnone] at hmem
        cases hmem
      · rw [hone] at hmem
        cases List.mem_singleton.1 hmem
        exact ⟨target, method, hvalid, hbound, rfl⟩
    · rintro ⟨target, method, hvalid, hbound, rfl⟩
      rw [askings_of_valid hopen hvalid, hbound]
      exact List.mem_singleton.2 rfl
  once := by
    rcases askings_cases hopen m with hnone | ⟨_, _, _, _, _, hone⟩
    · rw [hnone]
      exact Nat.zero_le 1
    · rw [hone]
      exact Nat.le_refl 1
  handled := fun _ _ _ h hbound => dispatch_of_bound h hbound
  ended := by
    intro target method hvalid hunbound hdestructor
    refine contains_dispatch_of_unbound hopen hvalid hunbound hdestructor fun hid => ?_
    have hlive := Table.get_eq_ok_iff_get?.1 hvalid.live
    rw [hid] at hlive
    exact absurd ((hdisplay.unbound_iff hopen hlive).1 hunbound) nofun
  refused_iff := by
    intro v
    constructor
    · exact firstFault_of_dispatch hopen
    · intro hfault
      obtain ⟨table, hdispatch⟩ : ∃ table, c.dispatch app m = (.error v, { c with table }) :=
        dispatch_of_firstFault hfault
      rw [hdispatch]
  untouched := fun _ hfault => dispatch_of_firstFault hfault

end Connection

/-! ## The whole life of a session -/

/-- Between two requests of one operation, the display has its implementation as well. -/
theorem Attended.handled {s t : Session app.toKit} (h : Handled app s t)
    (hs : Attended none s.connection) : Attended none t.connection := by
  induction h with
  | refl s => exact hs
  | @step s rest t m connection hturn hdispatch _ ih =>
    have hconnection := Session.connection_of_turn hturn
    have hopen : rest.connection.isOpen := by
      rw [hconnection]
      exact Session.isOpen_of_turn hturn
    have hreplay := Connection.replay_dispatch app hopen m
    rw [hdispatch] at hreplay
    refine ih ?_
    rw [← hconnection] at hs
    dsimp only at hreplay ⊢
    rw [← hreplay]
    exact hs.orderly (Connection.orderly_dispatchActions app hopen m)

/-- Whatever a session has been through, and whatever it has handled of the input that it holds: as long as it
is open, this is what becomes of every request. -/
theorem screens_of_new {client : Nat} {registry : Registry} {globals : Globals app.Binder} {limits : Limits}
    {world : app.World} {s : Session app.toKit}
    (hnew : Session.new client registry globals limits world = .ok s) (ops : List (Operation app.toKit))
    {inbound : List UInt8} {fds : List Wire.Descriptor} {t : Session app.toKit}
    (hhandled : Handled app { s.performAll app ops with inbound, fds } t) (hopen : t.connection.isOpen)
    (m : Message) : t.connection.Screens app m :=
  Connection.screens_of_isOpen hopen (.handled hhandled ((Attended.new hnew).performAll ops)) m

/-- The display of a new session is asked for a registry. -/
theorem screens_of_new_sample : Session.new 0 .core {} {} () = .ok Session.bare ∧
    Handled .bare { Session.bare.performAll .bare [] with inbound := [], fds := [] } Session.bare ∧
      Session.bare.connection.isOpen ∧ Session.bare.connection.Screens .bare
        ⟨.display, Core.getRegistryOpcode, [.newId ⟨11, by decide⟩]⟩ := by
  have hhandled : Handled .bare { Session.bare.performAll .bare [] with inbound := [], fds := [] }
      Session.bare := .refl Session.bare
  exact ⟨Session.new_bare, hhandled, rfl, screens_of_new Session.new_bare [] hhandled rfl _⟩

end

end Compositor.Sessions
