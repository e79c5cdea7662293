import Compositor.Proofs.Object.Handles
import Compositor.Proofs.Session.History

/-
  What befalls objects and their implementations.

  An object enters the table, is given an implementation, is asked to handle requests, and leaves; and
  its implementation takes note of that.  `Action.episodes` says which of these an action brings about,
  and `Session.tale` lists them over a whole run.

  The application's world shows that the list leaves nothing out: implementations see it when they take
  note of the end of their objects, and programs replace it.  `world_performAll` says that the episodes
  of a run, in their order, make the world what it is after the run.
-/

namespace Compositor.Sessions

open Compositor.Wire (ObjectId)
open Compositor.Objects (Handle Object Table)

/-- What befalls objects and implementations. -/
inductive Episode (K : Kit) where
  /-- An object enters the table. -/
  | entered (h : Handle)
  /-- An object without an implementation is given one. -/
  | installed (h : Handle) (implementation : Implementation K.Handler)
  /-- The implementation of an object is asked to handle a request. -/
  | asked (h : Handle) (implementation : Implementation K.Handler)
  /-- It has handled the request, and is back in its object. -/
  | returned (h : Handle) (implementation : Implementation K.Handler)
  /-- An object leaves the table. -/
  | left (h : Handle)
  /-- The implementation of an object takes note that the object is gone. -/
  | notified (h : Handle) (implementation : Implementation K.Handler)
  /-- A program replaces the application's world. -/
  | recorded (world : K.World)

namespace Episode

section
variable {K : Kit}

/-- The handle of the object that an episode is about. -/
def handle? : Episode K → Option Handle
  | .entered h => some h
  | .installed h _ => some h
  | .asked h _ => some h
  | .returned h _ => some h
  | .left h => some h
  | .notified h _ => some h
  | .recorded _ => none

/-- An object of the table leaves it. -/
def departure (e : ObjectId × Object (Implementation K.Handler)) : Episode K :=
  .left ⟨e.1, e.2.generation⟩

/-- The implementation of such an object, if it has one, takes note of that. -/
def notices (e : ObjectId × Object (Implementation K.Handler)) : List (Episode K) :=
  e.2.implementation.toList.map (.notified ⟨e.1, e.2.generation⟩)

end

/-- What an episode makes of the application's world. -/
def act (app : Application) (world : app.World) : Episode app.toKit → app.World
  | .notified h implementation => app.noteDestroyed (some implementation) h.id world
  | .recorded world => world
  | _ => world

end Episode

section
variable (app : Application)

/-! ## The episodes of actions -/

/-- The episodes that an action brings about. -/
def Action.episodes : Action app.toKit → Connection app.toKit → List (Episode app.toKit)
  | .destroy id, c =>
    match c.table.get id with
    | .error _ => []
    | .ok object =>
      match (c.destroy app id).1 with
      | .error _ => []
      | .ok () => .departure (id, object) :: Episode.notices (id, object)
  | .create interface version, c =>
    match (c.create interface version).1 with
    | .error _ => []
    | .ok h => [.entered h]
  | .insertCreated parentVersion params args, c =>
    if c.isOpen then
      match c.insertCreated parentVersion params args with
      | .error _ => []
      | .ok _ => (Connection.createdId? params args).toList.map fun id =>
          .entered ⟨id, c.table.nextGeneration⟩
    else []
  | .bind id implementation, c =>
    match (c.bind id implementation).1 with
    | .error _ => []
    | .ok h => [.installed h implementation]
  | .take id, c =>
    match c.table.get id with
    | .error _ => []
    | .ok object => object.implementation.toList.map (.asked ⟨id, object.generation⟩)
  | .giveBack id generation implementation, c =>
    match c.table.byHandle ⟨id, generation⟩ with
    | .error _ => [.notified ⟨id, generation⟩ implementation]
    | .ok object =>
      if object.isBound then [.notified ⟨id, generation⟩ implementation]
      else [.returned ⟨id, generation⟩ implementation]
  | .record world, _ => [.recorded world]
  | .close, c =>
    -- all objects leave at once, before the first implementation takes note
    if c.isOpen then
      c.table.objects.reverse.map .departure ++ c.table.objects.reverse.flatMap Episode.notices
    else []
  | _, _ => []

/-- The episodes of actions one after the other. -/
def episodes : List (Action app.toKit) → Connection app.toKit → List (Episode app.toKit)
  | [], _ => []
  | a :: as, c => a.episodes app c ++ episodes as (a.apply app c)

/-- The episodes of an operation. -/
def Operation.episodes (op : Operation app.toKit) (s : Session app.toKit) :
    List (Episode app.toKit) :=
  Sessions.episodes app (op.actions app s) s.connection

/-- The episodes of a run, each operation starting from where the one before it has left the session. -/
def Session.tale (s : Session app.toKit) : List (Operation app.toKit) → List (Episode app.toKit)
  | [] => []
  | op :: ops => op.episodes app s ++ (op.perform app s).tale ops

theorem Session.tale_append (ops ops' : List (Operation app.toKit)) (s : Session app.toKit) :
    s.tale app (ops ++ ops') = s.tale app ops ++ (s.performAll app ops).tale app ops' := by
  induction ops generalizing s with
  | nil => rfl
  | cons op ops ih =>
    show op.episodes app s ++ (op.perform app s).tale app (ops ++ ops') = _
    rw [ih, ← List.append_assoc]
    rfl

/-! ## Episodes and the world -/

theorem foldl_act_departures (world : app.World)
    (es : List (ObjectId × Object (Implementation app.Handler))) :
    (es.map Episode.departure).foldl (Episode.act app) world = world := by
  induction es with
  | nil => rfl
  | cons e es ih => exact ih

theorem foldl_act_notices (world : app.World)
    (e : ObjectId × Object (Implementation app.Handler)) :
    (Episode.notices e).foldl (Episode.act app) world =
      app.noteDestroyed e.2.implementation e.1 world := by
  unfold Episode.notices
  cases e.2.implementation with
  | none => rfl
  | some implementation => rfl

theorem foldl_act_allNotices (es : List (ObjectId × Object (Implementation app.Handler)))
    (world : app.World) : (es.flatMap Episode.notices).foldl (Episode.act app) world =
      Connection.noteAllDestroyed app es world := by
  induction es generalizing world with
  | nil => rfl
  | cons e es ih =>
    rw [List.flatMap_cons, List.foldl_append, foldl_act_notices, ih]
    rfl

theorem world_destroy (c : Connection app.toKit) (id : ObjectId) : (c.destroy app id).2.world =
    (Action.episodes app (.destroy id) c).foldl (Episode.act app) c.world := by
  unfold Action.episodes
  dsimp only
  -- an object that leaves halfway leaves unnoticed
  rcases Connection.destroy_outcomes app c id with
    ⟨e, heq⟩ | ⟨o, table, -, -, hremove, ⟨e, -, heq⟩ | heq⟩
  · rw [heq]
    split
    · rfl
    · rfl
  · rw [heq]
    split
    · rfl
    · rfl
  · rw [heq, Table.get_eq_ok_iff.2 (Table.remove_eq_ok_iff.1 hremove).1]
    exact (foldl_act_notices app c.world (id, o)).symm

/-- What comes of putting an implementation back: it is back in its object, or takes note. -/
theorem giveBack_episodes_cases (c : Connection app.toKit) (id : ObjectId) (generation : Nat)
    (i : Implementation app.Handler) :
    (∃ object, c.table.byHandle ⟨id, generation⟩ = .ok object ∧ object.implementation = none ∧
      Action.episodes app (.giveBack id generation i) c = [.returned ⟨id, generation⟩ i] ∧
      c.giveBack app id generation i = { c with
        table := c.table.modify id fun o => { o with implementation := some i } }) ∨
      (∀ object, c.table.byHandle ⟨id, generation⟩ = .ok object → object.implementation ≠ none) ∧
        Action.episodes app (.giveBack id generation i) c = [.notified ⟨id, generation⟩ i] ∧
        c.giveBack app id generation i = { c with world := app.noteDestroyed (some i) id c.world } := by
  unfold Action.episodes
  dsimp only
  rcases c.giveBack_cases app id generation i with ⟨object, hlive, hunbound, heq⟩ | ⟨hgone, heq⟩
  · refine .inl ⟨object, hlive, hunbound, ?_, heq⟩
    rw [hlive]
    dsimp only
    unfold Object.isBound
    rw [hunbound]
    rfl
  · refine .inr ⟨hgone, ?_, heq⟩
    cases hlive : c.table.byHandle ⟨id, generation⟩ with
    | error e => rfl
    | ok object =>
      have hbound : object.isBound := Option.isSome_iff_ne_none.2 (hgone object hlive)
      exact if_pos hbound

theorem world_giveBack (c : Connection app.toKit) (id : ObjectId) (generation : Nat)
    (implementation : Implementation app.Handler) :
    (c.giveBack app id generation implementation).world =
      (Action.episodes app (.giveBack id generation implementation) c).foldl (Episode.act app)
        c.world := by
  rcases giveBack_episodes_cases app c id generation implementation with
    ⟨object, -, -, hepisodes, heq⟩ | ⟨-, hepisodes, heq⟩
  · rw [hepisodes, heq]
    rfl
  · rw [hepisodes, heq]
    rfl

theorem world_insertCreated (c : Connection app.toKit) (version : UInt32) (params : List Wire.Param)
    (args : List Wire.Arg) : (Action.apply app (.insertCreated version params args) c).world =
      (Action.episodes app (.insertCreated version params args) c).foldl (Episode.act app)
        c.world := by
  unfold Action.apply Action.episodes
  dsimp only
  split
  · cases hcreated : c.insertCreated version params args with
    | error v => rfl
    | ok c' =>
      dsimp only
      rcases Connection.insertCreated_cases hcreated with
        ⟨hnone, rfl⟩ | ⟨id, i, _, handle, table, hid, -, -, rfl⟩
      · rw [hnone]
        rfl
      · rw [hid]
        rfl
  · rfl

theorem world_close (c : Connection app.toKit) : (c.close app).world =
    (Action.episodes app .close c).foldl (Episode.act app) c.world := by
  unfold Connection.close Action.episodes
  dsimp only
  split
  · rw [List.foldl_append, foldl_act_departures, foldl_act_allNotices]
    rfl
  · rfl

/-- The episodes of an action make the world what it is after the action. -/
theorem Action.world_apply (a : Action app.toKit) (c : Connection app.toKit) :
    (a.apply app c).world = (a.episodes app c).foldl (Episode.act app) c.world := by
  cases a with
  | queue id opcode args =>
    unfold apply
    dsimp only
    split
    · rfl
    · rfl
  | destroy id => exact world_destroy app c id
  | create interface version =>
    unfold apply episodes
    dsimp only
    rcases c.create_cases interface version with ⟨e, heq⟩ | ⟨i, id, h, table, -, -, -, heq⟩
    · rw [heq]
      rfl
    · rw [heq]
      rfl
  | insertCreated version params args => exact world_insertCreated app c version params args
  | bind id implementation =>
    unfold apply episodes
    dsimp only
    rcases c.bind_cases id implementation with ⟨e, heq⟩ | ⟨object, -, -, -, heq⟩
    · rw [heq]
      rfl
    · rw [heq]
      rfl
  | take id =>
    unfold apply episodes Connection.takeImplementation
    dsimp only
    cases c.table.get id with
    | error e => rfl
    | ok object =>
      -- an implementation that is asked has not changed the world yet
      dsimp only
      cases object.implementation with
      | none => rfl
      | some implementation => rfl
  | giveBack id generation implementation => exact world_giveBack app c id generation implementation
  | withdraw name =>
    unfold apply
    dsimp only
    split
    · rfl
    · rfl
  | close => exact world_close app c
  | _ => rfl

/-- The episodes of actions make the world what it is after the actions. -/
theorem world_replay (as : List (Action app.toKit)) (c : Connection app.toKit) :
    (replay app as c).world = (episodes app as c).foldl (Episode.act app) c.world := by
  induction as generalizing c with
  | nil => rfl
  | cons a as ih =>
    show (replay app as (a.apply app c)).world = (a.episodes app c ++ _).foldl _ _
    rw [ih, List.foldl_append, Action.world_apply]

/-- The episodes of a run make the world what it is after the run: nothing else gets to it. -/
theorem Session.world_performAll (ops : List (Operation app.toKit)) (s : Session app.toKit) :
    (s.performAll app ops).connection.world =
      (s.tale app ops).foldl (Episode.act app) s.connection.world := by
  induction ops generalizing s with
  | nil => rfl
  | cons op ops ih =>
    have hworld := world_replay app (op.actions app s) s.connection
    rw [op.replay_perform] at hworld
    show ((op.perform app s).performAll app ops).connection.world =
      (op.episodes app s ++ (op.perform app s).tale app ops).foldl _ _
    rw [ih, List.foldl_append, hworld]
    rfl

end

end Compositor.Sessions
