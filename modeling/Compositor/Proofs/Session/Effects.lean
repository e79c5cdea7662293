import Compositor.Proofs.Object.Handles
import Compositor.Proofs.Protocol.Registry
import Compositor.Proofs.Session.Outcomes

/-
  What an action does to the objects of a connection.

  Most actions leave them alone.  `Action.Effect` lists the others: which of them inserts an object, which
  takes one away, and which changes what implements one, each with the facts that it goes by; and
  `Action.effect` says that this is all that an action does.  An invariant of the objects needs no more
  than these cases.  What is not about objects hardly changes at all (`Action.keeps`).
-/

namespace Compositor.Sessions

open Compositor.Wire (Arg ObjectId Param Side)
open Compositor.Objects (Handle Object Table)
open Compositor.Protocol

/-! ## New objects -/

namespace Connection

section
variable {K : Kit} {c c' : Connection K}

/-- The table has one more object, which is as the registry has it and has no implementation yet. -/
inductive Inserts (c : Connection K) : Connection K → Prop where
  | intro {side : Side} {id : ObjectId} {i : Interface} {version : UInt32} {h : Handle}
      {table : Table (Implementation K.Handler)} : c.registry.Provides i version →
        c.table.insert side id { interface := i, version } = .ok (h, table) → Inserts c { c with table }

theorem Inserts.isOpen_eq (h : c.Inserts c') : c'.isOpen = c.isOpen := by
  cases h
  rfl

/-- An insertion takes no live object's place. -/
theorem Inserts.get?_of_get? (h : c.Inserts c') {id : ObjectId} {o : Object (Implementation K.Handler)}
    (hlive : c.table.objects.get? id = some o) : c'.table.objects.get? id = some o := by
  obtain ⟨-, hinsert⟩ := h
  have hfree := Table.get?_of_insert hinsert
  dsimp only
  rw [Table.objects_insert hinsert, Objects.Directory.get?_put, if_neg]
  · exact hlive
  · rintro rfl
    rw [hlive] at hfree
    cases hfree

end

end Connection

/-! ## Effects -/

section
variable (app : Application)

/-- The ways in which an action treats the objects of a connection. -/
inductive Action.Effect (c : Connection app.toKit) : Action app.toKit → Connection app.toKit → Prop where
  /-- It leaves them alone, and opens nothing that has stopped. -/
  | none {a : Action app.toKit} {c' : Connection app.toKit} : c'.registry = c.registry →
      c'.table.objects = c.table.objects → (c'.isOpen → c.isOpen) → Effect c a c'
  | inserted {a : Action app.toKit} {c' : Connection app.toKit} : c.Inserts c' → Effect c a c'
  /-- It installs an implementation where there is none. -/
  | bound {id : ObjectId} {i : Implementation app.Handler} {o : Object (Implementation app.Handler)} :
      c.table.objects.get? id = some o → o.implementation = .none → Effect c (.bind id i)
        { c with table := c.table.modify id fun o => { o with implementation := some i } }
  /-- It takes the implementation out of a live object. -/
  | taken {id : ObjectId} : Effect c (.take id)
      { c with table := c.table.modify id fun o => { o with implementation := .none } }
  /-- It puts the implementation back into the object that is waiting for it. -/
  | returned {id : ObjectId} {generation : Nat} {i : Implementation app.Handler} :
      Effect c (.giveBack id generation i)
        { c with table := c.table.modify id fun o => { o with implementation := some i } }
  /-- It destroys an object, which is not the display. -/
  | removed {id : ObjectId} {c' : Connection app.toKit} : id ≠ .display → c'.registry = c.registry →
      c'.table.objects = c.table.objects.erase id → (c'.isOpen → c.isOpen) → Effect c (.destroy id) c'
  /-- It stops the connection and destroys everything. -/
  | closed {c' : Connection app.toKit} : c'.registry = c.registry → c'.table.objects = [] →
      c'.isOpen = false → Effect c .close c'

variable {app}

/-- A destruction is refused, or takes the object away, also where its announcement fails. -/
theorem Action.effect_destroy (c : Connection app.toKit) (id : ObjectId) :
    Effect app c (.destroy id) (c.destroy app id).2 := by
  rcases c.destroy_outcomes app id with ⟨e, heq⟩ | ⟨o, table, -, hid, hremove, houtcome⟩
  · rw [heq]
    exact .none rfl rfl fun h => h
  · have hobjects := (Table.objects_remove hremove).2.1
    rcases houtcome with ⟨e, -, heq⟩ | heq
    · rw [heq]
      exact .removed hid rfl hobjects fun h => h
    · obtain ⟨htable, hstate, -⟩ := Connection.announced_keeps { c with table } id
      rw [heq]
      refine .removed hid ?_ ((congrArg Table.objects htable).trans hobjects) fun h => ?_
      · unfold Connection.announced
        split
        · rfl
        · rfl
      · unfold Connection.isOpen at h ⊢
        exact hstate ▸ h

/-- However an action turns out, it has one of these effects. -/
theorem Action.Outcome.effect {a : Action app.toKit} {c c' : Connection app.toKit} {hs : List Happening}
    (h : Outcome app c a c' hs) : Effect app c a c' := by
  cases h with
  | aside => exact .none rfl rfl fun h => h
  | queued _ => exact .none rfl rfl fun h => h
  | destroyed => exact effect_destroy c _
  | created _ hlookup hinsert => exact .inserted (.intro (Registry.lookup_eq_ok_iff.1 hlookup).2 hinsert)
  | inserted _ hlookup hinsert => exact .inserted (.intro (Registry.lookup_eq_ok_iff.1 hlookup).2 hinsert)
  | bound hget hunbound => exact .bound (Table.get_eq_ok_iff_get?.1 hget) hunbound
  | taken _ => exact .taken
  | returned _ _ => exact .returned
  | withdrawn => exact .none rfl rfl fun h => h
  | closed =>
    have hstop := Connection.isOpen_close app c
    unfold Connection.close at hstop ⊢
    split
    · rename_i hopen
      rw [if_pos hopen] at hstop
      exact .closed rfl rfl hstop
    · exact .none rfl rfl fun h => h
  | drained =>
    refine .none rfl (Table.acknowledgeAll_keeps c.pendingAcks c.table).1 fun h => ?_
    unfold Connection.isOpen at h ⊢
    change (if c.state = .closing then .closed else c.state) == .open at h
    split at h
    · cases h
    · exact h
  | fdsDrained => exact .none rfl rfl fun h => h

theorem Action.effect (a : Action app.toKit) (c : Connection app.toKit) : Effect app c a (a.apply app c) :=
  (a.outcome c).effect

/-- The directory stays in ascending order. -/
theorem Action.Effect.ascending {a : Action app.toKit} {c c' : Connection app.toKit} (h : Effect app c a c')
    (hc : c.table.objects.Ascending) : c'.table.objects.Ascending := by
  cases h with
  | none _ hobjects _ =>
    rw [hobjects]
    exact hc
  | inserted hinserts =>
    obtain ⟨-, hinsert⟩ := hinserts
    exact Table.ascending_insert hc hinsert
  | bound _ _ => exact Table.ascending_modify hc _ _
  | taken => exact Table.ascending_modify hc _ _
  | returned => exact Table.ascending_modify hc _ _
  | removed _ _ hobjects _ =>
    rw [hobjects]
    exact Objects.Directory.ascending_erase hc _
  | closed _ hobjects _ =>
    rw [hobjects]
    exact List.Pairwise.nil

/-! ## What no action changes -/

namespace Action

/-- An action leaves the limit of the queue as it is, hands out generations in ascending order, and leaves the
globals alone unless it withdraws one. -/
structure Keeps (c : Connection app.toKit) (a : Action app.toKit) (c' : Connection app.toKit) : Prop where
  limit_eq : c'.outbound.limit = c.outbound.limit
  generation_le : c.table.nextGeneration ≤ c'.table.nextGeneration
  globals_eq : (∀ name, a ≠ .withdraw name) → c'.globals = c.globals

theorem Keeps.of_eq {c c' : Connection app.toKit} {a : Action app.toKit}
    (hlimit : c'.outbound.limit = c.outbound.limit)
    (hgeneration : c'.table.nextGeneration = c.table.nextGeneration) (hglobals : c'.globals = c.globals) :
    Keeps c a c' := ⟨hlimit, Nat.le_of_eq hgeneration.symm, fun _ => hglobals⟩

theorem Keeps.insert {c : Connection app.toKit} {a : Action app.toKit} {side : Side} {id : ObjectId}
    {o : Object (Implementation app.Handler)} {h : Handle} {table : Table (Implementation app.Handler)}
    (hinsert : c.table.insert side id o = .ok (h, table)) : Keeps c a { c with table } := by
  refine ⟨rfl, ?_, fun _ => rfl⟩
  dsimp only
  rw [(Table.nextGeneration_insert hinsert).2]
  exact Nat.le_succ _

theorem Keeps.destroy (c : Connection app.toKit) (id : ObjectId) :
    Keeps c (.destroy id) (c.destroy app id).2 := by
  rcases c.destroy_outcomes app id with ⟨e, heq⟩ | ⟨o, table, -, -, hremove, ⟨e, -, heq⟩ | heq⟩
  · rw [heq]
    exact .of_eq rfl rfl rfl
  · rw [heq]
    exact .of_eq rfl (Table.objects_remove hremove).2.2 rfl
  · obtain ⟨htable, -, -, hlimit⟩ := Connection.announced_keeps { c with table } id
    rw [heq]
    refine .of_eq hlimit ?_ ?_
    · exact (congrArg Table.nextGeneration htable).trans (Table.objects_remove hremove).2.2
    · unfold Connection.announced
      split
      · rfl
      · rfl

theorem Outcome.keeps {a : Action app.toKit} {c c' : Connection app.toKit} {hs : List Happening}
    (h : Outcome app c a c' hs) : Keeps c a c' := by
  cases h with
  | aside => exact .of_eq rfl rfl rfl
  | queued _ => exact .of_eq rfl rfl rfl
  | destroyed => exact .destroy c _
  | created _ _ hinsert => exact .insert hinsert
  | inserted _ _ hinsert => exact .insert hinsert
  | bound _ _ => exact .of_eq rfl (Table.nextGeneration_modify _ _ _) rfl
  | taken _ => exact .of_eq rfl (Table.nextGeneration_modify _ _ _) rfl
  | returned _ _ => exact .of_eq rfl (Table.nextGeneration_modify _ _ _) rfl
  | withdrawn => exact ⟨rfl, Nat.le_refl _, fun hne => absurd rfl (hne _)⟩
  | closed =>
    unfold Connection.close
    split
    · exact .of_eq rfl rfl rfl
    · exact .of_eq rfl rfl rfl
  | drained => exact .of_eq rfl (Table.acknowledgeAll_keeps c.pendingAcks c.table).2 rfl
  | fdsDrained => exact .of_eq rfl rfl rfl

theorem keeps (a : Action app.toKit) (c : Connection app.toKit) : Keeps c a (a.apply app c) :=
  (a.outcome c).keeps

end Action

end

end Compositor.Sessions
