import Compositor.Proofs.Object.Handles
import Compositor.Proofs.Session.History

/-
  The order of the actions of an operation.

  While an implementation handles a request it is out of its object.  It is taken out and put back within
  one operation, and its program does plain actions only; so at any moment at most one implementation is
  out, and between operations none is.  `Orderly` says this of a list of actions, and
  `Operation.orderly_actions` that the actions of operations are so.

  What all orderly actions preserve is proved once for each of the ways in which they go on.
-/

namespace Compositor.Sessions

open Compositor.Wire (Message ObjectId)
open Compositor.Objects (Handle Object)

/-! ## Orderly actions -/

/-- Actions that take an implementation out only while none is out, and put it back where it was; in
between, and apart from withdrawals while the connection is open, they are plain.  The two handles are
those of the objects whose implementations are out, before and afterwards. -/
inductive Orderly (app : Application) :
    Option Handle → List (Action app.toKit) → Connection app.toKit → Option Handle → Prop where
  | nil {running : Option Handle} {c : Connection app.toKit} : Orderly app running [] c running
  | plain {running running' : Option Handle} {a : Action app.toKit} {as : List (Action app.toKit)}
      {c : Connection app.toKit} (hplain : a.IsPlain (running.map (·.id)))
      (hrest : Orderly app running as (a.apply app c) running') : Orderly app running (a :: as) c running'
  | take {running' : Option Handle} {id : ObjectId} {o : Object (Implementation app.Handler)}
      {i : Implementation app.Handler} {as : List (Action app.toKit)} {c : Connection app.toKit}
      (hget : c.table.get id = .ok o) (hbound : o.implementation = some i)
      (hrest : Orderly app (some ⟨id, o.generation⟩) as (c.takeImplementation id).2 running') :
      Orderly app none (.take id :: as) c running'
  /-- There is nothing to take out. -/
  | skip {running' : Option Handle} {id : ObjectId} {o : Object (Implementation app.Handler)}
      {as : List (Action app.toKit)} {c : Connection app.toKit} (hget : c.table.get id = .ok o)
      (hunbound : o.implementation = none)
      (hrest : Orderly app none as (c.takeImplementation id).2 running') :
      Orderly app none (.take id :: as) c running'
  | giveBack {running' : Option Handle} {h : Handle} {i : Implementation app.Handler}
      {as : List (Action app.toKit)} {c : Connection app.toKit}
      (hrest : Orderly app none as (c.giveBack app h.id h.generation i) running') :
      Orderly app (some h) (.giveBack h.id h.generation i :: as) c running'
  | withdraw {running' : Option Handle} {name : UInt32} {as : List (Action app.toKit)}
      {c : Connection app.toKit} (hopen : c.isOpen)
      (hrest : Orderly app none as (Action.apply app (.withdraw name) c) running') :
      Orderly app none (.withdraw name :: as) c running'

namespace Orderly

variable {app : Application} {running running' running'' : Option Handle}
  {as bs : List (Action app.toKit)} {c : Connection app.toKit}

theorem append (has : Orderly app running as c running')
    (hbs : Orderly app running' bs (replay app as c) running'') :
    Orderly app running (as ++ bs) c running'' := by
  induction has with
  | nil => exact hbs
  | plain hplain _ ih => exact .plain hplain (ih hbs)
  | take hget hbound _ ih => exact .take hget hbound (ih hbs)
  | skip hget hunbound _ ih => exact .skip hget hunbound (ih hbs)
  | giveBack _ ih => exact .giveBack (ih hbs)
  | withdraw hopen _ ih => exact .withdraw hopen (ih hbs)

/-- Orderly actions are orderly up to any point, and from there on. -/
theorem exists_of_append (h : Orderly app running (as ++ bs) c running'') :
    ∃ running', Orderly app running as c running' ∧
      Orderly app running' bs (replay app as c) running'' := by
  induction as generalizing running c with
  | nil => exact ⟨running, .nil, h⟩
  | cons a as ih =>
    cases h with
    | plain hplain hrest =>
      obtain ⟨running', has, hbs⟩ := ih hrest
      exact ⟨running', .plain hplain has, hbs⟩
    | take hget hbound hrest =>
      obtain ⟨running', has, hbs⟩ := ih hrest
      exact ⟨running', .take hget hbound has, hbs⟩
    | skip hget hunbound hrest =>
      obtain ⟨running', has, hbs⟩ := ih hrest
      exact ⟨running', .skip hget hunbound has, hbs⟩
    | giveBack hrest =>
      obtain ⟨running', has, hbs⟩ := ih hrest
      exact ⟨running', .giveBack has, hbs⟩
    | withdraw hopen hrest =>
      obtain ⟨running', has, hbs⟩ := ih hrest
      exact ⟨running', .withdraw hopen has, hbs⟩

/-- Plain actions are orderly, whatever is out. -/
theorem of_isPlain (h : ∀ a ∈ as, a.IsPlain (running.map (·.id))) :
    Orderly app running as c running := by
  induction as generalizing c with
  | nil => exact .nil
  | cons a as ih =>
    exact .plain (h a (List.mem_cons_self ..)) (ih fun b hb => h b (List.mem_cons_of_mem a hb))

end Orderly

/-! ## Requests -/

section
variable (app : Application)

namespace Connection

/-- The target of a request that passes its checks is live, also when the new object is inserted. -/
theorem get_of_accept {K : Kit} {c : Connection K} {m : Message} {a : Accepted K}
    (h : c.accept m = .ok a) : a.connection.table.get m.object = .ok a.target := by
  have hpasses := accept_eq_ok_iff.1 h
  have htarget := hpasses.target_eq
  rcases insertCreated_cases hpasses.inserted with
    ⟨-, hsame⟩ | ⟨id, i, version, handle, table, -, -, htable, hafter⟩
  · rw [hsame]
    exact htarget
  · -- the new object is at an id that had none, so not at the target's
    have hlive := Objects.Table.get_eq_ok_iff_get?.1 htarget
    have hfree := Objects.Table.get?_of_insert htable
    rw [hafter]
    refine Objects.Table.get_eq_ok_iff_get?.2 ?_
    show table.objects.get? m.object = some a.target
    rw [Objects.Table.objects_insert htable, Objects.Directory.get?_put, if_neg ?_]
    · exact hlive
    · rintro heq
      rw [heq, hfree] at hlive
      cases hlive

/-- An implementation that handles a request is put back in the end. -/
theorem orderly_invokeActions (c : Connection app.toKit) (generation : Nat)
    (implementation : Implementation app.Handler) (r : Request) :
    Orderly app (some ⟨r.object, generation⟩) (c.invokeActions app generation implementation r) c
      none := by
  have hprogram : ∀ a ∈ (app.respond implementation r).actions app r.object c,
      a.IsPlain (some r.object) := Program.isPlain_of_mem_actions app _
  unfold invokeActions
  refine .append (.of_isPlain hprogram) ?_
  refine .giveBack (h := ⟨r.object, generation⟩) (.of_isPlain ?_)
  intro a ha
  split at ha
  · cases ha
  · exact isPlain_of_mem_postActions app _ a ha

/-- Dispatching a request takes out the implementation of its target, if there is one, and puts it
back. -/
theorem orderly_dispatchActions {c : Connection app.toKit} (hopen : c.isOpen) (m : Message) :
    Orderly app none (c.dispatchActions app m) c none := by
  unfold dispatchActions
  cases haccept : c.accept m with
  | error v => exact .nil
  | ok a =>
    have hget := get_of_accept haccept
    have hinsert := apply_insertCreated app hopen haccept
    have htaken := congrArg Prod.fst (takeImplementation_of_get hget)
    obtain ⟨target, method, c1⟩ := a
    dsimp only at hget hinsert htaken ⊢
    refine .plain trivial ?_
    rw [hinsert]
    cases htake : c1.takeImplementation m.object with
    | mk implementation? c2 =>
      rw [htake] at htaken
      cases implementation? with
      | none =>
        refine .skip hget htaken.symm (.of_isPlain ?_)
        intro a ha
        dsimp only at ha
        split at ha
        · exact isPlain_of_mem_endOfLifeActions app _ a ha
        · cases ha
      | some i =>
        refine .take hget htaken.symm ?_
        have hinvoke := orderly_invokeActions app c2 target.generation i
          ⟨m.object, m.opcode, target.version, target.interface, m.args⟩
        rw [htake]
        exact .append hinvoke (.of_isPlain (isPlain_of_mem_endOfLifeActions app _))

/-- A global is withdrawn only while the connection is open. -/
theorem orderly_removeGlobalActions (c : Connection app.toKit) (name : UInt32) :
    Orderly app none (c.removeGlobalActions app name) c none := by
  unfold removeGlobalActions
  split
  · exact .nil
  · rename_i hopen
    split
    · exact .nil
    · exact .withdraw (requireOpen_eq_ok_iff.1 hopen)
        (.of_isPlain (isPlain_of_mem_withdrawActions app none))

end Connection

/-! ## Operations -/

namespace Session

theorem orderly_dispatchAllActions (s : Session app.toKit) :
    Orderly app none (s.dispatchAllActions app) s.connection none := by
  apply dispatchAll_induction app (motive := fun s _ =>
    Orderly app none (s.dispatchAllActions app) s.connection none)
  · intro s hturn
    rw [dispatchAllActions_of_not_request app (by rw [hturn]; exact nofun)]
    exact .nil
  · intro s v target hturn
    rw [dispatchAllActions_of_not_request app (by rw [hturn]; exact nofun)]
    exact .nil
  · intro s m rest v connection hturn hdispatch
    have hopen : rest.connection.isOpen := by
      rw [connection_of_turn hturn]
      exact isOpen_of_turn hturn
    rw [dispatchAllActions_of_request app hturn, hdispatch, ← connection_of_turn hturn]
    exact .append (Connection.orderly_dispatchActions app hopen m) .nil
  · intro s m rest connection hturn hdispatch ih
    have hopen : rest.connection.isOpen := by
      rw [connection_of_turn hturn]
      exact isOpen_of_turn hturn
    have hreplay := Connection.replay_dispatch app hopen m
    rw [dispatchAllActions_of_request app hturn, ← connection_of_turn hturn]
    refine .append (Connection.orderly_dispatchActions app hopen m) ?_
    rw [hreplay, hdispatch]
    exact ih

theorem orderly_processActions (s : Session app.toKit) :
    Orderly app none (s.processActions app) s.connection none := by
  unfold processActions
  refine .append (orderly_dispatchAllActions app s) (.of_isPlain ?_)
  intro a ha
  split at ha
  · exact Connection.isPlain_of_mem_failActions app _ a ha
  · split at ha
    · cases ha
    · split at ha
      · exact Connection.isPlain_of_mem_failActions app _ a ha
      · cases ha

end Session

namespace Operation

/-- An operation on the object behind a handle is as orderly as what it does there. -/
theorem orderly_handleActions {s : Session app.toKit} {h : Handle} {as : List (Action app.toKit)}
    (has : ∀ a ∈ as, a.IsPlain none) : Orderly app none (handleActions app s h as) s.connection none := by
  unfold handleActions
  split
  · exact .nil
  · exact .of_isPlain has

/-- The actions of operations are orderly, apart from the two that hand over the queue. -/
theorem orderly_actions (op : Operation app.toKit) (s : Session app.toKit) :
    op = .drainOutbound ∨ op = .takeOutboundFds ∨ Orderly app none (op.actions app s) s.connection none := by
  cases op with
  | drainOutbound => exact .inl rfl
  | takeOutboundFds => exact .inr (.inl rfl)
  | feed bytes =>
    right; right
    unfold actions
    dsimp only
    split
    · exact .nil
    · exact Session.orderly_processActions app { s with inbound := s.inbound ++ bytes }
  | feedFds fds =>
    right; right
    unfold actions
    dsimp only
    split
    · exact .nil
    · split
      · exact .of_isPlain (Connection.isPlain_of_mem_failActions app _)
      · exact Session.orderly_processActions app { s with fds := s.fds ++ fds }
  | dispatch m =>
    right; right
    unfold actions
    dsimp only
    split
    · exact .nil
    · rename_i hopen
      refine .append (Connection.orderly_dispatchActions app (Session.isOpen_of_requireOpen hopen) m)
        (.of_isPlain ?_)
      intro a ha
      split at ha
      · exact Connection.isPlain_of_mem_failActions app _ a ha
      · cases ha
  | postEvent h opcode args =>
    exact .inr (.inr (orderly_handleActions app (Connection.isPlain_of_mem_postActions app none)))
  | bind h implementation =>
    refine .inr (.inr (orderly_handleActions app ?_))
    intro a ha
    rw [List.mem_singleton.1 ha]
    exact (Option.some_ne_none h.id).symm
  | destroy h =>
    refine .inr (.inr (orderly_handleActions app ?_))
    intro a ha
    rw [List.mem_singleton.1 ha]
    trivial
  | removeGlobal name =>
    exact .inr (.inr (Connection.orderly_removeGlobalActions app s.connection name))
  | createObject interface version => exact .inr (.inr (.plain trivial .nil))
  | close => exact .inr (.inr (.plain trivial .nil))
  | enterWorld world => exact .inr (.inr (.plain trivial .nil))

end Operation

end

end Compositor.Sessions
