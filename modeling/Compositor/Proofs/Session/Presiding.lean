import Compositor.Proofs.Session.Attendance
import Compositor.Proofs.Session.Scripts

/-
  The display keeps its own implementation.

  The implementation of the display is put back after every request that it handles, and it is the same as
  before (`respond_display`).  Nothing else can be installed meanwhile, so whatever implements the display is
  its own implementation (`Presided`).  As the display is never left without one between two requests
  (`Attended`), a request to it is always answered by `displayRequest`.
-/

namespace Compositor.Sessions

open Compositor.Wire (Message ObjectId)
open Compositor.Objects (Handle Object Table)
open Compositor.Protocol

/-- Nothing implements the display but its own implementation. -/
def Presided {K : Kit} (c : Connection K) : Prop :=
  c.isOpen → ∀ o i, c.table.objects.get? .display = some o → o.implementation = some i → i = .display

/-- Actions put no other implementation back into the display. -/
def Restores {K : Kit} (as : List (Action K)) : Prop := ∀ g i, .giveBack .display g i ∈ as → i = .display

/-- The implementation of the display is the same after a request. -/
theorem respond_display (app : Application) (r : Request) (self : ObjectId) (c : Connection app.toKit) :
    ((app.respond .display r).run app self c).1.1 = .display := by
  unfold Application.respond
  dsimp only
  rw [Program.run_andThen]
  rfl

namespace Presided

section
variable {K : Kit} {c c' : Connection K}

theorem of_eq (hc : Presided c) (hopen : c'.isOpen → c.isOpen)
    (hdisplay : c'.table.objects.get? .display = c.table.objects.get? .display) : Presided c' := by
  intro h o i hlive
  rw [hdisplay] at hlive
  exact hc (hopen h) o i hlive

/-- The display has another implementation than before only if it is the object that is changed. -/
theorem modify (hc : Presided c) (id : ObjectId) (implementation : Option (Implementation K.Handler))
    (hown : c.isOpen → id = .display → ∀ i, implementation = some i → i = .display) :
    Presided { c with table := c.table.modify id fun o => { o with implementation } } := by
  intro hopen o i hlive hi
  dsimp only at hlive
  rw [Table.get?_modify] at hlive
  split at hlive
  · rename_i hid
    obtain ⟨o', -, rfl⟩ := Option.map_eq_some_iff.1 hlive
    exact hown hopen hid.symm i hi
  · exact hc hopen o i hlive hi

theorem insert (hc : Presided c) (h : c.Inserts c') : Presided c' := by
  obtain ⟨-, hinsert⟩ := h
  intro hopen o i hlive hi
  dsimp only at hlive
  rw [Table.objects_insert hinsert, Objects.Directory.get?_put] at hlive
  split at hlive
  · -- what is inserted has no implementation
    injection hlive with heq
    rw [← heq] at hi
    cases hi
  · exact hc hopen o i hlive hi

end

section
variable {app : Application} {running running' : Option Handle} {c c' : Connection app.toKit}

/-- Nothing is installed on the display while its own implementation is out. -/
theorem plain (hc : Presided c) (hattended : Attended running c) {a : Action app.toKit}
    (hplain : a.IsPlain (running.map (·.id))) (h : a.Effect app c c') : Presided c' := by
  cases h with
  | none _ hobjects hopen => exact hc.of_eq hopen (by rw [hobjects])
  | inserted hinserts => exact hc.insert hinserts
  | @bound id i o hlive hunbound =>
    refine hc.modify id _ fun hopen hid => ?_
    subst hid
    have hruns := (hattended.unbound_iff hopen hlive).1 hunbound
    subst hruns
    exact absurd rfl hplain
  | taken => exact hplain.elim
  | returned => exact hplain.elim
  | removed hid _ hobjects hopen =>
    refine hc.of_eq hopen ?_
    rw [hobjects, Objects.Directory.get?_erase, if_neg (Ne.symm hid)]
  | closed _ _ hclosed =>
    intro hopen
    rw [hclosed] at hopen
    cases hopen

theorem take (hc : Presided c) {id : ObjectId} {o : Object (Implementation app.Handler)}
    (hget : c.table.get id = .ok o) : Presided (c.takeImplementation id).2 := by
  rw [Connection.takeImplementation_of_get hget]
  exact hc.modify id none fun _ _ _ => nofun

theorem giveBack (hc : Presided c) (h : Handle) (i : Implementation app.Handler)
    (hown : h.id = .display → i = .display) : Presided (c.giveBack app h.id h.generation i) := by
  rcases c.giveBack_cases app h.id h.generation i with ⟨o, -, -, heq⟩ | ⟨-, heq⟩
  · rw [heq]
    refine hc.modify h.id _ fun _ hid j hj => ?_
    injection hj with hj
    rw [← hj]
    exact hown hid
  · rw [heq]
    exact hc

/-- Handing over the queue leaves the display alone. -/
theorem drain (hc : Presided c) (h : Action.Effect app c .drain c') : Presided c' := by
  cases h with
  | none _ hobjects hopen => exact hc.of_eq hopen (by rw [hobjects])
  | inserted hinserts => exact hc.insert hinserts

/-- A session begins with a display that its own implementation handles. -/
theorem new {client : Nat} {registry : Registry} {globals : Globals app.Binder} {limits : Limits}
    {world : app.World} {s : Session app.toKit}
    (hnew : Session.new client registry globals limits world = .ok s) : Presided s.connection := by
  obtain ⟨i, handle, table, -, hinsert, rfl⟩ := Session.exists_of_new hnew
  intro _ o j hlive hj
  dsimp only at hlive
  rw [Table.objects_insert hinsert, Objects.Directory.get?_put, if_pos rfl] at hlive
  injection hlive with heq
  rw [← heq] at hj
  injection hj with hj
  exact hj.symm

/-- Orderly actions leave the display to its own implementation, if they put none but that back. -/
theorem orderly {as : List (Action app.toKit)} (h : Orderly app running as c running')
    (hattended : Attended running c) (hc : Presided c) (hrestores : Restores as) :
    Presided (replay app as c) := by
  have hrest : ∀ {a : Action app.toKit} {as}, Restores (a :: as) → Restores as :=
    fun h g i hmem => h g i (List.mem_cons_of_mem _ hmem)
  induction h with
  | nil => exact hc
  | @plain _ _ a _ c hplain _ ih =>
    have heffect := a.effect c
    exact ih (hattended.plain hplain heffect) (hc.plain hattended hplain heffect) (hrest hrestores)
  | take hget _ _ ih => exact ih (hattended.take hget) (hc.take hget) (hrest hrestores)
  | skip hget hunbound _ ih =>
    exact ih (hattended.skip hget hunbound) (hc.take hget) (hrest hrestores)
  | @giveBack _ b i _ _ _ ih =>
    refine ih (hattended.giveBack i) (hc.giveBack b i fun hid => ?_) (hrest hrestores)
    refine hrestores b.generation i ?_
    rw [← hid]
    exact List.mem_cons_self ..
  | @withdraw _ name _ c _ _ ih =>
    -- a withdrawal is not about objects
    have hsame : (Action.apply app (.withdraw name) c).isOpen = c.isOpen ∧
        (Action.apply app (.withdraw name) c).table = c.table := by
      unfold Action.apply
      dsimp only
      split
      · exact ⟨rfl, rfl⟩
      · exact ⟨rfl, rfl⟩
    have hopen : (Action.apply app (.withdraw name) c).isOpen → c.isOpen := fun h => hsame.1 ▸ h
    exact ih (hattended.of_eq hopen (by rw [hsame.2])) (hc.of_eq hopen (by rw [hsame.2])) (hrest hrestores)

end

end Presided

end Compositor.Sessions
