import Compositor.Proofs.Session.Effects
import Compositor.Proofs.Session.Lifecycle
import Compositor.Proofs.Session.Orderly

/-
  The display and its implementation.

  The display cannot be destroyed, so it lives as long as the connection is open.  Its implementation leaves it
  only to handle a request, and what runs then cannot give it another one; so it comes back, and between
  operations the display always has it.  `Attended` says this with what is running at the moment, and follows
  orderly actions from there.
-/

namespace Compositor.Sessions

open Compositor.Wire (ObjectId)
open Compositor.Objects (Handle Object Table)
open Compositor.Protocol

/-- As long as the connection is open the display is live, and it is without its implementation exactly
while this is the one that handles a request. -/
def Attended {K : Kit} (running : Option Handle) (c : Connection K) : Prop :=
  c.isOpen → ∃ o, c.table.objects.get? .display = some o ∧
    (o.implementation = none ↔ running = some ⟨.display, o.generation⟩)

namespace Attended

section
variable {K : Kit} {running : Option Handle} {c c' : Connection K}

/-- The display is without its implementation only while this is out. -/
theorem unbound_iff (hc : Attended running c) (hopen : c.isOpen) {o : Object (Implementation K.Handler)}
    (hlive : c.table.objects.get? .display = some o) :
    o.implementation = none ↔ running = some ⟨.display, o.generation⟩ := by
  obtain ⟨o', hlive', hiff⟩ := hc hopen
  rw [hlive] at hlive'
  injection hlive' with heq
  rw [heq]
  exact hiff

/-- What leaves the display alone leaves it attended. -/
theorem of_eq (hc : Attended running c) (hopen : c'.isOpen → c.isOpen)
    (hdisplay : c'.table.objects.get? .display = c.table.objects.get? .display) :
    Attended running c' := by
  intro h
  rw [hdisplay]
  exact hc (hopen h)

/-- A change to the implementation of another object leaves the display alone. -/
theorem modify_of_ne (hc : Attended running c) {id : ObjectId} (hid : id ≠ .display)
    (f : Object (Implementation K.Handler) → Object (Implementation K.Handler)) :
    Attended running { c with table := c.table.modify id f } := by
  refine hc.of_eq (fun h => h) ?_
  dsimp only
  rw [Table.get?_modify, if_neg (Ne.symm hid)]

/-- The display is attended again when its implementation is other than before. -/
theorem modify_display {running' : Option Handle} {o : Object (Implementation K.Handler)}
    (hlive : c.table.objects.get? .display = some o) {implementation : Option (Implementation K.Handler)}
    (himplementation : implementation = none ↔ running' = some ⟨.display, o.generation⟩) :
    Attended running' { c with table := c.table.modify .display fun o => { o with implementation } } := by
  intro _
  refine ⟨{ o with implementation }, ?_, himplementation⟩
  dsimp only
  rw [Table.get?_modify, if_pos rfl, hlive]
  rfl

/-- What runs next to another object does not concern the display. -/
theorem of_ne (hc : Attended running c) {running' : Option Handle}
    (h : ∀ generation, running ≠ some ⟨.display, generation⟩)
    (h' : ∀ generation, running' ≠ some ⟨.display, generation⟩) : Attended running' c := by
  intro hopen
  obtain ⟨o, hlive, hiff⟩ := hc hopen
  refine ⟨o, hlive, fun hunbound => absurd (hiff.1 hunbound) (h _), fun hruns => absurd hruns (h' _)⟩

/-- A new object does not take the place of the display. -/
theorem insert (hc : Attended running c) (h : c.Inserts c') : Attended running c' := by
  intro hopen
  obtain ⟨o, hlive, hiff⟩ := hc (h.isOpen_eq ▸ hopen)
  exact ⟨o, h.get?_of_get? hlive, hiff⟩

end

section
variable {app : Application} {running running' : Option Handle} {c c' : Connection app.toKit}

/-- A plain action leaves the display attended: it cannot be destroyed, nor be given another
implementation while its own is out. -/
theorem plain (hc : Attended running c) {a : Action app.toKit} (hplain : a.IsPlain (running.map (·.id)))
    (h : a.Effect app c c') : Attended running c' := by
  cases h with
  | none _ hobjects hopen => exact hc.of_eq hopen (by rw [hobjects])
  | inserted hinserts => exact hc.insert hinserts
  | @bound id i o hlive hunbound =>
    by_cases hid : id = .display
    · subst hid
      intro hopen
      -- the display has no implementation, so its own is out, and nothing is bound to it
      have hruns := (hc.unbound_iff hopen hlive).1 hunbound
      subst hruns
      exact absurd rfl hplain
    · exact hc.modify_of_ne hid _
  | taken => exact hplain.elim
  | returned => exact hplain.elim
  | removed hid _ hobjects hopen =>
    refine hc.of_eq hopen ?_
    rw [hobjects, Objects.Directory.get?_erase, if_neg (Ne.symm hid)]
  | closed _ _ hclosed =>
    intro hopen
    rw [hclosed] at hopen
    cases hopen

/-- Handing over the queue leaves the display alone. -/
theorem drain (hc : Attended running c) (h : Action.Effect app c .drain c') : Attended running c' := by
  cases h with
  | none _ hobjects hopen => exact hc.of_eq hopen (by rw [hobjects])
  | inserted hinserts => exact hc.insert hinserts

/-- The display's implementation is taken out, or that of another object. -/
theorem take (hc : Attended none c) {id : ObjectId} {o : Object (Implementation app.Handler)}
    (hget : c.table.get id = .ok o) : Attended (some ⟨id, o.generation⟩) (c.takeImplementation id).2 := by
  rw [Connection.takeImplementation_of_get hget]
  dsimp only
  have hlive := Table.get_eq_ok_iff_get?.1 hget
  by_cases hid : id = .display
  · subst hid
    exact modify_display hlive ⟨fun _ => rfl, fun _ => rfl⟩
  · refine modify_of_ne (hc.of_ne (fun _ => nofun) fun _ heq => ?_) hid _
    injection heq with heq
    exact hid (congrArg Handle.id heq)

/-- There is always something to take out of the display. -/
theorem skip (hc : Attended none c) {id : ObjectId} {o : Object (Implementation app.Handler)}
    (hget : c.table.get id = .ok o) (hunbound : o.implementation = none) :
    Attended none (c.takeImplementation id).2 := by
  rw [Connection.takeImplementation_of_get hget]
  dsimp only
  have hlive := Table.get_eq_ok_iff_get?.1 hget
  by_cases hid : id = .display
  · subst hid
    intro hopen
    exact absurd ((hc.unbound_iff hopen hlive).1 hunbound) nofun
  · exact hc.modify_of_ne hid _

/-- What was taken out of the display is put back. -/
theorem giveBack {h : Handle} (hc : Attended (some h) c) (i : Implementation app.Handler) :
    Attended none (c.giveBack app h.id h.generation i) := by
  rcases c.giveBack_cases app h.id h.generation i with ⟨o, hbehind, -, heq⟩ | ⟨hbound, heq⟩
  · have hlive := (Table.behind_eq_some_iff.1 (Table.byHandle_eq_ok_iff.1 hbehind)).1
    rw [heq]
    by_cases hid : h.id = .display
    · rw [hid]
      exact modify_display (hid ▸ hlive) (iff_of_false (Option.some_ne_none i) (Option.some_ne_none _).symm)
    · have hnone : Attended none c := by
        refine hc.of_ne (fun _ heq => ?_) fun _ => nofun
        injection heq with heq
        exact hid (congrArg Handle.id heq)
      exact hnone.modify_of_ne hid _
  · rw [heq]
    intro hopen
    obtain ⟨o, hlive, hiff⟩ := hc hopen
    refine ⟨o, hlive, fun hunbound => ?_, fun hruns => by cases hruns⟩
    -- otherwise the display would be waiting for it
    have hruns := hiff.1 hunbound
    injection hruns with hruns
    subst hruns
    have hbehind : c.table.behind ⟨.display, o.generation⟩ = some o := Table.behind_eq_some_iff.2 ⟨hlive, rfl⟩
    exact absurd hunbound (hbound o (Table.byHandle_eq_ok_iff.2 hbehind))

/-- A session begins with its display bound. -/
theorem new {client : Nat} {registry : Registry} {globals : Globals app.Binder} {limits : Limits}
    {world : app.World} {s : Session app.toKit}
    (hnew : Session.new client registry globals limits world = .ok s) : Attended none s.connection := by
  obtain ⟨i, handle, table, -, hinsert, rfl⟩ := Session.exists_of_new hnew
  intro _
  refine ⟨{ interface := i, version := 1, generation := 1, implementation := some .display }, ?_, ?_⟩
  · dsimp only
    rw [Table.objects_insert hinsert]
    rfl
  · exact iff_of_false (Option.some_ne_none _) (Option.some_ne_none _).symm

/-- Orderly actions leave the display attended. -/
theorem orderly {as : List (Action app.toKit)} (h : Orderly app running as c running')
    (hc : Attended running c) : Attended running' (replay app as c) := by
  induction h with
  | nil => exact hc
  | plain hplain _ ih => exact ih (hc.plain hplain (Action.effect _ _))
  | take hget _ _ ih => exact ih (hc.take hget)
  | skip hget hunbound _ ih => exact ih (hc.skip hget hunbound)
  | giveBack _ ih => exact ih (hc.giveBack _)
  | withdraw _ _ ih =>
    refine ih ?_
    unfold Action.apply
    dsimp only
    split
    · exact hc
    · exact hc

/-- Between operations the display has its implementation. -/
theorem perform {s : Session app.toKit} (hs : Attended none s.connection) (op : Operation app.toKit) :
    Attended none (op.perform app s).connection := by
  rcases op.orderly_actions app s with rfl | rfl | horderly
  · exact hs.drain (Action.effect .drain s.connection)
  · exact hs
  · rw [← op.replay_perform]
    exact hs.orderly horderly

theorem performAll {s : Session app.toKit} (hs : Attended none s.connection)
    (ops : List (Operation app.toKit)) : Attended none (s.performAll app ops).connection := by
  induction ops generalizing s with
  | nil => exact hs
  | cons op ops ih => exact ih (hs.perform op)

end

end Attended

end Compositor.Sessions
