import Compositor.Proofs.Object.Stamps
import Compositor.Protocol.Core

/-
  A handle stands for one object.

  Ids come back: after an acknowledgement, after a marker has expired, after the table was drained.
  Generations do not, and a handle carries both.  Until its object is taken, that object is at its id as the
  writes have made it, and the handle finds it if they have left it its generation; what is taken is that very
  object (`Follows`).

  More can be said where no write takes the generation of the handle from an object at its id or gives it to
  one (`Table.RespectsAll`).  `Table.behind_change` says what one such operation does to the object behind a
  handle that was handed out before: an operation that takes the object leaves nothing behind the handle, a
  change at its id is made to it, and all others leave it as it is.  `Table.behind_changeAll` says the same of
  any number of operations, by induction on them.  So a handle finds its object until that very object is
  removed or drained, and nothing afterwards (`StandsFor`, `standsFor_of_inserted`).
-/

namespace Compositor.Objects

open Compositor.Wire (ObjectId Side)

namespace Table

section
variable {α : Type} {t : Table α} {h : Handle}

/-! ## One operation -/

/-- An insertion puts nothing behind a handle that was handed out before. -/
theorem behind_insert_of_lt {t' : Table α} {side : Side} {id : ObjectId} {o : Object α} {h' : Handle}
    (hold : h.generation < t.nextGeneration) (hi : t.insert side id o = .ok (h', t')) :
    t'.behind h = t.behind h := by
  rw [behind_insert hi, if_neg]
  rintro rfl
  rw [(nextGeneration_insert hi).1] at hold
  exact Nat.lt_irrefl _ hold

/-- An operation that takes what is at the id of a handle leaves nothing behind the handle.  Any other makes of
the object there what it makes of a live object at its id. -/
theorem behind_change (hold : h.generation < t.nextGeneration) {c : Change α} (hrespects : t.Respects h c) :
    (t.change c).2.behind h = if h.id ∈ t.taken c then none else (t.behind h).map (c.alter h.id) := by
  rcases t.change_cases c with hc | ⟨side, new, hc⟩
  · unfold behind
    rw [hc.get?_eq]
    split
    · rfl
    · cases hlive : t.objects.get? h.id with
      | none => rfl
      | some o =>
        -- the object stays at its id, so this is about its generation alone
        have hsame := hrespects.alter_iff hlive
        by_cases hgeneration : o.generation = h.generation
        · simp [Option.filter, hgeneration, hsame.2 hgeneration]
        · simp [Option.filter, hgeneration, mt hsame.1 hgeneration]
  · obtain ⟨o, -, hi⟩ := hc.insert_eq
    rw [hc.taken_eq, if_neg List.not_mem_nil, funext (hc.alter_eq h.id), behind_insert_of_lt hold hi]
    exact (Option.map_id' ..).symm

theorem nextGeneration_le_change (c : Change α) :
    t.nextGeneration ≤ (t.change c).2.nextGeneration := by
  rcases t.change_cases c with hc | ⟨side, new, hc⟩
  · exact Nat.le_of_eq hc.nextGeneration_eq.symm
  · obtain ⟨o, -, hi⟩ := hc.insert_eq
    rw [(nextGeneration_insert hi).2]
    exact Nat.le_succ _

/-! ## Operations one after the other -/

/-- So do any number of operations: a handle that was handed out before finds its object, as they have changed
it, if none of them has taken it. -/
theorem behind_changeAll (cs : List (Change α)) : ∀ {t : Table α}, h.generation < t.nextGeneration →
    t.RespectsAll h cs → (t.changeAll cs).2.behind h =
      if h.id ∈ t.takenAll cs then none else (t.behind h).map (Change.alterAll h.id cs) := by
  induction cs with
  | nil =>
    intro t _ _
    exact (Option.map_id' ..).symm
  | cons c cs ih =>
    intro t hold hrespects
    have hnext := ih (Nat.lt_of_lt_of_le hold (nextGeneration_le_change c)) hrespects.2
    have hstep := behind_change hold hrespects.1
    show ((t.change c).2.changeAll cs).2.behind h =
      if h.id ∈ t.taken c ++ (t.change c).2.takenAll cs then none
        else (t.behind h).map (Change.alterAll h.id cs ∘ c.alter h.id)
    rw [hnext, hstep]
    by_cases hnow : h.id ∈ t.taken c
    · rw [if_pos hnow, if_pos (List.mem_append_left _ hnow)]
      exact ite_self _
    · rw [if_neg hnow]
      by_cases hlater : h.id ∈ (t.change c).2.takenAll cs
      · rw [if_pos hlater, if_pos (List.mem_append_right _ hlater)]
      · rw [if_neg hlater, if_neg fun hmem => (List.mem_append.1 hmem).elim hnow hlater, Option.map_map]

theorem nextGeneration_le_changeAll (cs : List (Change α)) : ∀ {t : Table α},
    t.nextGeneration ≤ (t.changeAll cs).2.nextGeneration := by
  induction cs with
  | nil =>
    intro t
    exact Nat.le_refl _
  | cons c cs ih =>
    intro t
    exact Nat.le_trans (nextGeneration_le_change c) ih

/-- Insertions hand out ever higher generations. -/
theorem generation_lt_of_change {c : Change α} {h' : Handle} (hold : h.generation < t.nextGeneration)
    (hanswer : (t.change c).1 = .handle (.ok h')) : h.generation < h'.generation := by
  obtain ⟨o, side, -, hi⟩ := insert_of_change hanswer
  rw [(nextGeneration_insert hi).1]
  exact hold

/-- The handle that an insertion hands out finds its object, and only then is its generation old. -/
theorem behind_of_change {c : Change α} (hanswer : (t.change c).1 = .handle (.ok h)) :
    ∃ o, c.inserted? = some o ∧ (t.change c).2.behind h = some { o with generation := h.generation } ∧
      h.generation < (t.change c).2.nextGeneration := by
  obtain ⟨o, side, ho, hi⟩ := insert_of_change hanswer
  obtain ⟨hhandle, hnext⟩ := nextGeneration_insert hi
  have hgeneration : h.generation = t.nextGeneration := congrArg Handle.generation hhandle
  refine ⟨o, ho, ?_, ?_⟩
  · rw [behind_insert hi, if_pos rfl, hgeneration]
  · rw [hnext, hgeneration]
    exact Nat.lt_succ_self _

/-- A handle finds the live object at its id if that has its generation. -/
theorem byHandle_of_get? {o : Object α} (hlive : t.objects.get? h.id = some o) :
    t.byHandle h = if o.generation = h.generation then .ok o else .error (.stale h.id) := by
  unfold byHandle get
  rw [hlive]

theorem isCurrent_iff_byHandle : t.isCurrent h.id h.generation = true ↔ ∃ p, t.byHandle h = .ok p := by
  simp only [byHandle_eq_ok_iff, ← Option.isSome_iff_exists]
  unfold isCurrent behind
  cases t.objects.get? h.id with
  | none => exact Iff.rfl
  | some o => simp [Option.filter]

end

end Table

/-! ## What becomes of an object -/

section
variable {α : Type}

/-- An answer hands out an object that was at an id. -/
def Answer.Hands (id : ObjectId) (o : Object α) : Answer α → Prop
  | .object (.ok p) => p = o
  | .objects all => (id, o) ∈ all
  | _ => False

theorem Table.hands_of_mem_taken {t : Table α} {c : Change α} {id : ObjectId} {o : Object α}
    (hlive : t.objects.get? id = some o) (htaken : id ∈ t.taken c) : (t.change c).1.Hands id o := by
  cases c with
  | remove other =>
    unfold taken at htaken
    unfold change
    dsimp only at htaken ⊢
    cases hr : t.remove other with
    | error e =>
      rw [hr] at htaken
      cases htaken
    | ok r =>
      rw [hr] at htaken
      have hother := (objects_remove hr).1
      rw [← List.mem_singleton.1 htaken, hlive] at hother
      injection hother with hother
      exact hother.symm
  | drain => exact List.mem_reverse.2 (Directory.mem_of_get? hlive)
  | insert side other p => cases htaken
  | allocate p => cases htaken
  | modify other f => cases htaken
  | acknowledge other => cases htaken

/-- What becomes of the object that a handle was handed out for, whatever is written to it and to others. -/
structure Follows (t : Table α) (h : Handle) (o : Object α) (cs : List (Change α)) : Prop where
  /-- Until its object is taken, the handle finds it, with the changes that were made to it.  Only if these have
  given it another generation, the handle is stale. -/
  reads : h.id ∉ t.takenAll cs → (t.changeAll cs).2.byHandle h =
    if (Change.alterAll h.id cs o).generation = h.generation then .ok (Change.alterAll h.id cs o)
    else .error (.stale h.id)
  /-- What is first taken at its id is that very object. -/
  taken_eq : ∀ before c after, cs = before ++ c :: after → h.id ∉ t.takenAll before →
    h.id ∈ (t.changeAll before).2.taken c →
      ((t.changeAll before).2.change c).1.Hands h.id (Change.alterAll h.id before o)
  /-- No object that is inserted meanwhile is given its generation, and none its id unless it is taken. -/
  newer : ∀ before c after h', cs = before ++ c :: after →
    ((t.changeAll before).2.change c).1 = .handle (.ok h') →
      h.generation < h'.generation ∧ (h'.id = h.id → h.id ∈ t.takenAll before)
  current_iff : (t.changeAll cs).2.isCurrent h.id h.generation = true ↔
    ∃ p, (t.changeAll cs).2.byHandle h = .ok p

/-- A handle stands for an object of a table, throughout operations on it. -/
structure StandsFor (t : Table α) (h : Handle) (o : Object α) (cs : List (Change α)) : Prop where
  /-- The handle finds an object as long as none of the operations has taken its own. -/
  found_iff : (∃ p, (t.changeAll cs).2.byHandle h = .ok p) ↔ h.id ∉ t.takenAll cs
  /-- What it finds is its object, with the changes that were made to it. -/
  found_eq : ∀ p, (t.changeAll cs).2.byHandle h = .ok p → p = Change.alterAll h.id cs o
  /-- It finds none that is inserted at its id later. -/
  others : ∀ before c after h', cs = before ++ c :: after →
    ((t.changeAll before).2.change c).1 = .handle (.ok h') → h'.id = h.id →
      ∀ p, (t.changeAll cs).2.byHandle h ≠ .ok p

/-- A handle follows the object that it finds. -/
theorem follows_of_behind {t : Table α} {h : Handle} {o : Object α} (hold : h.generation < t.nextGeneration)
    (hbehind : t.behind h = some o) (cs : List (Change α)) : Follows t h o cs := by
  have hlive : t.objects.get? h.id = some o := (Table.behind_eq_some_iff.1 hbehind).1
  refine ⟨fun hnot => ?_, fun before c after _ hnot htaken => ?_, fun before c after h' _ hanswer => ?_,
    Table.isCurrent_iff_byHandle⟩
  · exact Table.byHandle_of_get? (Table.get?_changeAll cs hlive hnot)
  · exact Table.hands_of_mem_taken (Table.get?_changeAll before hlive hnot) htaken
  · have hold' : h.generation < (t.changeAll before).2.nextGeneration :=
      Nat.lt_of_lt_of_le hold (Table.nextGeneration_le_changeAll before)
    refine ⟨Table.generation_lt_of_change hold' hanswer, fun hid => Decidable.byContradiction fun hnot => ?_⟩
    -- the id is not free before it is taken
    obtain ⟨_, side, -, hi⟩ := Table.insert_of_change hanswer
    have hfree := Table.get?_of_insert hi
    rw [hid, Table.get?_changeAll before hlive hnot] at hfree
    cases hfree

/-- It stands for that object, as far as no write takes its generation from there or puts it there. -/
theorem standsFor_of_behind {t : Table α} {h : Handle} {o : Object α} (hold : h.generation < t.nextGeneration)
    (hbehind : t.behind h = some o) {cs : List (Change α)} (hrespects : t.RespectsAll h cs) :
    StandsFor t h o cs := by
  have hthroughout := Table.behind_changeAll cs hold hrespects
  rw [hbehind, Option.map_some] at hthroughout
  have hfound : (∃ p, (t.changeAll cs).2.byHandle h = .ok p) ↔ h.id ∉ t.takenAll cs := by
    simp only [Table.byHandle_eq_ok_iff, hthroughout]
    split
    · rename_i htaken
      exact ⟨nofun, fun hnot => absurd htaken hnot⟩
    · rename_i hnot
      exact ⟨fun _ => hnot, fun _ => ⟨_, rfl⟩⟩
  refine ⟨hfound, fun p hp => ?_, fun before c after h' hcs hanswer hid p hp => ?_⟩
  · rw [Table.byHandle_eq_ok_iff, hthroughout] at hp
    split at hp
    · cases hp
    · injection hp with hp
      exact hp.symm
  · -- its own object was taken before the other was inserted
    have htaken := ((follows_of_behind hold hbehind cs).newer before c after h' hcs hanswer).2 hid
    refine hfound.1 ⟨p, hp⟩ ?_
    rw [hcs, Table.takenAll_append]
    exact List.mem_append_left _ htaken

/-- Whatever has been done to a table of any capacity, and whatever is done to it afterwards: a handle that an
insertion is answered with follows the object that was inserted.  If no write takes the generation of the handle
from an object at its id or gives it to one, it stands for that object. -/
theorem standsFor_of_inserted (capacity : Nat) (before : List (Change α)) (c : Change α) {h : Handle}
    (hanswer : (((Table.empty capacity).changeAll before).2.change c).1 = .handle (.ok h)) :
    ∃ o, c.inserted? = some o ∧ ∀ after,
      let t := (((Table.empty capacity).changeAll before).2.change c).2
      Follows t h { o with generation := h.generation } after ∧
        (t.RespectsAll h after → StandsFor t h { o with generation := h.generation } after) := by
  obtain ⟨o, ho, hbehind, hold⟩ := Table.behind_of_change hanswer
  exact ⟨o, ho, fun after => ⟨follows_of_behind hold hbehind after, standsFor_of_behind hold hbehind⟩⟩

/-! ### An id that comes back -/

def revenantId : ObjectId := ⟨6, by decide⟩

/-- A callback at the id. -/
def revenant : Change Unit := .insert .client revenantId { interface := Protocol.Core.callback, version := 1 }

/-- The table with a first callback. -/
def revenantTable : Table Unit := ((Table.empty 4).change revenant).2

/-- The callback is destroyed, and after the acknowledgement there is another one at its id. -/
def revenantRun : List (Change Unit) := [.remove revenantId, .acknowledge revenantId, revenant]

/-- The handle of the first callback stands for it throughout, and does not find the second one. -/
theorem standsFor_of_inserted_sample :
    ((Table.empty 4).change revenant).1 = .handle (.ok ⟨revenantId, 1⟩) ∧
      revenantTable.RespectsAll ⟨revenantId, 1⟩ revenantRun ∧
        revenantTable.takenAll revenantRun = [revenantId] ∧
          (revenantTable.changeAll revenantRun).2.contains revenantId = true ∧
            ∃ o, revenant.inserted? = some o ∧
              StandsFor revenantTable ⟨revenantId, 1⟩ { o with generation := 1 } revenantRun := by
  have hanswer : (((Table.empty 4).changeAll []).2.change revenant).1 = .handle (.ok ⟨revenantId, 1⟩) := rfl
  have hrespects : revenantTable.RespectsAll ⟨revenantId, 1⟩ revenantRun := ⟨trivial, trivial, trivial, trivial⟩
  obtain ⟨o, ho, hstands⟩ := standsFor_of_inserted 4 [] revenant hanswer
  exact ⟨hanswer, hrespects, rfl, rfl, o, ho, (hstands revenantRun).2 hrespects⟩

/-! ### A stamp that is overwritten -/

/-- The first callback is replaced by one that is not stamped. -/
def erasing : List (Change Unit) :=
  [.assign revenantId { interface := Protocol.Core.callback, version := 1 }]

/-- The second one is replaced by one with the generation of the first, as another table may have stamped it. -/
def forging : List (Change Unit) :=
  revenantRun ++ [.assign revenantId { interface := Protocol.Core.callback, version := 1, generation := 1 }]

/-- Then the handle of the first callback is stale though nothing was taken, and finds something though its own
object was. -/
theorem lost_of_assigned_sample :
    ((Table.empty 4).change revenant).1 = .handle (.ok ⟨revenantId, 1⟩) ∧
      (revenantTable.takenAll erasing = [] ∧
        (revenantTable.changeAll erasing).2.byHandle ⟨revenantId, 1⟩ = .error (.stale revenantId) ∧
          (revenantTable.changeAll erasing).2.isCurrent revenantId 1 = false) ∧
      revenantTable.takenAll forging = [revenantId] ∧
        (revenantTable.changeAll forging).2.byHandle ⟨revenantId, 1⟩ =
          .ok { interface := Protocol.Core.callback, version := 1, generation := 1 } :=
  ⟨rfl, ⟨rfl, rfl, rfl⟩, rfl, rfl⟩

end

end Compositor.Objects
