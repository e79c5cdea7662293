import Compositor.Proofs.Object.Identity

/-
  How a handle reads whose object is gone.

  It is refused, and as stale wherever the table knows that the id was in use: another object is there now, or
  a marker, or it is a server id below the counter.  Server ids are known for good, since the counter only
  grows (`Table.nextServer_le_changeAll`).  A client id can be forgotten, by the expiry of its marker or with
  all others when the table is drained, and then the handle reads like one of an id that was never used.

  `departed_of_taken` says this of every handle whose object was taken, and that the id of a removed object is
  not forgotten before its deletion is acknowledged (`Table.waits_changeAll`).  Only if the generation of the
  handle was written to another object at its id, the handle could find that one.
-/

namespace Compositor.Objects

open Compositor.Wire (ObjectId Side)

namespace Table

section
variable {α : Type} {t : Table α} {h : Handle}

/-! ## Reading -/

/-- A handle without its object is stale, where the table knows of its id. -/
theorem byHandle_of_known (hgone : t.behind h = none)
    (hknown : t.slot h.id ≠ none ∨ t.wasAllocated h.id = true) : t.byHandle h = .error (.stale h.id) := by
  unfold byHandle get
  cases hget : t.objects.get? h.id with
  | some o =>
    have hother : o.generation ≠ h.generation := by
      intro heq
      rw [behind_eq_some_iff.2 ⟨hget, heq⟩] at hgone
      cases hgone
    exact if_neg hother
  | none =>
    have hstale : t.isStale h.id = true := by
      unfold isStale
      cases hslot : t.slot h.id with
      | none => exact hknown.resolve_left fun hne => hne hslot
      | some state =>
        cases state with
        | live o =>
          rw [slot_eq_live_iff.1 hslot] at hget
          cases hget
        | stale acked => rfl
    show Except.error (t.missing h.id) = _
    unfold missing
    rw [if_pos hstale]

/-- Of a client id without a slot nothing is known. -/
theorem byHandle_of_forgotten (hside : h.id.side = .client) (hslot : t.slot h.id = none) :
    t.byHandle h = .error (.notFound h.id) := by
  have hstale : t.isStale h.id = false := by
    unfold isStale wasAllocated
    rw [hslot, hside]
    rfl
  unfold byHandle get
  rw [(slot_eq_none_iff.1 hslot).1]
  show Except.error (t.missing h.id) = _
  unfold missing
  rw [hstale]
  rfl

/-! ## Server ids -/

/-- An insertion never sets the counter back. -/
theorem nextServer_le_insert {t' : Table α} {side : Side} {id : ObjectId} {o : Object α}
    (hi : t.insert side id o = .ok (h, t')) : t.nextServer ≤ t'.nextServer := by
  obtain ⟨-, -, heq⟩ := insert_eq_ok_iff.1 hi
  rw [heq]
  dsimp only
  split
  · rename_i hside
    subst hside
    exact Nat.le_succ_of_le (nextServer_le_of_insert hi)
  · exact Nat.le_refl _

theorem nextServer_le_change (c : Change α) : t.nextServer ≤ (t.change c).2.nextServer := by
  rcases t.change_cases c with hc | ⟨side, new, hc⟩
  · exact Nat.le_of_eq hc.nextServer_eq.symm
  · obtain ⟨o, -, hi⟩ := hc.insert_eq
    exact nextServer_le_insert hi

theorem nextServer_le_changeAll (cs : List (Change α)) : ∀ {t : Table α},
    t.nextServer ≤ (t.changeAll cs).2.nextServer := by
  induction cs with
  | nil =>
    intro t
    exact Nat.le_refl _
  | cons c cs ih =>
    intro t
    exact Nat.le_trans (nextServer_le_change c) ih

/-- A server id that has held an object counts as allocated from then on. -/
theorem wasAllocated_changeAll (ht : t.Consistent) (hside : h.id.side = .server)
    (hused : t.slot h.id ≠ none) (cs : List (Change α)) : (t.changeAll cs).2.wasAllocated h.id = true := by
  have hlt := Nat.lt_of_lt_of_le (ht.server_lt h.id hside hused) (nextServer_le_changeAll cs)
  unfold wasAllocated
  rw [hside, decide_eq_true hlt]
  rfl

/-! ## Client ids -/

/-- An id that waits goes on waiting, unless its deletion is acknowledged or the table is drained. -/
theorem waits_change (ht : t.Consistent) {id : ObjectId} (hwaits : t.slot id = some (.stale false))
    {c : Change α} (hacknowledge : c ≠ .acknowledge id) (hdrain : c ≠ .drain) :
    (t.change c).2.slot id = some (.stale false) := by
  unfold change
  cases c with
  | insert side other o =>
    dsimp only
    cases hi : t.insert side other o with
    | error e => exact hwaits
    | ok r => exact (waits_insert hi id).2 hwaits
  | allocate o =>
    dsimp only
    cases ha : t.allocate o with
    | error e => exact hwaits
    | ok r => exact (waits_insert (insert_of_allocate ha) id).2 hwaits
  | modify other f => exact (waits_modify t other f id).2 hwaits
  | remove other =>
    dsimp only
    cases hr : t.remove other with
    | error e => exact hwaits
    | ok r => exact (waits_remove ht.tidy hr id).2 (.inr hwaits)
  | acknowledge other =>
    refine (waits_acknowledge ht.tidy other id).2 ⟨?_, hwaits⟩
    rintro rfl
    exact hacknowledge rfl
  | drain => exact absurd rfl hdrain

theorem waits_changeAll {id : ObjectId} (cs : List (Change α)) : ∀ {t : Table α}, t.Consistent →
    t.slot id = some (.stale false) → .acknowledge id ∉ cs → .drain ∉ cs →
      (t.changeAll cs).2.slot id = some (.stale false) := by
  induction cs with
  | nil =>
    intro t _ hwaits _ _
    exact hwaits
  | cons c cs ih =>
    intro t ht hwaits hacknowledge hdrain
    obtain ⟨hac, hacs⟩ := not_or.1 (mt List.mem_cons.2 hacknowledge)
    obtain ⟨hdc, hdcs⟩ := not_or.1 (mt List.mem_cons.2 hdrain)
    exact ih (ht.change c) (waits_change ht hwaits (Ne.symm hac) (Ne.symm hdc)) hacs hdcs

/-- The id of a removed object waits, if it is the client's. -/
theorem waits_of_taken (ht : t.Consistent) {id : ObjectId} (hside : id.side = .client)
    (htaken : id ∈ t.taken (.remove id)) : (t.change (.remove id)).2.slot id = some (.stale false) := by
  unfold taken at htaken
  unfold change
  dsimp only at htaken ⊢
  cases hr : t.remove id with
  | error e =>
    rw [hr] at htaken
    cases htaken
  | ok r => exact (waits_remove ht.tidy hr id).2 (.inl ⟨rfl, hside⟩)

end

end Table

/-! ## Handles of objects that are gone -/

section
variable {α : Type}

/-- How a handle reads after operations one of which has taken its object. -/
structure Departed (t : Table α) (h : Handle) (cs : List (Change α)) : Prop where
  /-- It is refused as stale, unless its id is the client's and the table has neither an object nor a marker
  there: then it is refused as unknown. -/
  reads : (t.changeAll cs).2.byHandle h = .error
    (if h.id.side = .client ∧ (t.changeAll cs).2.slot h.id = none then .notFound h.id else .stale h.id)
  /-- It is stale at least until the deletion is acknowledged, or the table drained. -/
  stale : ∀ before after, cs = before ++ .remove h.id :: after →
    h.id ∈ (t.changeAll before).2.taken (.remove h.id) → .acknowledge h.id ∉ after → .drain ∉ after →
      (t.changeAll cs).2.byHandle h = .error (.stale h.id)

/-- Whatever has been done to a table of any capacity: this is how a handle that an insertion was answered with
reads as soon as its object is taken, and for good, where no write takes the generation of the handle from an
object at its id or gives it to one. -/
theorem departed_of_taken (capacity : Nat) (before : List (Change α)) (c : Change α) {h : Handle}
    (hanswer : (((Table.empty capacity).changeAll before).2.change c).1 = .handle (.ok h))
    (after : List (Change α))
    (hrespects : (((Table.empty capacity).changeAll before).2.change c).2.RespectsAll h after)
    (htaken : h.id ∈ (((Table.empty capacity).changeAll before).2.change c).2.takenAll after) :
    Departed (((Table.empty capacity).changeAll before).2.change c).2 h after := by
  have ht := ((Table.consistent_empty capacity).changeAll before).change c
  obtain ⟨o, -, hbehind, hold⟩ := Table.behind_of_change hanswer
  generalize (((Table.empty capacity).changeAll before).2.change c).2 = t at *
  have hused : t.slot h.id ≠ none := by
    rw [Table.slot_eq_live_iff.2 (Table.behind_eq_some_iff.1 hbehind).1]
    exact Option.some_ne_none _
  have hgone : (t.changeAll after).2.behind h = none := by
    rw [Table.behind_changeAll after hold hrespects, if_pos htaken]
  have hserver : h.id.side = .server → (t.changeAll after).2.byHandle h = .error (.stale h.id) := fun hside =>
    Table.byHandle_of_known hgone (.inr (Table.wasAllocated_changeAll ht hside hused after))
  refine ⟨?_, fun pre post hsplit hremoved hacknowledge hdrain => ?_⟩
  · cases hside : h.id.side with
    | server =>
      rw [hserver hside, if_neg]
      rintro ⟨hclient, -⟩
      cases hclient
    | client =>
      by_cases hslot : (t.changeAll after).2.slot h.id = none
      · rw [if_pos ⟨rfl, hslot⟩, Table.byHandle_of_forgotten hside hslot]
      · rw [if_neg fun hforgotten => hslot hforgotten.2, Table.byHandle_of_known hgone (.inl hslot)]
  · cases hside : h.id.side with
    | server => exact hserver hside
    | client =>
      -- the marker has been waiting ever since the removal
      have hpre := ht.changeAll pre
      have hwaits := Table.waits_changeAll post (hpre.change (.remove h.id))
        (Table.waits_of_taken hpre hside hremoved) hacknowledge hdrain
      have hstates : (t.changeAll after).2 =
          (((t.changeAll pre).2.change (.remove h.id)).2.changeAll post).2 := by
        rw [hsplit, Table.changeAll_append]
        rfl
      refine Table.byHandle_of_known hgone (.inl ?_)
      rw [hstates, hwaits]
      exact Option.some_ne_none _

/-! ### A table that remembers nothing -/

def forgottenId : ObjectId := ⟨9, by decide⟩

/-- A callback at the id. -/
def forgotten : Change Unit := .insert .client forgottenId { interface := Protocol.Core.callback, version := 1 }

/-- A table without room for markers that do not wait, and a callback in it. -/
def forgottenTable : Table Unit := ((Table.empty 0).change forgotten).2

/-- The callback is destroyed, and its deletion acknowledged. -/
def forgettingRun : List (Change Unit) := [.remove forgottenId, .acknowledge forgottenId]

/-- The handle of the callback is stale until the acknowledgement, and unknown from then on. -/
theorem unknown_of_forgotten_sample :
    ((Table.empty 0).change forgotten).1 = .handle (.ok ⟨forgottenId, 1⟩) ∧
      forgottenTable.takenAll forgettingRun = [forgottenId] ∧
        (forgottenTable.changeAll [.remove forgottenId]).2.byHandle ⟨forgottenId, 1⟩ =
            .error (.stale forgottenId) ∧
          (forgottenTable.changeAll forgettingRun).2.byHandle ⟨forgottenId, 1⟩ =
            .error (.notFound forgottenId) := ⟨rfl, rfl, rfl, rfl⟩

theorem departed_of_taken_sample :
    ((Table.empty 0).change forgotten).1 = .handle (.ok ⟨forgottenId, 1⟩) ∧
      forgottenTable.RespectsAll ⟨forgottenId, 1⟩ forgettingRun ∧
        forgottenId ∈ forgottenTable.takenAll forgettingRun ∧
          Departed forgottenTable ⟨forgottenId, 1⟩ forgettingRun := by
  have hanswer : (((Table.empty 0).changeAll []).2.change forgotten).1 = .handle (.ok ⟨forgottenId, 1⟩) := rfl
  have hrespects : forgottenTable.RespectsAll ⟨forgottenId, 1⟩ forgettingRun := ⟨trivial, trivial, trivial⟩
  have htaken : forgottenId ∈ forgottenTable.takenAll forgettingRun := List.mem_singleton.2 rfl
  exact ⟨hanswer, hrespects, htaken, departed_of_taken 0 [] forgotten hanswer forgettingRun hrespects htaken⟩

end

end Compositor.Objects
