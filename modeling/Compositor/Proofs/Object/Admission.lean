import Compositor.Proofs.Object.Issuance

/-
  Which ids can be taken.

  A client id can be taken unless it is live or waits for an acknowledgement, a server id if the counter has
  not passed it (`Table.Admits`).  The table looks at the slot of the id first, and there no server id is above
  the counter, so that of the server's ids none that is live or has a marker is admitted
  (`Table.refusal_cases`).  What is refused is refused for one reason and changes nothing; what is admitted
  becomes live under a generation that no handle had before, and concerns no other id (`admission_of_changes`).
-/

namespace Compositor.Objects

open Compositor.Wire (ObjectId Side)

namespace Table

section
variable {α : Type}

/-- An id that a side may take: a client id that is not live and does not wait, or a server id from the counter
on. -/
def Admits (t : Table α) (side : Side) (id : ObjectId) : Prop :=
  side.contains id.raw = true ∧
    match side with
    | .client => t.contains id = false ∧ t.slot id ≠ some (.stale false)
    | .server => t.nextServer ≤ id.toNat

/-- Why a side may not take an id: it is not in its range, or else live, or else not released. -/
def obstacle (t : Table α) (side : Side) (id : ObjectId) : TableError :=
  if side.contains id.raw = false then .idOutOfRange id.raw side
  else if t.contains id = true then .idInUse id
  else .idNotReleased id

/-- An object is placed at an id: the id is live, its marker is gone, and no other id is concerned. -/
structure Placed (t t' : Table α) (id : ObjectId) (o : Object α) (h : Handle) : Prop where
  id_eq : h.id = id
  live : t'.slot id = some (.live { o with generation := h.generation })
  others : ∀ other, other ≠ id → t'.slot other = t.slot other
  /-- The other markers stand in the same order. -/
  markers : t'.markers = t.markers.filter (·.id ≠ id)

variable {t : Table α} {side : Side} {id : ObjectId}

/-- A server id with a slot is not admitted, for the counter has passed it. -/
theorem not_admits_of_slot (ht : t.Consistent) (hside : side = .server) (hslot : t.slot id ≠ none) :
    ¬ t.Admits side id := by
  subst hside
  rintro ⟨hcontains, hcounter⟩
  have hlt := ht.server_lt id ((Side.contains_iff_side .server id).1 hcontains) hslot
  dsimp only at hcounter
  omega

/-- An id in the range of its side is gone for good if it is the server's and the counter has passed it. -/
theorem wasAllocated_iff_of_contains (hcontains : side.contains id.raw = true) :
    t.wasAllocated id = true ↔ side = .server ∧ id.toNat < t.nextServer := by
  have hside := (Side.contains_iff_side side id).1 hcontains
  unfold wasAllocated
  rw [Bool.and_eq_true, beq_iff_eq, decide_eq_true_iff, hside]

/-- An id is admitted, or refused for the reason that stands in the way. -/
theorem refusal_cases (ht : t.Consistent) (side : Side) (id : ObjectId) :
    t.Admits side id ∧ t.refusal? side id = none ∨
      ¬ t.Admits side id ∧ t.refusal? side id = some (t.obstacle side id) := by
  unfold refusal? obstacle
  cases hcontains : side.contains id.raw with
  | false => exact .inr ⟨fun hadmits => Bool.false_ne_true (hcontains.symm.trans hadmits.1), rfl⟩
  | true =>
    simp only [Bool.not_true, Bool.false_eq_true, if_false, Bool.true_eq_false]
    cases hslot : t.slot id with
    | none =>
      have hfree : t.contains id = false := contains_eq_false_iff.2 (slot_eq_none_iff.1 hslot).1
      have hwas := wasAllocated_iff_of_contains (t := t) hcontains
      rw [hfree]
      cases side with
      | client =>
        refine .inl ⟨⟨hcontains, hfree, by rw [hslot]; nofun⟩, if_neg fun h => ?_⟩
        cases (hwas.1 h).1
      | server =>
        by_cases hlt : id.toNat < t.nextServer
        · exact .inr ⟨fun hadmits => Nat.not_le_of_lt hlt hadmits.2, if_pos (hwas.2 ⟨rfl, hlt⟩)⟩
        · exact .inl ⟨⟨hcontains, Nat.le_of_not_lt hlt⟩, if_neg fun h => hlt (hwas.1 h).2⟩
    | some state =>
      have hserver : side = .server → t.slot id ≠ none → ¬ t.Admits side id := not_admits_of_slot ht
      rw [hslot] at hserver
      cases state with
      | live o =>
        have hlive : t.contains id = true := by
          unfold contains
          rw [slot_eq_live_iff.1 hslot]
          rfl
        refine .inr ⟨?_, by rw [hlive]; rfl⟩
        cases side with
        | client => exact fun hadmits => Bool.false_ne_true (hadmits.2.1.symm.trans hlive)
        | server => exact hserver rfl nofun
      | stale acked =>
        have hfree : t.contains id = false :=
          contains_eq_false_iff.2 (ht.tidy.unmarked _ ((slot_eq_stale_iff ht.tidy).1 hslot))
        rw [hfree]
        cases side with
        | server => exact .inr ⟨hserver rfl nofun, by cases acked <;> rfl⟩
        | client =>
          cases acked with
          | false => exact .inr ⟨fun hadmits => hadmits.2.2 hslot, rfl⟩
          | true => exact .inl ⟨⟨hcontains, hfree, by rw [hslot]; nofun⟩, rfl⟩

theorem placed_of_insert {t' : Table α} {o : Object α} {h : Handle} (hi : t.insert side id o = .ok (h, t')) :
    Placed t t' id o h := by
  have hslot := slot_insert hi
  obtain ⟨-, hh, ht'⟩ := insert_eq_ok_iff.1 hi
  refine ⟨?_, ?_, fun other hother => ?_, ?_⟩
  · rw [hh]
  · rw [hslot, if_pos rfl, hh]
  · rw [hslot, if_neg hother]
  · rw [ht']
    refine List.filter_congr fun m _ => ?_
    by_cases hm : m.id = id
    · simp [hm]
    · simp [hm]

/-- A side takes an id that it may take. -/
theorem insert_of_admits (ht : t.Consistent) (hadmits : t.Admits side id) (o : Object α) :
    ∃ h t', t.insert side id o = .ok (h, t') := by
  rcases refusal_cases ht side id with ⟨-, hnone⟩ | ⟨hnot, -⟩
  · exact ⟨_, _, insert_eq_ok_iff.2 ⟨hnone, rfl, rfl⟩⟩
  · exact absurd hadmits hnot

end

end Table

/-! ## Insertions after any operations -/

/-- Whatever has been done to a table of any capacity, an insertion takes the id if its side may take it, and is
refused otherwise. -/
theorem admission_of_changes {α : Type} (capacity : Nat) (cs : List (Change α)) (side : Side) (id : ObjectId)
    (o : Object α) :
    let t := ((Table.empty capacity).changeAll cs).2
    (t.Admits side id ∧ ∃ h t', t.insert side id o = .ok (h, t') ∧ t.Placed t' id o h ∧
        ∀ old ∈ (Table.empty capacity).issuedAll cs, old.generation < h.generation) ∨
      (¬ t.Admits side id ∧ t.insert side id o = .error (t.obstacle side id) ∧
        (t.change (.insert side id o)).2 = t) := by
  intro t
  have hrecalls : Recalls t _ _ := recalls_of_changes capacity cs
  rcases Table.refusal_cases hrecalls.consistent side id with ⟨hadmits, -⟩ | ⟨hnot, hrefusal⟩
  · obtain ⟨h, t', hi⟩ := Table.insert_of_admits hrecalls.consistent hadmits o
    refine .inl ⟨hadmits, h, t', hi, Table.placed_of_insert hi, fun old hold => ?_⟩
    rw [(Table.nextGeneration_insert hi).1]
    exact hrecalls.generation_lt old hold
  · have hi : t.insert side id o = .error (t.obstacle side id) := by
      unfold Table.insert
      rw [hrefusal]
    refine .inr ⟨hnot, hi, ?_⟩
    unfold Table.change
    dsimp only
    rw [hi]
    rfl

end Compositor.Objects
