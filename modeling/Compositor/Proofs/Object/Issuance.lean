import Compositor.Proofs.Object.Changes
import Mathlib.Data.List.Nodup

/-
  What a table knows of its past.

  An insertion is answered with a handle.  `Table.issuedAll` lists the handles that operations hand out, in
  order, beside the ids of the objects that they take (`Table.takenAll`).  `Recalls` ties a table to the two
  lists: at each id as many objects were taken as handed out but for one that is live, every marker is left by
  something that was taken, and the counter of server ids stands right above the highest one.  An operation
  hands out a handle or leaves the counters alone (`Table.change_cases`), and either way the table recalls it
  (`Recalls.change`); by induction it recalls any number of operations (`recalls_of_changes`).

  Nothing of this depends on what is written to the objects: the lists count them by their ids.
-/

namespace Compositor.Objects

open Compositor.Wire (ObjectId Side)

section
variable {α : Type}

/-- The handles that operations hand out, one after the other. -/
def Table.issuedAll (t : Table α) : List (Change α) → List Handle
  | [] => []
  | c :: cs => t.issued c ++ (t.change c).2.issuedAll cs

namespace Table

variable {t : Table α}

/-! ## Objects that come and go -/

/-- No id is taken twice by one operation. -/
theorem nodup_taken (hascending : t.objects.Ascending) (c : Change α) : (t.taken c).Nodup := by
  cases c with
  | remove id =>
    unfold taken
    dsimp only
    split
    · exact List.nodup_cons.2 ⟨List.not_mem_nil, .nil⟩
    · exact .nil
  | drain =>
    show (t.objects.reverse.map (·.1)).Nodup
    rw [List.map_reverse, List.nodup_reverse]
    exact Directory.nodup_ids hascending
  | insert side id o => exact .nil
  | allocate o => exact .nil
  | modify id f => exact .nil
  | acknowledge id => exact .nil

/-- Of what is live, an operation that inserts nothing leaves what it does not take. -/
theorem Quiet.balance (hascending : t.objects.Ascending) {c : Change α} (hc : t.Quiet c) (id : ObjectId) :
    (t.taken c).count id + ((t.change c).2.contains id).toNat = (t.contains id).toNat := by
  by_cases htaken : id ∈ t.taken c
  · have hbefore : t.contains id = true := contains_eq_true_iff.2 (exists_of_mem_taken hascending htaken)
    have hafter : (t.change c).2.contains id = false := contains_eq_false_iff.2 (get?_of_mem_taken htaken)
    rw [hbefore, hafter, List.count_eq_one_of_mem (nodup_taken hascending c) htaken]
    rfl
  · rw [List.count_eq_zero.2 htaken, Nat.zero_add]
    unfold contains
    rw [hc.get?_eq, if_neg htaken, Option.isSome_map]

/-- A new object is live at an id where none was. -/
theorem contains_insert {t' : Table α} {side : Side} {id : ObjectId} {o : Object α} {h : Handle}
    (hi : t.insert side id o = .ok (h, t')) (other : ObjectId) :
    (t'.contains other).toNat = [id].count other + (t.contains other).toNat := by
  unfold contains
  rw [objects_insert hi, Directory.get?_put]
  by_cases hother : other = id
  · subst hother
    rw [if_pos rfl, get?_of_insert hi, List.count_cons_self]
    rfl
  · rw [if_neg hother, List.count_cons_of_ne (Ne.symm hother)]
    simp

end Table

/-! ## Tables and their past -/

/-- The lowest server id. -/
def firstServer : Nat := 0xFF000000

theorem side_eq_server_iff {id : ObjectId} : id.side = .server ↔ firstServer ≤ id.toNat := by
  rw [← Side.contains_iff_side]
  show decide (Wire.serverMin ≤ id.raw) = true ↔ _
  rw [decide_eq_true_iff, UInt32.le_iff_toNat_le]
  rfl

/-- What a table recalls of the handles that were handed out, and of the ids that were taken. -/
structure Recalls (t : Table α) (issued : List Handle) (taken : List ObjectId) : Prop where
  consistent : t.Consistent
  /-- At each id, what was handed out was taken or is live. -/
  balance : ∀ id, (issued.map (·.id)).count id = taken.count id + (t.contains id).toNat
  marked : ∀ m ∈ t.markers, m.id ∈ taken
  generation_lt : ∀ h ∈ issued, h.generation < t.nextGeneration
  server_lt : ∀ h ∈ issued, h.id.side = .server → h.id.toNat < t.nextServer
  /-- The counter stands where it started, or right above a server id that was handed out. -/
  last : t.nextServer = firstServer ∨ ∃ h ∈ issued, h.id.side = .server ∧ h.id.toNat + 1 = t.nextServer
  /-- Server ids have been handed out in ascending order. -/
  ascending : (issued.filter (·.id.side == .server)).Pairwise fun h h' => h.id.toNat < h'.id.toNat

namespace Recalls

variable {t : Table α} {issued : List Handle} {taken : List ObjectId}

theorem empty (capacity : Nat) : Recalls (.empty capacity : Table α) [] [] where
  consistent := Table.consistent_empty capacity
  balance _ := rfl
  marked := nofun
  generation_lt := nofun
  server_lt := nofun
  last := .inl rfl
  ascending := .nil

/-- A server id from the counter on is above all that were handed out. -/
theorem ascending_append (h : Recalls t issued taken) {new : Handle}
    (habove : new.id.side = .server → t.nextServer ≤ new.id.toNat) :
    ((issued ++ [new]).filter (·.id.side == .server)).Pairwise fun h h' => h.id.toNat < h'.id.toNat := by
  rw [List.filter_append, List.pairwise_append]
  refine ⟨h.ascending, List.Pairwise.filter _ (List.pairwise_singleton _ _), fun k hk k' hk' => ?_⟩
  obtain ⟨hk, hkside⟩ := List.mem_filter.1 hk
  obtain ⟨hk', hkside'⟩ := List.mem_filter.1 hk'
  rw [List.mem_singleton.1 hk'] at hkside' ⊢
  have := h.server_lt k hk (beq_iff_eq.1 hkside)
  have := habove (beq_iff_eq.1 hkside')
  omega

/-- An insertion is recalled. -/
theorem places (h : Recalls t issued taken) {c : Change α} {side : Side} {new : Handle}
    (hc : t.Places c side new) : Recalls (t.change c).2 (issued ++ [new]) taken := by
  have hconsistent := h.consistent.change c
  obtain ⟨o, -, hi⟩ := hc.insert_eq
  generalize (t.change c).2 = t' at hi hconsistent ⊢
  obtain ⟨hnew, hgeneration⟩ := Table.nextGeneration_insert hi
  have hstamp : new.generation = t.nextGeneration := congrArg Handle.generation hnew
  have hside : new.id.side = side := (Side.contains_iff_side side new.id).1 (Table.slot_of_insert hi).1
  obtain ⟨-, -, ht'⟩ := Table.insert_eq_ok_iff.1 hi
  have hserver : t'.nextServer = if side = .server then new.id.toNat + 1 else t.nextServer := by rw [ht']
  have hmarkers : t'.markers = Marker.forget new.id t.markers := by rw [ht']
  have habove : side = .server → t.nextServer ≤ new.id.toNat := by
    rintro rfl
    exact Table.nextServer_le_of_insert hi
  refine ⟨hconsistent, fun id => ?_, fun m hm => ?_, fun k hk => ?_, fun k hk hkside => ?_, ?_,
    h.ascending_append fun hs => habove (hside.symm.trans hs)⟩
  · rw [List.map_append, List.count_append, h.balance, Table.contains_insert hi]
    show _ + [new.id].count id = _
    omega
  · rw [hmarkers] at hm
    exact h.marked m (List.mem_filter.1 hm).1
  · rw [hgeneration]
    rcases List.mem_append.1 hk with hk | hk
    · have := h.generation_lt k hk
      omega
    · rw [List.mem_singleton.1 hk, hstamp]
      omega
  · rw [hserver]
    rcases List.mem_append.1 hk with hk | hk
    · have := h.server_lt k hk hkside
      split
      · rename_i hs
        have := habove hs
        omega
      · exact this
    · rw [List.mem_singleton.1 hk] at hkside ⊢
      rw [if_pos (hside.symm.trans hkside)]
      omega
  · rw [hserver]
    split
    · rename_i hs
      exact .inr ⟨new, List.mem_append_right _ (List.mem_singleton.2 rfl), hside.trans hs, rfl⟩
    · rcases h.last with hfirst | ⟨k, hk, hlast⟩
      · exact .inl hfirst
      · exact .inr ⟨k, List.mem_append_left _ hk, hlast⟩

/-- So is an operation that inserts nothing. -/
theorem quiet (h : Recalls t issued taken) {c : Change α} (hc : t.Quiet c) :
    Recalls (t.change c).2 issued (taken ++ t.taken c) := by
  refine ⟨h.consistent.change c, fun id => ?_, fun m hm => ?_, ?_, ?_, ?_, h.ascending⟩
  · rw [h.balance, List.count_append, ← hc.balance h.consistent.ascending id, Nat.add_assoc]
  · rcases hc.marked m hm with ⟨m', hm', hid⟩ | hmem
    · rw [← hid]
      exact List.mem_append_left _ (h.marked m' hm')
    · exact List.mem_append_right _ hmem
  · rw [hc.nextGeneration_eq]
    exact h.generation_lt
  · rw [hc.nextServer_eq]
    exact h.server_lt
  · rw [hc.nextServer_eq]
    exact h.last

/-- Every operation is recalled. -/
theorem change (h : Recalls t issued taken) (c : Change α) :
    Recalls (t.change c).2 (issued ++ t.issued c) (taken ++ t.taken c) := by
  rcases t.change_cases c with hc | ⟨side, new, hc⟩
  · rw [hc.issued_eq, List.append_nil]
    exact h.quiet hc
  · rw [hc.issued_eq, hc.taken_eq, List.append_nil]
    exact h.places hc

theorem changeAll (cs : List (Change α)) : ∀ {t : Table α} {issued : List Handle} {taken : List ObjectId},
    Recalls t issued taken →
      Recalls (t.changeAll cs).2 (issued ++ t.issuedAll cs) (taken ++ t.takenAll cs) := by
  induction cs with
  | nil =>
    intro t issued taken h
    simpa only [Table.changeAll, Table.issuedAll, Table.takenAll, List.append_nil] using h
  | cons c cs ih =>
    intro t issued taken h
    simpa only [Table.changeAll, Table.issuedAll, Table.takenAll, List.append_assoc] using ih (h.change c)

/-- What was taken was handed out. -/
theorem exists_of_mem_taken (h : Recalls t issued taken) {id : ObjectId} (hid : id ∈ taken) :
    ∃ k ∈ issued, k.id = id := by
  have hpos : 0 < (issued.map (·.id)).count id := by
    rw [h.balance]
    exact Nat.add_pos_left (List.count_pos_iff.2 hid) _
  exact List.mem_map.1 (List.count_pos_iff.1 hpos)

/-- An id is live if more objects were handed out there than taken. -/
theorem exists_get_iff (h : Recalls t issued taken) (id : ObjectId) :
    (∃ o, t.get id = .ok o) ↔ taken.count id < (issued.map (·.id)).count id := by
  simp only [Table.get_eq_ok_iff_get?]
  rw [← Table.contains_eq_true_iff, h.balance]
  cases t.contains id with
  | false => simp
  | true => simp

end Recalls

/-- A table of any capacity recalls whatever is done to it. -/
theorem recalls_of_changes (capacity : Nat) (cs : List (Change α)) :
    Recalls ((Table.empty capacity).changeAll cs).2 ((Table.empty capacity).issuedAll cs)
      ((Table.empty capacity).takenAll cs) := (Recalls.empty capacity).changeAll cs

end

end Compositor.Objects
