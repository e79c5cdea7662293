import Compositor.Proofs.Object.Ledger
import Compositor.Protocol.Core

/-
  Which markers expire.

  Expiry drops the oldest acknowledged markers: as many as there are markers beyond the capacity, or all of them
  if there are fewer.  `Drops` says of a list of ids that they lose their slots and their places in the queue,
  and that nothing else changes; `Expires` that these are the first acknowledged ids of the queue, and how many.

  The ledger runs through its queue by index, deletes at the index, and stops by the length that is left
  (`Ledger.drops_expireFrom`, by induction on the run: no id before the index is acknowledged, so that what it
  deletes is always the oldest).  The table drops markers from its list (`Table.drops_expire`).  Both need no more
  of the books than that the queue lists the markers (`Queued`).

  Between operations nothing is left to expire (`Table.Consistent.expire_eq`): a queue beyond the capacity has no
  acknowledged marker.  A removal or an acknowledgement adds one at the most (`Table.Marks`), and so no more than
  one expires (`oldest_acknowledged_expire`).
-/

namespace Compositor.Objects

open Compositor.Wire (ObjectId)

/-! ## Queues of markers -/

section
variable {α : Type}

/-- A queue lists the ids whose slot is a marker, each of them once. -/
structure Queued (slot : ObjectId → Option (Slot α)) (stale : List ObjectId) : Prop where
  nodup : stale.Nodup
  mem_iff : ∀ id, id ∈ stale ↔ ∃ acked, slot id = some (.stale acked)

/-- Where the books of a table are kept, its stale ids are a queue. -/
theorem Kept.queued {slot : ObjectId → Option (Slot α)} {stale : List ObjectId}
    {live capacity nextServer : Nat}
    (h : Kept slot stale live capacity nextServer) : Queued slot stale :=
  ⟨h.stale_nodup, h.mem_stale_iff⟩

/-- Is this the marker of an acknowledged deletion? -/
def isAcked : Option (Slot α) → Bool
  | some (.stale acked) => acked
  | _ => false

theorem isAcked_iff {state : Option (Slot α)} : isAcked state = true ↔ state = some (.stale true) := by
  constructor
  · intro h
    unfold isAcked at h
    split at h
    · rw [h]
    · cases h
  · rintro rfl
    rfl

/-- The acknowledged ids of a queue, oldest first. -/
def acknowledged (slot : ObjectId → Option (Slot α)) (stale : List ObjectId) : List ObjectId :=
  stale.filter fun id => isAcked (slot id)

/-- Ids lose their slots and their places in the queue.  All others keep theirs, in the same order. -/
structure Drops (gone : List ObjectId) (slot slot' : ObjectId → Option (Slot α)) (stale stale' : List ObjectId) :
    Prop where
  slot_eq : ∀ id, slot' id = if id ∈ gone then none else slot id
  stale_eq : stale' = stale.filter (· ∉ gone)

/-- The `k` oldest acknowledged markers expire, and nothing else happens. -/
structure Expires (k : Nat) (slot slot' : ObjectId → Option (Slot α)) (stale stale' : List ObjectId) : Prop where
  drops : Drops ((acknowledged slot stale).take k) slot slot' stale stale'
  /-- None of them waits, or is live. -/
  acked : ∀ id ∈ (acknowledged slot stale).take k, slot id = some (.stale true)
  /-- There are that many. -/
  length_eq : stale'.length + k = stale.length

variable {slot slot' : ObjectId → Option (Slot α)} {stale stale' : List ObjectId}

theorem mem_acknowledged_iff (h : Queued slot stale) {id : ObjectId} :
    id ∈ acknowledged slot stale ↔ slot id = some (.stale true) := by
  unfold acknowledged
  rw [List.mem_filter, isAcked_iff, h.mem_iff]
  exact ⟨And.right, fun hacked => ⟨⟨true, hacked⟩, hacked⟩⟩

theorem acknowledged_sublist : (acknowledged slot stale).Sublist stale := List.filter_sublist

/-- The queue has all acknowledged ids. -/
theorem length_acknowledged (h : Queued slot stale) :
    (acknowledged slot stale).length = {id | slot id = some (.stale true)}.ncard := by
  have hset : {id | slot id = some (.stale true)} = ((acknowledged slot stale).toFinset : Set ObjectId) := by
    ext id
    rw [Set.mem_ofPred_eq, Finset.mem_coe, List.mem_toFinset, mem_acknowledged_iff h]
  rw [hset, Set.ncard_coe_finset, List.toFinset_card_of_nodup (h.nodup.sublist acknowledged_sublist)]

/-! ## Dropping ids -/

namespace Drops

variable {gone gone' : List ObjectId}

theorem nothing : Drops [] slot slot stale stale :=
  ⟨fun _ => rfl, by simp⟩

/-- Ids are dropped, and then others. -/
theorem append {slot'' : ObjectId → Option (Slot α)} {stale'' : List ObjectId}
    (h : Drops gone slot slot' stale stale') (h' : Drops gone' slot' slot'' stale' stale'') :
    Drops (gone ++ gone') slot slot'' stale stale'' := by
  constructor
  · intro id
    rw [h'.slot_eq, h.slot_eq]
    by_cases hgone : id ∈ gone
    · simp [hgone]
    · simp [hgone]
  · rw [h'.stale_eq, h.stale_eq, List.filter_filter]
    refine List.filter_congr fun id _ => ?_
    by_cases hgone : id ∈ gone
    · simp [hgone]
    · simp [hgone]

/-- The others that are acknowledged still are. -/
theorem acknowledged_eq (h : Drops gone slot slot' stale stale') :
    acknowledged slot' stale' = (acknowledged slot stale).filter (· ∉ gone) := by
  unfold acknowledged
  rw [h.stale_eq, List.filter_filter, List.filter_filter]
  refine List.filter_congr fun id _ => ?_
  rw [h.slot_eq]
  by_cases hgone : id ∈ gone
  · simp [hgone]
  · simp [hgone]

/-- The oldest acknowledged id is dropped, and then the oldest of those that are left. -/
theorem oldest {slot'' : ObjectId → Option (Slot α)} {stale'' rest : List ObjectId} {id : ObjectId} {k : Nat}
    (hnodup : stale.Nodup) (holdest : acknowledged slot stale = id :: rest) (h : Drops [id] slot slot' stale stale')
    (h' : Drops ((acknowledged slot' stale').take k) slot' slot'' stale' stale'') :
    Drops ((acknowledged slot stale).take (k + 1)) slot slot'' stale stale'' := by
  have hdistinct : (acknowledged slot stale).Nodup := hnodup.sublist acknowledged_sublist
  rw [holdest, List.nodup_cons] at hdistinct
  have hrest : acknowledged slot' stale' = rest := by
    rw [h.acknowledged_eq, holdest, List.filter_cons_of_neg (by simp), List.filter_eq_self]
    intro other hother
    have hne : other ≠ id := fun heq => hdistinct.1 (heq ▸ hother)
    simpa using hne
  rw [hrest] at h'
  rw [holdest, List.take_succ_cons]
  exact h.append h'

/-- The queue becomes shorter by the ids that are dropped. -/
theorem length_eq (h : Drops gone slot slot' stale stale') (hnodup : stale.Nodup) (hsub : gone.Sublist stale) :
    stale'.length + gone.length = stale.length := by
  have hperm : (stale.filter (· ∈ gone)).Perm gone :=
    (List.perm_ext_iff_of_nodup (hnodup.sublist List.filter_sublist) (hnodup.sublist hsub)).2 fun id => by
      simpa using fun hid => hsub.subset hid
  have hsplit := stale.length_eq_length_filter_add (· ∈ gone)
  rw [hperm.length_eq] at hsplit
  have hrest : stale.filter (fun id => !decide (id ∈ gone)) = stale' := by
    rw [h.stale_eq]
    exact List.filter_congr fun id _ => by simp
  rw [hrest] at hsplit
  omega

/-- Where as many of the oldest acknowledged ids are dropped as there are markers in excess, this is how many. -/
theorem expires {excess : Nat} (hqueued : Queued slot stale)
    (h : Drops ((acknowledged slot stale).take excess) slot slot' stale stale') :
    Expires (min excess {id | slot id = some (.stale true)}.ncard) slot slot' stale stale' := by
  have hsub : ((acknowledged slot stale).take excess).Sublist stale :=
    (List.take_sublist _ _).trans acknowledged_sublist
  have htake : (acknowledged slot stale).take (min excess {id | slot id = some (.stale true)}.ncard) =
      (acknowledged slot stale).take excess := by
    rw [← length_acknowledged hqueued, List.take_eq_take_iff]
    omega
  refine ⟨htake ▸ h, ?_, ?_⟩
  · intro id hid
    exact (mem_acknowledged_iff hqueued).1 (List.mem_of_mem_take hid)
  · have hlength := h.length_eq hqueued.nodup hsub
    rw [List.length_take, length_acknowledged hqueued] at hlength
    exact hlength

end Drops

/-- What is no longer in the queue has expired. -/
theorem Expires.length_lost {k : Nat} (h : Expires k slot slot' stale stale') :
    (stale.filter (· ∉ stale')).length = k := by
  have hkept : stale.filter (· ∈ stale') = stale' := by
    conv_rhs => rw [h.drops.stale_eq]
    refine List.filter_congr fun id hid => ?_
    rw [h.drops.stale_eq]
    simp [hid]
  have hsplit := stale.length_eq_length_filter_add (· ∈ stale')
  rw [hkept] at hsplit
  have hlength := h.length_eq
  have hlost : stale.filter (fun id => !decide (id ∈ stale')) = stale.filter (· ∉ stale') :=
    List.filter_congr fun id _ => by simp
  rw [hlost] at hsplit
  omega

end

/-! ## The queue of the ledger -/

namespace Ledger

variable {α : Type}

/-- The state of an id. -/
def slot (l : Ledger α) (id : ObjectId) : Option (Slot α) := l.slots.lookup id

/-- The ledger without the marker at a place in its queue. -/
def deleteAt (l : Ledger α) (index : Nat) (h : index < l.stale.length) : Ledger α :=
  { l with slots := l.slots.erase l.stale[index], stale := l.stale.eraseIdx index }

theorem drops_deleteAt {l : Ledger α} (hnodup : l.stale.Nodup) {index : Nat} (h : index < l.stale.length) :
    Drops [l.stale[index]] l.slot (l.deleteAt index h).slot l.stale (l.deleteAt index h).stale := by
  constructor
  · intro id
    split
    · rename_i hmem
      rw [List.mem_singleton.1 hmem]
      exact AList.lookup_erase _ l.slots
    · rename_i hnot
      exact AList.lookup_erase_ne fun heq => hnot (List.mem_singleton.2 heq)
  · show l.stale.eraseIdx index = _
    rw [← hnodup.erase_getElem index h, hnodup.erase_eq_filter]
    refine List.filter_congr fun id _ => ?_
    by_cases heq : id = l.stale[index]
    · simp [heq]
    · simp [heq]

/-- Behind ids that are not acknowledged, an acknowledged one is the oldest. -/
theorem acknowledged_of_getElem {l : Ledger α} {index : Nat} (h : index < l.stale.length)
    (hbefore : ∀ id ∈ l.stale.take index, isAcked (l.slot id) = false)
    (hacked : l.slot l.stale[index] = some (.stale true)) :
    ∃ rest, acknowledged l.slot l.stale = l.stale[index] :: rest := by
  have hsplit : l.stale = l.stale.take index ++ l.stale[index] :: l.stale.drop (index + 1) := by
    rw [List.getElem_cons_drop, List.take_append_drop]
  have hnone : acknowledged l.slot (l.stale.take index) = [] :=
    List.filter_eq_nil_iff.2 fun id hid => by simp [hbefore id hid]
  refine ⟨acknowledged l.slot (l.stale.drop (index + 1)), ?_⟩
  unfold acknowledged at hnone ⊢
  conv_lhs => rw [hsplit]
  rw [List.filter_append, hnone, List.nil_append]
  exact List.filter_cons_of_pos (isAcked_iff.2 hacked)

/-- Running through the queue drops the oldest acknowledged ids, as long as there are markers in excess.  Those
before the index are looked at already, and none of them is acknowledged. -/
theorem drops_expireFrom (l : Ledger α) (index : Nat) : l.stale.Nodup →
    (∀ id ∈ l.stale.take index, isAcked (l.slot id) = false) →
      Drops ((acknowledged l.slot l.stale).take (l.stale.length - l.capacity))
        l.slot (l.expireFrom index).slot l.stale (l.expireFrom index).stale := by
  fun_induction Ledger.expireFrom l index with
  | case1 l index h hindex hacked ih =>
    intro hnodup hbefore
    obtain ⟨rest, holdest⟩ := acknowledged_of_getElem hindex hbefore hacked
    have hdrops := drops_deleteAt hnodup hindex
    have hexcess : l.stale.length - l.capacity =
        (l.deleteAt index hindex).stale.length - (l.deleteAt index hindex).capacity + 1 := by
      show _ = (l.stale.eraseIdx index).length - l.capacity + 1
      rw [List.length_eraseIdx_of_lt hindex]
      omega
    -- the next one comes to stand at the index, and those before it stay
    have hbefore' : ∀ id ∈ (l.deleteAt index hindex).stale.take index,
        isAcked ((l.deleteAt index hindex).slot id) = false := by
      intro id hid
      have htake : (l.deleteAt index hindex).stale.take index = l.stale.take index :=
        List.take_eraseIdx_eq_take_of_le _ _ _ (Nat.le_refl _)
      rw [htake] at hid
      rw [hdrops.slot_eq]
      split
      · rfl
      · exact hbefore id hid
    rw [hexcess]
    exact .oldest hnodup holdest hdrops (ih (hnodup.sublist (List.eraseIdx_sublist _ _)) hbefore')
  | case2 l index h hindex hnot ih =>
    intro hnodup hbefore
    refine ih hnodup fun id hid => ?_
    rw [List.take_succ_eq_append_getElem hindex, List.mem_append, List.mem_singleton] at hid
    rcases hid with hid | rfl
    · exact hbefore id hid
    · exact Bool.eq_false_iff.2 fun hacked => hnot (isAcked_iff.1 hacked)
  | case3 l index h =>
    -- nothing is in excess, or nothing acknowledged
    intro _ hbefore
    have hnone : (acknowledged l.slot l.stale).take (l.stale.length - l.capacity) = [] := by
      rw [List.take_eq_nil_iff]
      by_cases hover : l.capacity < l.stale.length
      · refine .inr (List.filter_eq_nil_iff.2 fun id hid => ?_)
        have hall : l.stale.take index = l.stale := List.take_of_length_le (by omega)
        rw [← hall] at hid
        simp [hbefore id hid]
      · exact .inl (by omega)
    rw [hnone]
    exact .nothing

/-- Expiry changes the slots and the queue only. -/
theorem expireFrom_eq (l : Ledger α) (index : Nat) : l.expireFrom index =
    { l with slots := (l.expireFrom index).slots, stale := (l.expireFrom index).stale } := by
  fun_induction Ledger.expireFrom l index with
  | case1 l index h hindex hacked ih => exact ih
  | case2 l index h hindex hnot ih => exact ih
  | case3 => rfl

theorem drops_expire {l : Ledger α} (hnodup : l.stale.Nodup) :
    Drops ((acknowledged l.slot l.stale).take (l.stale.length - l.capacity))
      l.slot l.expire.slot l.stale l.expire.stale :=
  drops_expireFrom l 0 hnodup nofun

end Ledger

/-! ## The markers of the table -/

/-- Expiry keeps the markers that are not among the oldest acknowledged ones. -/
theorem Marker.expire_eq_filter (excess : Nat) {markers : List Marker} (h : (markers.map (·.id)).Nodup) :
    expire excess markers =
      markers.filter fun m => m.id ∉ ((markers.filter (·.acked)).map (·.id)).take excess := by
  fun_induction expire excess markers with
  | case1 => simp
  | case2 => rfl
  | case3 excess m markers hacked ih =>
    rw [List.map_cons, List.nodup_cons] at h
    rw [ih h.2, List.filter_cons_of_pos hacked, List.map_cons, List.take_succ_cons,
      List.filter_cons_of_neg (by simp)]
    refine List.filter_congr fun m' hm' => ?_
    have hne : m'.id ≠ m.id := fun heq => h.1 (List.mem_map.2 ⟨m', hm', heq⟩)
    simp [hne]
  | case4 excess m markers hnot ih =>
    rw [List.map_cons, List.nodup_cons] at h
    have hstays : m.id ∉ ((markers.filter (·.acked)).map (·.id)).take (excess + 1) := fun hmem =>
      h.1 ((List.filter_sublist.map _).subset (List.mem_of_mem_take hmem))
    rw [ih h.2, List.filter_cons_of_neg hnot, List.filter_cons_of_pos (by simpa using hstays)]

namespace Table

variable {α : Type} {t : Table α}

/-- The ids of the markers, oldest first. -/
def staleIds (t : Table α) : List ObjectId := t.markers.map (·.id)

/-- Objects and markers do not contradict each other if the markers are a queue. -/
theorem tidy_iff_queued : t.Tidy ↔ Queued t.slot t.staleIds := by
  constructor
  · intro h
    refine ⟨h.nodup, fun id => ?_⟩
    unfold staleIds
    rw [List.mem_map]
    constructor
    · rintro ⟨m, hm, rfl⟩
      exact ⟨m.acked, (slot_eq_stale_iff h).2 hm⟩
    · rintro ⟨acked, hstale⟩
      exact ⟨_, (slot_eq_stale_iff h).1 hstale, rfl⟩
  · intro h
    refine ⟨h.nodup, fun m hm => ?_⟩
    obtain ⟨acked, hstale⟩ := (h.mem_iff m.id).1 (List.mem_map_of_mem hm)
    cases hget : t.objects.get? m.id with
    | none => rfl
    | some o =>
      rw [slot_eq_live_iff.2 hget] at hstale
      cases hstale

theorem acknowledged_eq (h : t.Tidy) :
    acknowledged t.slot t.staleIds = (t.markers.filter (·.acked)).map (·.id) := by
  unfold acknowledged staleIds
  rw [List.filter_map]
  refine congrArg _ (List.filter_congr fun m hm => ?_)
  show isAcked (t.slot m.id) = m.acked
  rw [(slot_eq_stale_iff h).2 hm]
  rfl

theorem staleIds_expire (h : t.Tidy) : t.expire.staleIds =
    t.staleIds.filter (· ∉ (acknowledged t.slot t.staleIds).take (t.staleSize - t.capacity)) := by
  rw [acknowledged_eq h]
  show (Marker.expire (t.markers.length - t.capacity) t.markers).map (·.id) = _
  rw [Marker.expire_eq_filter _ h.nodup]
  unfold staleIds
  rw [List.filter_map]
  rfl

theorem drops_expire (h : t.Tidy) :
    Drops ((acknowledged t.slot t.staleIds).take (t.staleSize - t.capacity))
      t.slot t.expire.slot t.staleIds t.expire.staleIds := by
  have hqueued := tidy_iff_queued.1 h
  have hqueued' := tidy_iff_queued.1 (tidy_expire h)
  have hstaleIds := staleIds_expire h
  refine ⟨fun id => ?_, hstaleIds⟩
  split
  · rename_i hgone
    -- it was a marker, and is no longer in the queue
    have hacked := (mem_acknowledged_iff hqueued).1 (List.mem_of_mem_take hgone)
    have hnot : id ∉ t.expire.staleIds := by
      rw [hstaleIds]
      simp [hgone]
    rcases slot_expire h id with hsame | ⟨-, hnone⟩
    · exact absurd ((hqueued'.mem_iff id).2 ⟨true, hsame.trans hacked⟩) hnot
    · exact hnone
  · rename_i hstays
    rcases slot_expire h id with hsame | ⟨hacked, hnone⟩
    · exact hsame
    · have hmem : id ∈ t.expire.staleIds := by
        rw [hstaleIds, List.mem_filter]
        exact ⟨(hqueued.mem_iff id).2 ⟨true, hacked⟩, by simpa using hstays⟩
      obtain ⟨acked, hstale⟩ := (hqueued'.mem_iff id).1 hmem
      rw [hnone] at hstale
      cases hstale

/-! ## Between operations -/

/-- A queue beyond the capacity has no acknowledged marker. -/
theorem Consistent.waits_of_excess (h : t.Consistent) (hover : t.capacity < t.staleSize) (id : ObjectId) :
    t.slot id ≠ some (.stale true) := by
  have hbounded := h.bounded
  have hle : Marker.waiting t.markers ≤ t.markers.length := List.countP_le_length
  have hall : Marker.waiting t.markers = t.markers.length := by
    change t.capacity < t.markers.length at hover
    omega
  intro hacked
  have hwaits := List.countP_eq_length.1 hall _ ((slot_eq_stale_iff h.tidy).1 hacked)
  cases hwaits

/-- Nothing is left to expire. -/
theorem Consistent.expire_eq (h : t.Consistent) : t.expire = t := by
  have hnone : ((t.markers.filter (·.acked)).map (·.id)).take (t.markers.length - t.capacity) = [] := by
    rw [List.take_eq_nil_iff]
    by_cases hover : t.capacity < t.staleSize
    · right
      rw [← acknowledged_eq h.tidy, List.eq_nil_iff_forall_not_mem]
      intro id hid
      exact h.waits_of_excess hover id ((mem_acknowledged_iff h.kept.queued).1 hid)
    · left
      change ¬ t.capacity < t.markers.length at hover
      omega
  have hmarkers : Marker.expire (t.markers.length - t.capacity) t.markers = t.markers := by
    rw [Marker.expire_eq_filter _ h.tidy.nodup, hnone]
    simp
  unfold expire
  rw [hmarkers]

end Table

/-! ## Operations that mark an id -/

section
variable {α : Type}

/-- The id whose object an operation destroys, as its answer tells. -/
def Change.destroyed : Change α → Answer α → List ObjectId
  | .remove id, .object (.ok _) => [id]
  | _, _ => []

theorem Change.length_destroyed_le (c : Change α) (answer : Answer α) : (c.destroyed answer).length ≤ 1 := by
  unfold destroyed
  split
  · exact Nat.le_refl _
  · exact Nat.zero_le _

/-- The ids whose markers are gone after an operation: of those in the queue before, and of what it destroys. -/
def Change.expired (c : Change α) (answer : Answer α) (stale stale' : List ObjectId) : List ObjectId :=
  (stale ++ c.destroyed answer).filter (· ∉ stale')

/-- An operation amounts to the expiry of a table with a marker at one id that is new, or newly acknowledged. -/
structure Table.Marks (t : Table α) (c : Change α) (id : ObjectId) (m : Table α) : Prop where
  change_eq : (t.change c).2 = m.expire
  queued : Queued m.slot m.staleIds
  capacity_eq : m.capacity = t.capacity
  staleIds_eq : m.staleIds = t.staleIds ++ c.destroyed (t.change c).1
  acked : ∀ other, m.slot other = some (.stale true) → other = id ∨ t.slot other = some (.stale true)

namespace Table

variable {t : Table α}

/-- An operation that is refused marks nothing. -/
theorem marks_of_refused (ht : t.Consistent) {c : Change α} (id : ObjectId) (hsame : (t.change c).2 = t)
    (hdestroyed : c.destroyed (t.change c).1 = []) : t.Marks c id t where
  change_eq := hsame.trans ht.expire_eq.symm
  queued := ht.kept.queued
  capacity_eq := rfl
  staleIds_eq := by rw [hdestroyed, List.append_nil]
  acked _ := .inr

theorem marks_remove (ht : t.Consistent) (id : ObjectId) : ∃ m, t.Marks (.remove id) id m := by
  cases hr : t.remove id with
  | error e =>
    have hchange : t.change (.remove id) = (.object (.error e), t) := by simp only [change, settle, hr]
    refine ⟨t, marks_of_refused ht id ?_ ?_⟩
    · rw [hchange]
    · rw [hchange]
      rfl
  | ok r =>
    obtain ⟨o, t'⟩ := r
    obtain ⟨hlive, ht'⟩ := remove_eq_ok_iff.1 hr
    have hchange : t.change (.remove id) = (.object (.ok o), t') := by simp only [change, settle, hr]
    have hslot := slot_bury ht.tidy hlive (id.side == .server)
    refine ⟨t.bury id (id.side == .server), ?_, tidy_iff_queued.1 (tidy_bury ht.tidy hlive _), rfl, ?_, ?_⟩
    · rw [hchange, ht']
    · rw [hchange]
      exact List.map_append
    · intro other hacked
      rw [hslot] at hacked
      split at hacked
      · rename_i heq
        exact .inl heq
      · exact .inr hacked

theorem marks_acknowledge (ht : t.Consistent) (id : ObjectId) : ∃ m, t.Marks (.acknowledge id) id m := by
  by_cases hwaits : t.slot id = some (.stale false)
  · have hchange : (t.change (.acknowledge id)).2 = (t.released id).expire := by
      show (t.acknowledge id).2 = _
      simp only [acknowledge, hwaits, released]
    have hslot := slot_released t id
    refine ⟨t.released id, hchange, tidy_iff_queued.1 (tidy_released ht.tidy id), rfl, ?_, ?_⟩
    · show _ = t.staleIds ++ []
      rw [List.append_nil]
      exact Marker.ids_acknowledge id t.markers
    · intro other hacked
      by_cases heq : other = id
      · exact .inl heq
      · rw [hslot] at hacked
        split at hacked
        · rename_i acked hstale
          rw [beq_false_of_ne heq, Bool.or_false] at hacked
          exact .inr (hstale.trans hacked)
        · exact .inr hacked
  · refine ⟨t, marks_of_refused ht id ?_ rfl⟩
    show (t.acknowledge id).2 = t
    unfold acknowledge
    split
    · rename_i hslot
      exact absurd hslot hwaits
    · rfl

/-- With one more marker that is acknowledged, no more than one is in excess or no more than one acknowledged. -/
theorem Marks.excess_le_one (ht : t.Consistent) {c : Change α} {id : ObjectId} {m : Table α}
    (h : t.Marks c id m) : min (m.staleSize - m.capacity) {id | m.slot id = some (.stale true)}.ncard ≤ 1 := by
  by_cases hover : t.capacity < t.staleSize
  · refine (Nat.min_le_right ..).trans ?_
    have hsub : {other | m.slot other = some (.stale true)} ⊆ {id} := fun other hacked =>
      (h.acked other hacked).resolve_right (ht.waits_of_excess hover other)
    exact (Set.ncard_le_ncard hsub (Set.finite_singleton id)).trans_eq (Set.ncard_singleton id)
  · refine (Nat.min_le_left ..).trans ?_
    have hlength : m.staleSize ≤ t.staleSize + 1 := by
      have hids := congrArg List.length h.staleIds_eq
      unfold staleIds at hids
      rw [List.length_append, List.length_map, List.length_map] at hids
      have hdestroyed := c.length_destroyed_le (t.change c).1
      unfold staleSize
      omega
    rw [h.capacity_eq]
    omega

end Table

/-! ## Expiry -/

/-- Expiry drops the oldest acknowledged markers, as many as there are markers beyond the capacity or all of them
if there are fewer, wherever the queue lists the markers.  Whatever has been done to a table of any capacity, a
removal or an acknowledgement lets no more than one expire. -/
theorem oldest_acknowledged_expire :
    (∀ t : Table α, Queued t.slot t.staleIds →
      Expires (min (t.staleSize - t.capacity) {id | t.slot id = some (.stale true)}.ncard)
          t.slot t.expire.slot t.staleIds t.expire.staleIds ∧
        t.expire = { t with markers := t.expire.markers }) ∧
    (∀ l : Ledger α, Queued l.slot l.stale →
      Expires (min (l.stale.length - l.capacity) {id | l.slot id = some (.stale true)}.ncard)
          l.slot l.expire.slot l.stale l.expire.stale ∧
        l.expire = { l with slots := l.expire.slots, stale := l.expire.stale }) ∧
    ∀ (capacity : Nat) (cs : List (Change α)) (c : Change α) (id : ObjectId),
      c = .remove id ∨ c = .acknowledge id →
        let t := ((Table.empty capacity).changeAll cs).2
        let l := ((Ledger.empty capacity).changeAll cs).2
        (c.expired (t.change c).1 t.staleIds (t.change c).2.staleIds).length ≤ 1 ∧
          (c.expired (l.change c).1 l.stale (l.change c).2.stale).length ≤ 1 := by
  refine ⟨fun t h => ⟨(Table.drops_expire (Table.tidy_iff_queued.2 h)).expires h, rfl⟩,
    fun l h => ⟨(Ledger.drops_expire h.nodup).expires h, l.expireFrom_eq 0⟩, fun capacity cs c id hc => ?_⟩
  intro t l
  have ht : t.Consistent := (Table.consistent_empty capacity).changeAll cs
  have hrecords : Records l t := ((Records.empty capacity).changeAll cs (Table.consistent_empty capacity)).2
  have hmarks : ∃ m, t.Marks c id m := by
    rcases hc with rfl | rfl
    · exact Table.marks_remove ht id
    · exact Table.marks_acknowledge ht id
  have hone : (c.expired (t.change c).1 t.staleIds (t.change c).2.staleIds).length ≤ 1 := by
    obtain ⟨m, hm⟩ := hmarks
    have hexpires := (Table.drops_expire (Table.tidy_iff_queued.2 hm.queued)).expires hm.queued
    unfold Change.expired
    rw [← hm.staleIds_eq, hm.change_eq, hexpires.length_lost]
    exact hm.excess_le_one ht
  obtain ⟨hanswer, hnext⟩ := hrecords.change ht c
  refine ⟨hone, ?_⟩
  rw [hanswer, hrecords.stale, hnext.stale]
  exact hone

/-! ### A table with too many markers -/

def waitingId : ObjectId := ⟨20, by decide⟩

def oldestId : ObjectId := ⟨21, by decide⟩

def elderId : ObjectId := ⟨22, by decide⟩

def recentId : ObjectId := ⟨23, by decide⟩

/-- A table with room for two markers, and four of them.  The first waits. -/
def crowdedTable : Table Unit where
  markers := [⟨waitingId, false⟩, ⟨oldestId, true⟩, ⟨elderId, true⟩, ⟨recentId, true⟩]
  capacity := 2

theorem queued_crowdedTable : Queued crowdedTable.slot crowdedTable.staleIds :=
  Table.tidy_iff_queued.1 ⟨by decide, fun _ _ => rfl⟩

/-- The ledger with the same markers. -/
def crowdedLedger : Ledger Unit where
  slots := ⟨[⟨waitingId, .stale false⟩, ⟨oldestId, .stale true⟩, ⟨elderId, .stale true⟩,
      ⟨recentId, .stale true⟩],
    show [waitingId, oldestId, elderId, recentId].Nodup by decide⟩
  stale := [waitingId, oldestId, elderId, recentId]
  capacity := 2

theorem queued_crowdedLedger : Queued crowdedLedger.slot crowdedLedger.stale := by
  refine ⟨by decide, fun id => ?_⟩
  have hentry : ∀ acked, crowdedLedger.slot id = some (.stale acked) ↔
      ⟨id, .stale acked⟩ ∈ crowdedLedger.slots.entries := fun acked => AList.mem_lookup_iff
  simp only [hentry]
  simp [crowdedLedger]

/-- Four callbacks come and go, and no deletion is acknowledged. -/
def crowding : List (Change Unit) :=
  [waitingId, oldestId, elderId, recentId].flatMap fun id =>
    [.insert .client id { interface := Protocol.Core.callback, version := 1 }, .remove id]

/-- The two oldest of three acknowledged markers expire.  After the four callbacks, an acknowledgement lets the
marker expire that it is about. -/
theorem oldest_acknowledged_expire_sample :
    (Queued crowdedTable.slot crowdedTable.staleIds ∧ crowdedTable.expire.staleIds = [waitingId, recentId] ∧
      Expires (min 2 {id | crowdedTable.slot id = some (.stale true)}.ncard) crowdedTable.slot
        crowdedTable.expire.slot crowdedTable.staleIds crowdedTable.expire.staleIds) ∧
    (Queued crowdedLedger.slot crowdedLedger.stale ∧ crowdedLedger.expire.stale = [waitingId, recentId]) ∧
    let t := ((Table.empty 2).changeAll crowding).2
    let c := Change.acknowledge elderId
    t.staleSize = 4 ∧ c.expired (t.change c).1 t.staleIds (t.change c).2.staleIds = [elderId] ∧
      (c.expired (t.change c).1 t.staleIds (t.change c).2.staleIds).length ≤ 1 := by
  have htable := (oldest_acknowledged_expire.1 crowdedTable queued_crowdedTable).1
  have hledger := (oldest_acknowledged_expire.2.1 crowdedLedger queued_crowdedLedger).1
  have hrun := oldest_acknowledged_expire.2.2 2 crowding (.acknowledge elderId) elderId (.inr rfl)
  refine ⟨⟨queued_crowdedTable, rfl, htable⟩, ⟨queued_crowdedLedger, ?_⟩, rfl, rfl, hrun.1⟩
  rw [hledger.drops.stale_eq, ← length_acknowledged queued_crowdedLedger]
  rfl

end

end Compositor.Objects
