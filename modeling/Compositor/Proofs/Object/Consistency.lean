import Compositor.Proofs.Object.Handles

/-
  What always holds of a table.

  `Table.Sound` collects what ties the parts of a table together: only client ids wait for an
  acknowledgement, and server ids are below the counter that hands them out.  `Table.Consistent` adds that
  markers are bounded.  The bound is not kept by adding or acknowledging a marker alone; it holds again after
  the expiry that follows (`Marker.length_expire_le`).  Nothing is said of the generations of live objects, so
  that all of this is kept whatever is written to them.

  There is one lemma for each operation (`Consistent.insert`, `Consistent.remove`, and so on), so that
  whatever is built from these operations keeps its tables consistent.  Beside them stands what each
  operation does to the ids that wait (`waits_remove`, `waits_acknowledge`); where none waits, every client
  id that is not live can be used again (`insert_of_not_waiting`).
-/

namespace Compositor.Objects

open Compositor.Wire (ObjectId Side)

/-! ## Markers that wait -/

namespace Marker

/-- The number of markers that wait for an acknowledgement. -/
def waiting (markers : List Marker) : Nat := markers.countP (! ·.acked)

/-- Expiry leaves all markers that wait. -/
theorem waiting_expire (excess : Nat) (markers : List Marker) :
    waiting (expire excess markers) = waiting markers := by
  unfold waiting
  fun_induction expire excess markers with
  | case1 => rfl
  | case2 => rfl
  | case3 excess m markers h ih => rw [ih, List.countP_cons_of_neg (by simp [h])]
  | case4 excess m markers h ih =>
    rw [List.countP_cons_of_pos (by simp [h]), List.countP_cons_of_pos (by simp [h]), ih]

/-- Expiry stops at the capacity, or when only markers that wait are left. -/
theorem length_expire_le (excess : Nat) (markers : List Marker) :
    (expire excess markers).length ≤ max (markers.length - excess) (waiting markers) := by
  unfold waiting
  fun_induction expire excess markers with
  | case1 => omega
  | case2 => exact Nat.zero_le _
  | case3 excess m markers h ih =>
    rw [List.countP_cons_of_neg (by simp [h]), List.length_cons]
    omega
  | case4 excess m markers h ih =>
    rw [List.countP_cons_of_pos (by simp [h]), List.length_cons, List.length_cons]
    omega

/-- Forgetting an acknowledged marker leaves as many that wait. -/
theorem waiting_forget {id : ObjectId} {markers : List Marker}
    (h : ∀ m ∈ markers, m.id = id → m.acked = true) : waiting (forget id markers) = waiting markers := by
  unfold waiting forget
  rw [List.countP_filter]
  refine List.countP_congr fun m hm => ?_
  have hacked := h m hm
  by_cases hid : m.id = id
  · simp [hid, hacked hid]
  · simp [hid]

end Marker

/-! ## What expiry may change -/

namespace Fades

variable {α : Type} {before after : Option (Slot α)}

/-- What is there afterwards was there before. -/
theorem eq_some {s : Slot α} (h : Fades before after) (hs : after = some s) : before = some s := by
  rcases h with h | ⟨-, hnone⟩
  · rw [← h, hs]
  · rw [hnone] at hs
    cases hs

/-- A marker that waits stays. -/
theorem waits_iff (h : Fades before after) :
    after = some (.stale false) ↔ before = some (.stale false) := by
  constructor
  · exact h.eq_some
  · intro hbefore
    rcases h with h | ⟨hstale, -⟩
    · rw [h, hbefore]
    · rw [hbefore] at hstale
      cases hstale

end Fades

namespace Table

variable {α : Type}

/-- In a tidy table the marker of an id is what its slot shows. -/
theorem slot_eq_stale_iff {t : Table α} (h : t.Tidy) {id : ObjectId} {acked : Bool} :
    t.slot id = some (.stale acked) ↔ Marker.mk id acked ∈ t.markers := by
  rw [← Marker.acked?_eq_some_iff h.nodup]
  constructor
  · intro hslot
    unfold slot at hslot
    split at hslot
    · cases hslot
    · obtain ⟨acked', hacked, heq⟩ := Option.map_eq_some_iff.1 hslot
      cases heq
      exact hacked
  · intro hacked
    have hmem := (Marker.acked?_eq_some_iff h.nodup).1 hacked
    rw [slot_of_get?_eq_none (h.unmarked _ hmem), hacked]
    rfl

/-- A free id has neither an object nor a marker. -/
theorem slot_eq_none_iff {t : Table α} {id : ObjectId} :
    t.slot id = none ↔ t.objects.get? id = none ∧ ∀ m ∈ t.markers, m.id ≠ id := by
  rw [← Marker.acked?_eq_none_iff]
  unfold slot
  cases t.objects.get? id with
  | none => simp
  | some o => simp

/-! ## Sound tables -/

/-- The parts of a table fit together. -/
structure Sound (t : Table α) : Prop where
  tidy : t.Tidy
  ascending : t.objects.Ascending
  /-- Only deletions of client ids wait for an acknowledgement. -/
  waiting_client : ∀ id, t.slot id = some (.stale false) → id.side = .client
  /-- Server ids that are in use, or remembered, have been handed out. -/
  server_lt : ∀ id, id.side = .server → t.slot id ≠ none → id.toNat < t.nextServer
  nextServer_le : t.nextServer ≤ 0x100000000

/-- A sound table whose markers are bounded: beyond the capacity there are only markers that wait. -/
structure Consistent (t : Table α) : Prop extends Sound t where
  bounded : t.markers.length ≤ max t.capacity (Marker.waiting t.markers)

/-- Soundness is kept where no id comes into use and the counter of server ids stays as it is. -/
theorem Sound.of_slots {t t' : Table α} (h : t.Sound) (htidy : t'.Tidy)
    (hascending : t'.objects.Ascending)
    (hwaiting : ∀ id, t'.slot id = some (.stale false) → id.side = .client)
    (hused : ∀ id, t'.slot id ≠ none → t.slot id ≠ none)
    (hserver : t'.nextServer = t.nextServer) : t'.Sound := by
  refine ⟨htidy, hascending, hwaiting, ?_, ?_⟩
  · intro id hside hslot
    rw [hserver]
    exact h.server_lt id hside (hused id hslot)
  · rw [hserver]
    exact h.nextServer_le

theorem consistent_empty (capacity : Nat) : (empty capacity : Table α).Consistent where
  tidy := tidy_empty capacity
  ascending := List.Pairwise.nil
  waiting_client := nofun
  server_lt _ _ h := absurd rfl h
  nextServer_le := show 0xFF000000 ≤ 0x100000000 by decide
  bounded := Nat.zero_le _

/-! ### Expiry -/

theorem Sound.expire {t : Table α} (h : t.Sound) : t.expire.Sound := by
  have hfades := slot_expire h.tidy
  refine h.of_slots (tidy_expire h.tidy) h.ascending ?_ ?_ rfl
  · intro id hid
    exact h.waiting_client id ((hfades id).eq_some hid)
  · intro id hid hnone
    obtain ⟨s, hs⟩ := Option.ne_none_iff_exists'.1 hid
    rw [(hfades id).eq_some hs] at hnone
    cases hnone

/-- Expiry restores the bound. -/
theorem Sound.consistent_expire {t : Table α} (h : t.Sound) : t.expire.Consistent := by
  refine ⟨h.expire, ?_⟩
  have hlength := Marker.length_expire_le (t.markers.length - t.capacity) t.markers
  show (Marker.expire _ t.markers).length ≤ max t.capacity (Marker.waiting (Marker.expire _ t.markers))
  rw [Marker.waiting_expire]
  omega

/-! ### Insertion -/

/-- A server id can be taken only at or above the counter. -/
theorem nextServer_le_of_insert {t t' : Table α} {id : ObjectId} {o : Object α} {h : Handle}
    (hi : t.insert .server id o = .ok (h, t')) : t.nextServer ≤ id.toNat := by
  have hside := (Side.contains_iff_side .server id).1 (slot_of_insert hi).1
  obtain ⟨hrefusal, -, -⟩ := insert_eq_ok_iff.1 hi
  unfold refusal? at hrefusal
  split at hrefusal
  · cases hrefusal
  · split at hrefusal
    · cases hrefusal
    · cases hrefusal
    · cases hrefusal
    · split at hrefusal
      · cases hrefusal
      · rename_i hnew
        unfold wasAllocated at hnew
        rw [hside] at hnew
        simpa using hnew

theorem Consistent.insert {t t' : Table α} {side : Side} {id : ObjectId} {o : Object α} {h : Handle}
    (ht : t.Consistent) (hi : t.insert side id o = .ok (h, t')) : t'.Consistent := by
  have hslot := slot_insert hi
  obtain ⟨hcontains, hfree⟩ := slot_of_insert hi
  have hside := (Side.contains_iff_side side id).1 hcontains
  obtain ⟨-, -, hserver⟩ := insert_eq_ok_iff.1 hi
  have hnextServer : t'.nextServer = if side = .server then id.toNat + 1 else t.nextServer := by
    rw [hserver]
  refine ⟨⟨tidy_insert ht.tidy hi, ascending_insert ht.ascending hi, ?_, ?_, ?_⟩, ?_⟩
  · intro other hother
    rw [hslot] at hother
    split at hother
    · cases hother
    · exact ht.waiting_client other hother
  · intro other hother hused
    rw [hslot] at hused
    rw [hnextServer]
    split at hused
    · rename_i heq
      subst heq
      rw [if_pos (hside.symm.trans hother)]
      exact Nat.lt_succ_self _
    · have hlt := ht.server_lt other hother hused
      split
      · rename_i heq
        subst heq
        exact Nat.lt_succ_of_lt (Nat.lt_of_lt_of_le hlt (nextServer_le_of_insert hi))
      · exact hlt
  · rw [hnextServer]
    split
    · exact id.raw.toNat_lt
    · exact ht.nextServer_le
  · -- the marker that an insertion forgets is an acknowledged one
    have hacked : ∀ m ∈ t.markers, m.id = id → m.acked = true := by
      intro m hm hid
      have hstale : t.slot m.id = some (.stale m.acked) := (slot_eq_stale_iff ht.tidy).2 hm
      rw [hid] at hstale
      rcases hfree with hfree | hfree
      · rw [hstale] at hfree
        cases hfree
      · rw [hstale] at hfree
        injection hfree with hfree
        injection hfree
    have hforget : t'.markers = Marker.forget id t.markers := by rw [hserver]
    have hcapacity : t'.capacity = t.capacity := by rw [hserver]
    have hshorter : (Marker.forget id t.markers).length ≤ t.markers.length := List.length_filter_le _ _
    have hbounded := ht.bounded
    rw [hforget, hcapacity, Marker.waiting_forget hacked]
    omega

theorem Consistent.allocate {t t' : Table α} {o : Object α} {h : Handle} (ht : t.Consistent)
    (ha : t.allocate o = .ok (h, t')) : t'.Consistent := by
  unfold Table.allocate at ha
  split at ha
  · split at ha
    · exact ht.insert ha
    · cases ha
  · cases ha

/-! ### Changes to live objects -/

theorem modify_keeps (t : Table α) (id : ObjectId) (f : Object α → Object α) :
    (t.modify id f).nextServer = t.nextServer ∧ (t.modify id f).markers = t.markers ∧
      (t.modify id f).capacity = t.capacity := by
  unfold modify
  split
  · exact ⟨rfl, rfl, rfl⟩
  · exact ⟨rfl, rfl, rfl⟩

/-- Whatever is written to a live object, the table stays consistent. -/
theorem Consistent.modify {t : Table α} (h : t.Consistent) (id : ObjectId) (f : Object α → Object α) :
    (t.modify id f).Consistent := by
  have hslot := slot_modify t id f
  obtain ⟨hserver, hmarkers, hcapacity⟩ := modify_keeps t id f
  refine ⟨h.of_slots (tidy_modify h.tidy id f) (ascending_modify h.ascending id f) ?_ ?_ hserver, ?_⟩
  · intro other hother
    rw [hslot] at hother
    split at hother
    · cases hother
    · exact h.waiting_client other hother
  · intro other hother hnone
    rw [hslot, hnone] at hother
    exact hother rfl
  · rw [hmarkers, hcapacity]
    exact h.bounded

/-! ### Removal -/

theorem Consistent.remove {t t' : Table α} {id : ObjectId} {o : Object α} (h : t.Consistent)
    (hr : t.remove id = .ok (o, t')) : t'.Consistent := by
  obtain ⟨hlive, rfl⟩ := remove_eq_ok_iff.1 hr
  have hslot := slot_bury h.tidy hlive (id.side == .server)
  refine Sound.consistent_expire (h.toSound.of_slots (tidy_bury h.tidy hlive _)
    (Directory.ascending_erase h.ascending id) ?_ ?_ rfl)
  · -- the marker of a server id does not wait
    intro other hother
    rw [hslot] at hother
    split at hother
    · rename_i heq
      subst heq
      injection hother with hother
      injection hother with hother
      cases hside : other.side with
      | client => rfl
      | server =>
        rw [hside] at hother
        cases hother
    · exact h.waiting_client other hother
  · intro other hother hnone
    rw [hslot] at hother
    split at hother
    · rename_i heq
      subst heq
      rw [hlive] at hnone
      cases hnone
    · exact hother hnone

/-! ### Acknowledgement -/

theorem Consistent.acknowledge {t : Table α} (h : t.Consistent) (id : ObjectId) :
    (t.acknowledge id).2.Consistent := by
  have hslot := slot_released t id
  unfold Table.acknowledge
  split
  · refine Sound.consistent_expire (t := t.released id)
      (h.toSound.of_slots (tidy_released h.tidy id) h.ascending ?_ ?_ rfl)
    · intro other hother
      rw [hslot] at hother
      split at hother
      · rename_i acked hstale
        injection hother with hother
        injection hother with hother
        cases acked with
        | true => cases hother
        | false => exact h.waiting_client other hstale
      · exact h.waiting_client other hother
    · intro other hother hnone
      rw [hslot, hnone] at hother
      exact hother rfl
  · exact h

/-! ### Removal of everything -/

theorem Consistent.drain {t : Table α} (h : t.Consistent) : t.drain.2.Consistent := by
  refine ⟨h.toSound.of_slots ⟨List.nodup_nil, nofun⟩ List.Pairwise.nil nofun ?_ rfl,
    Nat.zero_le _⟩
  intro id hid
  exact absurd rfl hid

/-! ## Which ids wait -/

theorem waits_insert {t t' : Table α} {side : Side} {id : ObjectId} {o : Object α} {h : Handle}
    (hi : t.insert side id o = .ok (h, t')) (other : ObjectId) :
    t'.slot other = some (.stale false) ↔ t.slot other = some (.stale false) := by
  obtain ⟨-, hfree⟩ := slot_of_insert hi
  rw [slot_insert hi]
  split
  · rename_i heq
    subst heq
    constructor
    · nofun
    · intro hwaits
      rw [hwaits] at hfree
      rcases hfree with hfree | hfree
      · cases hfree
      · cases hfree
  · exact Iff.rfl

theorem waits_modify (t : Table α) (id : ObjectId) (f : Object α → Object α) (other : ObjectId) :
    (t.modify id f).slot other = some (.stale false) ↔ t.slot other = some (.stale false) := by
  rw [slot_modify]
  split
  · rename_i o ho
    rw [ho]
    exact ⟨nofun, nofun⟩
  · exact Iff.rfl

/-- The id of a removed object waits, if it is the client's. -/
theorem waits_remove {t t' : Table α} {id : ObjectId} {o : Object α} (h : t.Tidy)
    (hr : t.remove id = .ok (o, t')) (other : ObjectId) : t'.slot other = some (.stale false) ↔
      (other = id ∧ id.side = .client) ∨ t.slot other = some (.stale false) := by
  have hlive := (remove_eq_ok_iff.1 hr).1
  rw [(slot_remove h hr other).waits_iff]
  by_cases hother : other = id
  · subst hother
    rw [if_pos rfl, hlive]
    cases other.side with
    | client => exact ⟨fun _ => .inl ⟨rfl, rfl⟩, fun _ => rfl⟩
    | server =>
      constructor
      · nofun
      · rintro (⟨-, hside⟩ | hwaits)
        · cases hside
        · cases hwaits
  · rw [if_neg hother]
    constructor
    · exact .inr
    · rintro (⟨heq, -⟩ | hwaits)
      · exact absurd heq hother
      · exact hwaits

/-- An acknowledgement ends the waiting of its id, and of no other. -/
theorem waits_acknowledge {t : Table α} (h : t.Tidy) (id other : ObjectId) :
    (t.acknowledge id).2.slot other = some (.stale false) ↔
      other ≠ id ∧ t.slot other = some (.stale false) := by
  rw [slot_eq_stale_iff (tidy_acknowledge h id), slot_eq_stale_iff h]
  unfold acknowledge
  split
  · rename_i hwaits
    -- expiry drops no marker that waits, so all depends on the markers before it
    have hexpire : ∀ (excess : Nat) (ms : List Marker) (m : Marker), m.acked = false →
        (m ∈ Marker.expire excess ms ↔ m ∈ ms) := fun excess ms m hm =>
      ⟨fun hmem => (Marker.expire_sublist excess ms).subset hmem,
        fun hmem => Marker.mem_expire_of_unacked excess hmem hm⟩
    show Marker.mk other false ∈ Marker.expire _ (Marker.acknowledge id t.markers) ↔ _
    rw [hexpire _ _ _ rfl]
    unfold Marker.acknowledge
    rw [List.mem_map]
    constructor
    · rintro ⟨m, hm, heq⟩
      split at heq
      · cases heq
      · rename_i hne
        subst heq
        exact ⟨hne, hm⟩
    · rintro ⟨hne, hmem⟩
      exact ⟨_, hmem, if_neg hne⟩
  · rename_i hsettled
    constructor
    · intro hmem
      refine ⟨?_, hmem⟩
      rintro rfl
      exact hsettled ((slot_eq_stale_iff h).2 hmem)
    · exact And.right

theorem capacity_acknowledge (t : Table α) (id : ObjectId) :
    (t.acknowledge id).2.capacity = t.capacity := by
  unfold acknowledge
  split
  · rfl
  · rfl

/-- After acknowledgements one after the other, the ids wait that waited and are not among them. -/
theorem Consistent.acknowledgeAll (ids : List ObjectId) : ∀ {t : Table α}, t.Consistent →
    (ids.foldl (fun t id => (t.acknowledge id).2) t).Consistent ∧
      (ids.foldl (fun t id => (t.acknowledge id).2) t).capacity = t.capacity ∧
        ∀ other, (ids.foldl (fun t id => (t.acknowledge id).2) t).slot other = some (.stale false) ↔
          other ∉ ids ∧ t.slot other = some (.stale false) := by
  induction ids with
  | nil =>
    intro t h
    exact ⟨h, rfl, fun other => ⟨fun hwaits => ⟨List.not_mem_nil, hwaits⟩, And.right⟩⟩
  | cons id ids ih =>
    intro t h
    obtain ⟨hconsistent, hcapacity, hwaits⟩ := ih (h.acknowledge id)
    refine ⟨hconsistent, hcapacity.trans (capacity_acknowledge t id), fun other => ?_⟩
    rw [List.foldl_cons, hwaits, waits_acknowledge h.tidy, List.mem_cons, not_or]
    constructor
    · rintro ⟨hids, hid, hslot⟩
      exact ⟨⟨hid, hids⟩, hslot⟩
    · rintro ⟨⟨hid, hids⟩, hslot⟩
      exact ⟨hids, hid, hslot⟩

/-! ## Where none waits -/

/-- A table where no id waits keeps its markers within the capacity. -/
theorem Consistent.staleSize_le {t : Table α} (h : t.Consistent)
    (hnone : ∀ id, t.slot id ≠ some (.stale false)) : t.staleSize ≤ t.capacity := by
  have hwaiting : Marker.waiting t.markers = 0 := by
    unfold Marker.waiting
    rw [List.countP_eq_zero]
    rintro ⟨id, acked⟩ hm
    cases acked with
    | true => exact Bool.false_ne_true
    | false => exact absurd ((slot_eq_stale_iff h.tidy).2 hm) (hnone id)
  have hbounded := h.bounded
  show t.markers.length ≤ t.capacity
  omega

/-- A client id that is not live and does not wait can be used for any object. -/
theorem insert_of_not_waiting {t : Table α} {id : ObjectId} (hside : id.side = .client)
    (hfree : t.contains id = false) (hwaits : t.slot id ≠ some (.stale false)) (o : Object α) :
    ∃ h t', t.insert .client id o = .ok (h, t') := by
  have hcontains : Side.contains .client id.raw = true := (Side.contains_iff_side .client id).2 hside
  have hrefusal : t.refusal? .client id = none := by
    unfold refusal?
    rw [if_neg (by simp [hcontains])]
    split
    · rename_i p hp
      rw [contains_eq_false_iff, slot_eq_live_iff.1 hp] at hfree
      cases hfree
    · rename_i hslot
      exact absurd hslot hwaits
    · rfl
    · -- only server ids are gone for good
      have hnew : t.wasAllocated id = false := by
        unfold wasAllocated
        rw [hside]
        rfl
      rw [hnew]
      rfl
  exact ⟨_, _, insert_eq_ok_iff.2 ⟨hrefusal, rfl, rfl⟩⟩

end Table

end Compositor.Objects
