import Compositor.Object.Table

/-
  What the operations of the table do to the state of each id.

  Objects and markers are two lists.  `Table.Tidy` says that they do not contradict each other: no id has
  two markers, and none has an object and a marker.  On tidy tables every operation has one lemma about
  `Table.slot`, for the id that it is about and for all others.  Expiry works in the background of
  several of them: it may drop acknowledged markers, and `Fades` says that it does nothing else.
-/

namespace Compositor.Objects

open Compositor.Wire (ObjectId Side)

/-! ## Markers -/

namespace Marker

theorem expire_sublist (excess : Nat) (markers : List Marker) :
    (expire excess markers).Sublist markers := by
  fun_induction expire excess markers with
  | case1 => exact List.Sublist.refl _
  | case2 => exact List.Sublist.refl _
  | case3 excess m markers h ih => exact ih.cons m
  | case4 excess m markers h ih => exact ih.cons_cons m

theorem ids_acknowledge (id : ObjectId) (markers : List Marker) :
    (acknowledge id markers).map (·.id) = markers.map (·.id) := by
  unfold acknowledge
  rw [List.map_map]
  refine List.map_congr_left fun m _ => ?_
  show (if m.id = id then { m with acked := true } else m).id = m.id
  split
  · rfl
  · rfl

theorem acked?_eq_none_iff {id : ObjectId} {markers : List Marker} :
    acked? id markers = none ↔ ∀ m ∈ markers, m.id ≠ id := by
  unfold acked?
  rw [Option.map_eq_none_iff, List.find?_eq_none]
  constructor
  · intro h m hm hid
    exact h m hm (beq_iff_eq.2 hid)
  · intro h m hm hid
    exact h m hm (beq_iff_eq.1 hid)

/-- Where no id has two markers, the marker of an id is the one that is found. -/
theorem acked?_eq_some_iff {id : ObjectId} {acked : Bool} {markers : List Marker}
    (h : (markers.map (·.id)).Nodup) : acked? id markers = some acked ↔ ⟨id, acked⟩ ∈ markers := by
  induction markers with
  | nil => exact ⟨nofun, nofun⟩
  | cons m markers ih =>
    rw [List.map_cons, List.nodup_cons] at h
    by_cases hid : m.id = id
    · have hfind : acked? id (m :: markers) = some m.acked := by
        have hp : (m.id == id) = true := beq_iff_eq.2 hid
        simp only [acked?, List.find?_cons, hp, Option.map_some]
      rw [hfind]
      constructor
      · intro heq
        injection heq with heq
        subst hid heq
        exact List.mem_cons_self ..
      · intro hmem
        rcases List.mem_cons.1 hmem with heq | hmem
        · rw [← heq]
        · -- a second marker of the id is ruled out
          exact absurd (List.mem_map.2 ⟨_, hmem, hid.symm⟩) h.1
    · have hfind : acked? id (m :: markers) = acked? id markers := by
        have hp : (m.id == id) = false := beq_false_of_ne hid
        simp only [acked?, List.find?_cons, hp]
      rw [hfind, ih h.2]
      constructor
      · exact List.mem_cons_of_mem m
      · intro hmem
        rcases List.mem_cons.1 hmem with heq | hmem
        · exact absurd (congrArg Marker.id heq).symm hid
        · exact hmem

/-- Expiry drops acknowledged markers, and leaves all others. -/
theorem acked?_expire {markers : List Marker} (h : (markers.map (·.id)).Nodup) (excess : Nat)
    (id : ObjectId) : acked? id (expire excess markers) = acked? id markers ∨
      acked? id markers = some true ∧ acked? id (expire excess markers) = none := by
  have hsub := expire_sublist excess markers
  have h' : ((expire excess markers).map (·.id)).Nodup := h.sublist (hsub.map _)
  cases hafter : acked? id (expire excess markers) with
  | some acked =>
    have hmem := hsub.subset ((acked?_eq_some_iff h').1 hafter)
    exact .inl ((acked?_eq_some_iff h).2 hmem).symm
  | none =>
    cases hbefore : acked? id markers with
    | none => exact .inl rfl
    | some acked =>
      cases acked with
      | true => exact .inr ⟨rfl, rfl⟩
      | false =>
        have hmem := mem_expire_of_unacked excess ((acked?_eq_some_iff h).1 hbefore) rfl
        exact absurd rfl (acked?_eq_none_iff.1 hafter _ hmem)

end Marker

/-! ## Tidy tables -/

/-- Objects and markers do not contradict each other. -/
structure Table.Tidy {α : Type} (t : Table α) : Prop where
  nodup : (t.markers.map (·.id)).Nodup
  unmarked : ∀ m ∈ t.markers, t.objects.get? m.id = none

/-- What may happen to an id while other ids are worked on: its acknowledged marker may expire. -/
def Fades {α : Type} (before after : Option (Slot α)) : Prop :=
  after = before ∨ before = some (.stale true) ∧ after = none

namespace Table

variable {α : Type}

theorem slot_eq_live_iff {t : Table α} {id : ObjectId} {o : Object α} :
    t.slot id = some (.live o) ↔ t.objects.get? id = some o := by
  unfold slot
  cases t.objects.get? id with
  | some o' =>
    constructor
    · intro h
      injection h with h
      injection h with h
      rw [h]
    · intro h
      injection h with h
      rw [h]
  | none =>
    refine ⟨fun h => ?_, nofun⟩
    obtain ⟨acked, -, h⟩ := Option.map_eq_some_iff.1 h
    nomatch h

theorem slot_of_get?_eq_none {t : Table α} {id : ObjectId} (h : t.objects.get? id = none) :
    t.slot id = (Marker.acked? id t.markers).map .stale := by
  unfold slot
  rw [h]

theorem get_eq_ok_iff_get? {t : Table α} {id : ObjectId} {o : Object α} :
    t.get id = .ok o ↔ t.objects.get? id = some o := by
  unfold get
  cases t.objects.get? id with
  | some o' =>
    constructor
    · intro h
      injection h with h
      rw [h]
    · intro h
      injection h with h
      rw [h]
  | none => exact ⟨nofun, nofun⟩

theorem get_eq_ok_iff {t : Table α} {id : ObjectId} {o : Object α} :
    t.get id = .ok o ↔ t.slot id = some (.live o) :=
  get_eq_ok_iff_get?.trans slot_eq_live_iff.symm

theorem contains_eq_true_iff {t : Table α} {id : ObjectId} :
    t.contains id = true ↔ ∃ o, t.objects.get? id = some o := Option.isSome_iff_exists

theorem contains_eq_false_iff {t : Table α} {id : ObjectId} :
    t.contains id = false ↔ t.objects.get? id = none :=
  Option.isSome_eq_false_iff.trans Option.isNone_iff_eq_none

theorem tidy_empty (capacity : Nat) : (empty capacity : Table α).Tidy := ⟨List.nodup_nil, nofun⟩

/-! ### Expiry -/

theorem tidy_expire {t : Table α} (h : t.Tidy) : t.expire.Tidy :=
  ⟨h.nodup.sublist ((Marker.expire_sublist _ _).map _),
    fun m hm => h.unmarked m ((Marker.expire_sublist _ _).subset hm)⟩

theorem slot_expire {t : Table α} (h : t.Tidy) (id : ObjectId) :
    Fades (t.slot id) (t.expire.slot id) := by
  cases hget : t.objects.get? id with
  | some o =>
    left
    rw [slot_eq_live_iff.2 hget]
    exact slot_eq_live_iff.2 hget
  | none =>
    rw [slot_of_get?_eq_none hget, slot_of_get?_eq_none (t := t.expire) hget]
    rcases Marker.acked?_expire h.nodup (t.markers.length - t.capacity) id with hsame | ⟨hacked, hgone⟩
    · left
      exact congrArg (Option.map Slot.stale) hsame
    · right
      exact ⟨congrArg (Option.map Slot.stale) hacked, congrArg (Option.map Slot.stale) hgone⟩

/-! ### Insertion -/

theorem insert_eq_ok_iff {t t' : Table α} {side : Side} {id : ObjectId} {o : Object α} {h : Handle} :
    t.insert side id o = .ok (h, t') ↔ t.refusal? side id = none ∧ h = ⟨id, t.nextGeneration⟩ ∧
      t' = { t with
        objects := t.objects.put id { o with generation := t.nextGeneration }
        markers := Marker.forget id t.markers
        nextServer := if side = .server then id.toNat + 1 else t.nextServer
        nextGeneration := t.nextGeneration + 1 } := by
  unfold insert
  cases t.refusal? side id with
  | some e => exact ⟨nofun, fun hn => nomatch hn.1⟩
  | none =>
    constructor
    · intro heq
      injection heq with heq
      injection heq with hh ht
      exact ⟨rfl, hh.symm, ht.symm⟩
    · rintro ⟨-, rfl, rfl⟩
      rfl

/-- An insertion makes its id live, and concerns no other. -/
theorem slot_insert {t t' : Table α} {side : Side} {id : ObjectId} {o : Object α} {h : Handle}
    (hi : t.insert side id o = .ok (h, t')) (other : ObjectId) : t'.slot other =
      if other = id then some (.live { o with generation := t.nextGeneration }) else t.slot other := by
  obtain ⟨-, -, rfl⟩ := insert_eq_ok_iff.1 hi
  by_cases heq : other = id
  · rw [if_pos heq]
    refine slot_eq_live_iff.2 ?_
    rw [Directory.get?_put, if_pos heq]
  · rw [if_neg heq]
    unfold slot
    dsimp only
    rw [Directory.get?_put, Marker.acked?_forget, if_neg heq, if_neg heq]

theorem tidy_insert {t t' : Table α} {side : Side} {id : ObjectId} {o : Object α} {h : Handle}
    (ht : t.Tidy) (hi : t.insert side id o = .ok (h, t')) : t'.Tidy := by
  obtain ⟨-, -, rfl⟩ := insert_eq_ok_iff.1 hi
  refine ⟨ht.nodup.sublist (List.filter_sublist.map _), fun m hm => ?_⟩
  obtain ⟨hm, hne⟩ := List.mem_filter.1 hm
  rw [Directory.get?_put, if_neg (bne_iff_ne.1 hne)]
  exact ht.unmarked m hm

/-- An id that is live, or whose deletion is not acknowledged, cannot be taken. -/
theorem slot_of_insert {t t' : Table α} {side : Side} {id : ObjectId} {o : Object α} {h : Handle}
    (hi : t.insert side id o = .ok (h, t')) :
    side.contains id.raw ∧ (t.slot id = none ∨ t.slot id = some (.stale true)) := by
  obtain ⟨hrefusal, -, -⟩ := insert_eq_ok_iff.1 hi
  unfold refusal? at hrefusal
  split at hrefusal
  · nomatch hrefusal
  · rename_i hside
    refine ⟨by simpa using hside, ?_⟩
    split at hrefusal
    · nomatch hrefusal
    · nomatch hrefusal
    · rename_i hslot
      exact .inr hslot
    · rename_i hslot
      exact .inl hslot

/-! ### Changes to live objects -/

/-- A change to a live object leaves it live, and concerns no other id. -/
theorem slot_modify (t : Table α) (id : ObjectId) (f : Object α → Object α) (other : ObjectId) :
    (t.modify id f).slot other =
      match t.slot other with
      | some (.live o) => some (.live (if other = id then f o else o))
      | state => state := by
  unfold modify
  cases hget : t.objects.get? id with
  | some o =>
    dsimp only
    by_cases h : other = id
    · subst h
      rw [slot_eq_live_iff.2 hget]
      refine slot_eq_live_iff.2 ?_
      rw [Directory.get?_put, if_pos rfl, if_pos rfl]
    · have hslot : ({ t with objects := t.objects.put id (f o) } : Table α).slot other =
          t.slot other := by
        unfold slot
        rw [Directory.get?_put, if_neg h]
      rw [hslot]
      cases t.slot other with
      | none => rfl
      | some state =>
        cases state with
        | live o => dsimp only; rw [if_neg h]
        | stale acked => rfl
  | none =>
    dsimp only
    cases hslot : t.slot other with
    | none => rfl
    | some state =>
      cases state with
      | live o =>
        -- nothing is live at `id`
        have hne : other ≠ id := by
          rintro rfl
          rw [slot_eq_live_iff.1 hslot] at hget
          nomatch hget
        dsimp only
        rw [if_neg hne]
      | stale acked => rfl

theorem tidy_modify {t : Table α} (h : t.Tidy) (id : ObjectId) (f : Object α → Object α) :
    (t.modify id f).Tidy := by
  unfold modify
  cases hget : t.objects.get? id with
  | none => exact h
  | some o =>
    refine ⟨h.nodup, fun m hm => ?_⟩
    have hnone := h.unmarked m hm
    have hne : m.id ≠ id := by
      intro heq
      rw [heq, hget] at hnone
      nomatch hnone
    rw [Directory.get?_put, if_neg hne]
    exact hnone

/-! ### Removal -/

/-- The table with a marker in place of an object. -/
def bury (t : Table α) (id : ObjectId) (acked : Bool) : Table α :=
  { t with objects := t.objects.erase id, markers := t.markers ++ [⟨id, acked⟩] }

theorem remove_eq_ok_iff {t t' : Table α} {id : ObjectId} {o : Object α} :
    t.remove id = .ok (o, t') ↔
      t.slot id = some (.live o) ∧ t' = (t.bury id (id.side == .server)).expire := by
  rw [← get_eq_ok_iff]
  unfold remove bury
  cases t.get id with
  | error e => exact ⟨nofun, fun h => nomatch h.1⟩
  | ok o' =>
    constructor
    · intro h
      injection h with h
      injection h with ho ht
      exact ⟨congrArg Except.ok ho, ht.symm⟩
    · rintro ⟨ho, rfl⟩
      injection ho with ho
      rw [ho]

theorem tidy_bury {t : Table α} {id : ObjectId} {o : Object α} (h : t.Tidy)
    (hlive : t.slot id = some (.live o)) (acked : Bool) : (t.bury id acked).Tidy := by
  refine ⟨?_, fun m hm => ?_⟩
  · -- a live id has no marker yet
    have hnew : id ∉ t.markers.map (·.id) := by
      intro hmem
      obtain ⟨m, hm, heq⟩ := List.mem_map.1 hmem
      have hnone := h.unmarked m hm
      rw [heq, slot_eq_live_iff.1 hlive] at hnone
      nomatch hnone
    show ((t.markers ++ [Marker.mk id acked]).map (·.id)).Nodup
    rw [List.map_append, List.nodup_append]
    refine ⟨h.nodup, List.pairwise_singleton _ _, fun a ha b hb heq => ?_⟩
    rw [List.map_singleton, List.mem_singleton] at hb
    rw [heq, hb] at ha
    exact hnew ha
  · show (t.objects.erase id).get? m.id = none
    rw [Directory.get?_erase]
    split
    · rfl
    · rename_i hne
      rcases List.mem_append.1 hm with hm | hm
      · exact h.unmarked m hm
      · rw [List.mem_singleton.1 hm] at hne
        exact absurd rfl hne

theorem slot_bury {t : Table α} {id : ObjectId} {o : Object α} (h : t.Tidy)
    (hlive : t.slot id = some (.live o)) (acked : Bool) (other : ObjectId) :
    (t.bury id acked).slot other = if other = id then some (.stale acked) else t.slot other := by
  have htidy := tidy_bury h hlive acked
  split
  · rename_i heq
    subst heq
    have hget : (t.bury other acked).objects.get? other = none := by
      show (t.objects.erase other).get? other = none
      rw [Directory.get?_erase, if_pos rfl]
    have hmem : Marker.mk other acked ∈ (t.bury other acked).markers :=
      List.mem_append_right _ (List.mem_singleton.2 rfl)
    rw [slot_of_get?_eq_none hget, (Marker.acked?_eq_some_iff htidy.nodup).2 hmem]
    rfl
  · rename_i hne
    have hp : (id == other) = false := beq_false_of_ne (Ne.symm hne)
    unfold slot bury
    dsimp only
    rw [Directory.get?_erase, if_neg hne]
    simp only [Marker.acked?, List.find?_append, List.find?_cons, hp, List.find?_nil, Option.or_none]

theorem tidy_remove {t t' : Table α} {id : ObjectId} {o : Object α} (h : t.Tidy)
    (hr : t.remove id = .ok (o, t')) : t'.Tidy := by
  obtain ⟨hlive, rfl⟩ := remove_eq_ok_iff.1 hr
  exact tidy_expire (tidy_bury h hlive _)

/-- A removal leaves a marker at its id; deletions of server ids need no acknowledgement. -/
theorem slot_remove {t t' : Table α} {id : ObjectId} {o : Object α} (h : t.Tidy)
    (hr : t.remove id = .ok (o, t')) (other : ObjectId) :
    Fades (if other = id then some (.stale (id.side == .server)) else t.slot other)
      (t'.slot other) := by
  obtain ⟨hlive, rfl⟩ := remove_eq_ok_iff.1 hr
  have hfades := slot_expire (tidy_bury h hlive (id.side == .server)) other
  rw [slot_bury h hlive] at hfades
  exact hfades

/-! ### Acknowledgement -/

theorem objects_acknowledge (t : Table α) (id : ObjectId) :
    (t.acknowledge id).2.objects = t.objects := by
  unfold acknowledge
  split
  · rfl
  · rfl

/-- The table with the marker of an id acknowledged. -/
def released (t : Table α) (id : ObjectId) : Table α :=
  { t with markers := Marker.acknowledge id t.markers }

theorem tidy_released {t : Table α} (h : t.Tidy) (id : ObjectId) : (t.released id).Tidy := by
  have hids := Marker.ids_acknowledge id t.markers
  refine ⟨?_, fun m hm => ?_⟩
  · show ((Marker.acknowledge id t.markers).map (·.id)).Nodup
    rw [hids]
    exact h.nodup
  · have hm : m.id ∈ (Marker.acknowledge id t.markers).map (·.id) := List.mem_map_of_mem hm
    rw [hids] at hm
    obtain ⟨m', hm', heq⟩ := List.mem_map.1 hm
    rw [← heq]
    exact h.unmarked m' hm'

theorem slot_released (t : Table α) (id other : ObjectId) : (t.released id).slot other =
    match t.slot other with
    | some (.stale acked) => some (.stale (acked || other == id))
    | state => state := by
  unfold slot released
  dsimp only
  rw [Marker.acked?_acknowledge]
  cases t.objects.get? other with
  | some o => rfl
  | none =>
    cases Marker.acked? other t.markers with
    | none => rfl
    | some acked => rfl

theorem tidy_acknowledge {t : Table α} (h : t.Tidy) (id : ObjectId) : (t.acknowledge id).2.Tidy := by
  unfold acknowledge
  split
  · exact tidy_expire (tidy_released h id)
  · exact h

/-! ### Acknowledgements one after the other -/

/-- Acknowledgements concern no live object. -/
theorem acknowledgeAll_keeps (ids : List ObjectId) (t : Table α) :
    (ids.foldl (fun t id => (t.acknowledge id).2) t).objects = t.objects ∧
      (ids.foldl (fun t id => (t.acknowledge id).2) t).nextGeneration = t.nextGeneration := by
  induction ids generalizing t with
  | nil => exact ⟨rfl, rfl⟩
  | cons id ids ih =>
    obtain ⟨hobjects, hgeneration⟩ := ih (t.acknowledge id).2
    refine ⟨hobjects.trans (objects_acknowledge t id), hgeneration.trans ?_⟩
    unfold acknowledge
    split
    · rfl
    · rfl

theorem tidy_acknowledgeAll (ids : List ObjectId) : ∀ {t : Table α}, t.Tidy →
    (ids.foldl (fun t id => (t.acknowledge id).2) t).Tidy := by
  induction ids with
  | nil =>
    intro t h
    exact h
  | cons id ids ih =>
    intro t h
    exact ih (tidy_acknowledge h id)

end Table

end Compositor.Objects
