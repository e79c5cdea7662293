import Compositor.Proofs.Object.Stamps
import Compositor.Protocol.Core
import Mathlib.Data.List.AList
import Mathlib.Data.Set.Card

/-
  The table, kept with redundancy.

  A table can be kept as a map from ids to slots.  Then nothing says by itself how many objects are live,
  or which marker is the oldest: a count and a queue of the stale ids are kept beside the map, and every
  operation has to see to all three.  Expiry runs through the queue by index and deletes from it on the
  way.  `Ledger` is that table.

  `Records` ties a ledger to a table.  Under any operation both give the same answers and stay tied to each
  other, one lemma for each operation (`Records.insert`, `Records.remove`, and so on); the one about expiry is
  an induction on the part of the queue that is still ahead of the index (`Records.expireFrom`).  So the
  redundant fields of a ledger always agree (`Kept`), since a consistent table says of each what it must be
  (`kept_of_changes`).

  The generations of live objects are not among what is kept in any case.  They are different, and below the
  counter, as far as no object is given another generation where it stands (`Stamped`).
-/

namespace Compositor.Objects

open Compositor.Wire (ObjectId Side)

/-! ## The ledger -/

/-- The slots of ids by id. -/
abbrev Slots (α : Type) := AList fun _ : ObjectId => Slot α

/-- A table that is kept as a map of slots. -/
structure Ledger (α : Type) where
  slots : Slots α := ∅
  /-- The stale ids, in the order of their destruction. -/
  stale : List ObjectId := []
  /-- The number of markers above which acknowledged ones expire. -/
  capacity : Nat
  nextServer : Nat := 0xFF000000
  nextGeneration : Nat := 1
  /-- The number of live objects. -/
  live : Nat := 0

namespace Ledger

variable {α : Type}

/-- The empty ledger that remembers a given number of stale ids. -/
def empty (capacity : Nat) : Ledger α := { capacity }

/-- Was this server id used before? -/
def wasAllocated (l : Ledger α) (id : ObjectId) : Bool :=
  id.side == .server && id.toNat < l.nextServer

/-- The error for an id without a slot. -/
def missing (l : Ledger α) (id : ObjectId) : TableError :=
  if l.wasAllocated id then .stale id else .notFound id

/-- The live object at an id. -/
def get (l : Ledger α) (id : ObjectId) : Except TableError (Object α) :=
  match l.slots.lookup id with
  | some (.live object) => .ok object
  | some (.stale _) => .error (.stale id)
  | none => .error (l.missing id)

/-- Drops acknowledged markers from a place in the queue on, until the capacity is met. -/
def expireFrom (l : Ledger α) (index : Nat) : Ledger α :=
  if h : l.capacity < l.stale.length ∧ index < l.stale.length then
    have := h.2
    match l.slots.lookup l.stale[index] with
    | some (.stale true) =>
      expireFrom { l with slots := l.slots.erase l.stale[index], stale := l.stale.eraseIdx index } index
    | _ => expireFrom l (index + 1)
  else l
termination_by l.stale.length - index
decreasing_by
  · show (l.stale.eraseIdx index).length - index < l.stale.length - index
    rw [List.length_eraseIdx_of_lt h.2]
    omega
  · omega

/-- Drops the oldest acknowledged markers until the capacity is met, as far as possible. -/
def expire (l : Ledger α) : Ledger α := l.expireFrom 0

/-- Takes the first mention of an id out of the queue. -/
def forget (l : Ledger α) (id : ObjectId) : Ledger α := { l with stale := l.stale.erase id }

/-- Puts a new object at an id that is free, and stamps it. -/
def place (l : Ledger α) (side : Side) (id : ObjectId) (object : Object α) : Handle × Ledger α :=
  (⟨id, l.nextGeneration⟩, { l with
    slots := l.slots.insert id (.live { object with generation := l.nextGeneration })
    nextServer := if side = .server then id.toNat + 1 else l.nextServer
    nextGeneration := l.nextGeneration + 1
    live := l.live + 1 })

/-- Inserts an object at an id that a side has chosen. -/
def insert (l : Ledger α) (side : Side) (id : ObjectId) (object : Object α) :
    Except TableError (Handle × Ledger α) :=
  if ! side.contains id.raw ∨ id.side ≠ side then .error (.idOutOfRange id.raw side)
  else match l.slots.lookup id with
    | some (.live _) => .error (.idInUse id)
    | some (.stale false) => .error (.idNotReleased id)
    | some (.stale true) =>
      if side = .server then .error (.idNotReleased id) else .ok ((l.forget id).place side id object)
    | none =>
      if l.wasAllocated id then .error (.idNotReleased id) else .ok (l.place side id object)

/-- Inserts an object at the next server id. -/
def allocate (l : Ledger α) (object : Object α) : Except TableError (Handle × Ledger α) :=
  if l.nextServer < 0x100000000 then
    match ObjectId.ofRaw? (UInt32.ofNat l.nextServer) with
    | some id => l.insert .server id object
    | none => .error .serverIdsExhausted
  else .error .serverIdsExhausted

/-- Changes the live object at an id, if there is one. -/
def modify (l : Ledger α) (id : ObjectId) (f : Object α → Object α) : Ledger α :=
  match l.slots.lookup id with
  | some (.live object) => { l with slots := l.slots.insert id (.live (f object)) }
  | _ => l

/-- Destroys the object at an id, and leaves a marker. -/
def remove (l : Ledger α) (id : ObjectId) : Except TableError (Object α × Ledger α) :=
  match l.slots.lookup id with
  | some (.live object) =>
    let l := { l with
      slots := l.slots.insert id (.stale (id.side == Side.server))
      live := l.live - 1
      stale := l.stale ++ [id] }
    .ok (object, l.expire)
  | some (.stale _) => .error (.stale id)
  | none => .error (l.missing id)

/-- Notes that the client knows of a deletion; was this awaited? -/
def acknowledge (l : Ledger α) (id : ObjectId) : Bool × Ledger α :=
  match l.slots.lookup id with
  | some (.stale false) => (true, { l with slots := l.slots.insert id (.stale true) }.expire)
  | _ => (false, l)

/-- The live object of an entry, with its id. -/
def liveEntry? (e : Sigma fun _ : ObjectId => Slot α) : Option (ObjectId × Object α) :=
  match e.2 with
  | .live object => some (e.1, object)
  | .stale _ => none

/-- The live objects, highest id first. -/
def objects (l : Ledger α) : List (ObjectId × Object α) :=
  (l.slots.entries.filterMap liveEntry?).mergeSort fun a b => b.1.toNat ≤ a.1.toNat

/-- Removes all objects, highest id first, and all markers. -/
def drain (l : Ledger α) : List (ObjectId × Object α) × Ledger α :=
  (l.objects, { l with slots := ∅, stale := [], live := 0 })

end Ledger

/-! ## Changes -/

/-- Does an operation on a ledger. -/
def Ledger.change {α : Type} (l : Ledger α) : Change α → Answer α × Ledger α
  | .insert side id object => settle .handle l (l.insert side id object)
  | .allocate object => settle .handle l (l.allocate object)
  | .modify id f => (.object (l.get id), l.modify id f)
  | .remove id => settle .object l (l.remove id)
  | .acknowledge id => (.awaited (l.acknowledge id).1, (l.acknowledge id).2)
  | .drain => (.objects l.drain.1, l.drain.2)

/-- Does operations on a ledger, one after the other. -/
def Ledger.changeAll {α : Type} (l : Ledger α) : List (Change α) → List (Answer α) × Ledger α
  | [] => ([], l)
  | c :: cs => ((l.change c).1 :: ((l.change c).2.changeAll cs).1, ((l.change c).2.changeAll cs).2)

/-! ## Ledgers and tables -/

section
variable {α : Type}

/-- A ledger records a table. -/
structure Records (l : Ledger α) (t : Table α) : Prop where
  slot : ∀ id, l.slots.lookup id = t.slot id
  stale : l.stale = t.markers.map (·.id)
  live : l.live = t.objects.length
  capacity : l.capacity = t.capacity
  nextServer : l.nextServer = t.nextServer
  nextGeneration : l.nextGeneration = t.nextGeneration

namespace Records

variable {l : Ledger α} {t : Table α}

theorem empty (capacity : Nat) : Records (.empty capacity : Ledger α) (.empty capacity) :=
  ⟨fun _ => rfl, rfl, rfl, rfl, rfl, rfl⟩

/-- Without a marker in the middle, all other ids are as they were, and its own has no slot. -/
theorem slot_without {ms ms' : List Marker} {m : Marker}
    (htidy : Table.Tidy { t with markers := ms ++ m :: ms' }) (id : ObjectId) :
    Table.slot { t with markers := ms ++ ms' } id =
      if id = m.id then none else Table.slot { t with markers := ms ++ m :: ms' } id := by
  have hmem : m ∈ ms ++ m :: ms' := List.mem_append_right _ (List.mem_cons_self ..)
  split
  · rename_i hid
    subst hid
    have hothers : ∀ m' ∈ ms ++ ms', m'.id ≠ m.id := by
      intro m' hm' heq
      have hnodup := htidy.nodup
      dsimp only at hnodup
      rw [List.map_append, List.map_cons, List.nodup_middle, List.nodup_cons, ← List.map_append] at hnodup
      exact hnodup.1 (List.mem_map.2 ⟨m', hm', heq⟩)
    have hfree : t.objects.get? m.id = none := htidy.unmarked m hmem
    have hmarker : Marker.acked? m.id (ms ++ ms') = none := Marker.acked?_eq_none_iff.2 hothers
    have hslot := Table.slot_of_get?_eq_none (t := { t with markers := ms ++ ms' }) hfree
    rw [hslot]
    show (Marker.acked? m.id (ms ++ ms')).map Slot.stale = none
    rw [hmarker]
    rfl
  · rename_i hid
    have hp : (m.id == id) = false := beq_false_of_ne (Ne.symm hid)
    unfold Table.slot Marker.acked?
    dsimp only
    rw [List.find?_append, List.find?_append, List.find?_cons_of_neg (by simp [hp])]

/-- A table stays tidy without a marker. -/
theorem tidy_without {ms ms' : List Marker} {m : Marker}
    (htidy : Table.Tidy { t with markers := ms ++ m :: ms' }) :
    Table.Tidy { t with markers := ms ++ ms' } := by
  have hsub : (ms ++ ms').Sublist (ms ++ m :: ms') :=
    (List.Sublist.refl ms).append (List.sublist_cons_self m ms')
  exact ⟨htidy.nodup.sublist (hsub.map _), fun m' hm' => htidy.unmarked m' (hsub.subset hm')⟩

/-- A marker is dropped from the map and from the queue. -/
theorem without {ms ms' : List Marker} {m : Marker} (h : Records l { t with markers := ms ++ m :: ms' })
    (htidy : Table.Tidy { t with markers := ms ++ m :: ms' }) :
    Records { l with slots := l.slots.erase m.id, stale := l.stale.eraseIdx ms.length }
      { t with markers := ms ++ ms' } := by
  refine ⟨?_, ?_, h.live, h.capacity, h.nextServer, h.nextGeneration⟩
  · intro id
    rw [slot_without htidy]
    split
    · rename_i heq
      rw [heq]
      exact AList.lookup_erase m.id l.slots
    · rename_i hne
      rw [← h.slot]
      exact AList.lookup_erase_ne hne
  · show l.stale.eraseIdx ms.length = (ms ++ ms').map (·.id)
    rw [h.stale, List.map_append, List.map_cons, List.eraseIdx_append_of_length_le (by simp)]
    simp

/-- Running through the queue drops the markers that expire.  Those before the index are looked at
already, and wait. -/
theorem expireFrom (rest : List Marker) : ∀ {kept : List Marker} {l : Ledger α},
    (∀ m ∈ kept, m.acked = false) → Table.Tidy { t with markers := kept ++ rest } →
      Records l { t with markers := kept ++ rest } →
        Records (l.expireFrom kept.length) { t with
          markers := kept ++ Marker.expire ((kept ++ rest).length - t.capacity) rest } := by
  induction rest with
  | nil =>
    intro kept l _ _ h
    have hstale : l.stale.length = kept.length := by
      rw [h.stale, List.length_map, List.append_nil]
    have hend : Marker.expire ((kept ++ []).length - t.capacity) [] = [] := by
      cases (kept ++ []).length - t.capacity with
      | zero => rfl
      | succ n => rfl
    rw [Ledger.expireFrom, dif_neg (by omega), hend]
    exact h
  | cons m rest ih =>
    intro kept l hkept htidy h
    have hstale : l.stale = kept.map (·.id) ++ m.id :: rest.map (·.id) := by
      rw [h.stale, List.map_append, List.map_cons]
    have hlength : l.stale.length = (kept ++ rest).length + 1 := by
      rw [h.stale, List.length_map, List.length_append, List.length_append, List.length_cons]
      omega
    have hlength' : (kept ++ m :: rest).length = (kept ++ rest).length + 1 := by
      rw [List.length_append, List.length_append, List.length_cons]
      omega
    have hcapacity : l.capacity = t.capacity := h.capacity
    rw [Ledger.expireFrom, hlength']
    by_cases hover : t.capacity < (kept ++ rest).length + 1
    · have hindex : kept.length < l.stale.length := by
        rw [hlength, List.length_append]
        omega
      have hid : l.stale[kept.length] = m.id := by
        simp only [hstale]
        rw [List.getElem_append_right (by simp)]
        simp
      have hslot : l.slots.lookup m.id = some (.stale m.acked) := by
        rw [h.slot]
        exact (Table.slot_eq_stale_iff htidy).2 (List.mem_append_right _ (List.mem_cons_self ..))
      have hexcess : (kept ++ rest).length + 1 - t.capacity =
          (kept ++ rest).length - t.capacity + 1 := by omega
      rw [dif_pos ⟨by omega, hindex⟩, hexcess, Marker.expire]
      dsimp only
      rw [hid, hslot]
      cases hacked : m.acked with
      | true =>
        -- the marker goes, and the index stays where the next one comes to stand
        rw [if_pos rfl]
        exact ih hkept (tidy_without htidy) (h.without htidy)
      | false =>
        -- the marker waits, and the index moves on
        rw [if_neg Bool.false_ne_true]
        have hsnoc : kept ++ m :: rest = (kept ++ [m]) ++ rest := by
          rw [List.append_assoc, List.singleton_append]
        have hkept' : ∀ m' ∈ kept ++ [m], m'.acked = false := by
          intro m' hm'
          rcases List.mem_append.1 hm' with hm' | hm'
          · exact hkept m' hm'
          · rw [List.mem_singleton.1 hm', hacked]
        rw [hsnoc] at htidy h hlength'
        have hnext := ih hkept' htidy h
        rw [List.length_append, List.length_singleton, hlength', hexcess, List.append_assoc] at hnext
        exact hnext
    · have hnone : (kept ++ rest).length + 1 - t.capacity = 0 := by omega
      rw [dif_neg (by omega), hnone]
      exact h

theorem expire (h : Records l t) (htidy : t.Tidy) : Records l.expire t.expire := by
  have hnone : ∀ m ∈ ([] : List Marker), m.acked = false := nofun
  exact expireFrom t.markers hnone htidy h

/-! ### Answers -/

theorem wasAllocated (h : Records l t) (id : ObjectId) : l.wasAllocated id = t.wasAllocated id := by
  unfold Ledger.wasAllocated Table.wasAllocated
  rw [h.nextServer]

theorem get (h : Records l t) (id : ObjectId) : l.get id = t.get id := by
  have hslot := h.slot id
  have hwas := h.wasAllocated id
  unfold Ledger.get Table.get Ledger.missing Table.missing Table.isStale
  rw [hslot, hwas]
  unfold Table.slot
  cases t.objects.get? id with
  | some o => rfl
  | none =>
    cases Marker.acked? id t.markers with
    | none => rfl
    | some acked => rfl

/-- Two operations that can be refused: both are, for the same reason, or both give the same result and
leave a ledger that records a table. -/
def Alike {β : Type} (r : Except TableError (β × Ledger α)) (r' : Except TableError (β × Table α)) :
    Prop :=
  (∃ e, r = .error e ∧ r' = .error e) ∨
    ∃ b l' t', r = .ok (b, l') ∧ r' = .ok (b, t') ∧ Records l' t'

theorem settle {β : Type} {r : Except TableError (β × Ledger α)}
    {r' : Except TableError (β × Table α)} (answer : Except TableError β → Answer α)
    (h : Records l t) (hr : Alike r r') :
    (Objects.settle answer l r).1 = (Objects.settle answer t r').1 ∧
      Records (Objects.settle answer l r).2 (Objects.settle answer t r').2 := by
  rcases hr with ⟨e, rfl, rfl⟩ | ⟨b, l', t', rfl, rfl, h'⟩
  · exact ⟨rfl, h⟩
  · exact ⟨rfl, h'⟩

/-! ### Operations -/

/-- Taking an id out of the queue takes out its marker. -/
theorem erase_stale (h : Records l t) (htidy : t.Tidy) (id : ObjectId) :
    l.stale.erase id = (Marker.forget id t.markers).map (·.id) := by
  rw [h.stale, htidy.nodup.erase_eq_filter, List.filter_map]
  rfl

/-- An id without a slot is not in the queue. -/
theorem forget_of_free (h : Records l t) {id : ObjectId} (hslot : t.slot id = none) : l.forget id = l := by
  obtain ⟨-, hunmarked⟩ := Table.slot_eq_none_iff.1 hslot
  have habsent : id ∉ l.stale := by
    rw [h.stale, List.mem_map]
    rintro ⟨m, hm, hid⟩
    exact hunmarked m hm hid
  unfold Ledger.forget
  rw [List.erase_of_not_mem habsent]

/-- A new object at an id without one, which leaves the queue if it was there. -/
theorem place (h : Records l t) (htidy : t.Tidy) {side : Side} {id : ObjectId} (o : Object α)
    (hrefusal : t.refusal? side id = none) (hfree : t.objects.get? id = none) :
    Alike (.ok ((l.forget id).place side id o)) (t.insert side id o) := by
  have hinsert : t.insert side id o = .ok (⟨id, t.nextGeneration⟩, { t with
      objects := t.objects.put id { o with generation := t.nextGeneration }
      markers := Marker.forget id t.markers
      nextServer := if side = .server then id.toNat + 1 else t.nextServer
      nextGeneration := t.nextGeneration + 1 }) := by
    unfold Table.insert
    rw [hrefusal]
  have hplace : (l.forget id).place side id o =
      (⟨id, t.nextGeneration⟩, ((l.forget id).place side id o).2) := by
    rw [← h.nextGeneration]
    rfl
  refine .inr ⟨_, _, _, congrArg Except.ok hplace, hinsert, ?_⟩
  refine ⟨fun other => ?_, h.erase_stale htidy id, ?_, h.capacity, ?_, ?_⟩
  · show (l.slots.insert id (.live { o with generation := l.nextGeneration })).lookup other = _
    unfold Table.slot
    dsimp only
    rw [Directory.get?_put, Marker.acked?_forget]
    by_cases hother : other = id
    · subst hother
      rw [if_pos rfl, AList.lookup_insert, h.nextGeneration]
    · rw [if_neg hother, if_neg hother, AList.lookup_insert_ne hother]
      exact h.slot other
  · show l.live + 1 = (t.objects.put id _).length
    rw [Directory.length_put hfree, h.live]
  · show (if side = .server then id.toNat + 1 else l.nextServer) = _
    rw [h.nextServer]
  · show l.nextGeneration + 1 = t.nextGeneration + 1
    rw [h.nextGeneration]

theorem insert (h : Records l t) (htidy : t.Tidy) (side : Side) (id : ObjectId) (o : Object α) :
    Alike (l.insert side id o) (t.insert side id o) := by
  have hrefused : ∀ e, t.refusal? side id = some e → t.insert side id o = .error e := by
    intro e he
    unfold Table.insert
    rw [he]
  cases hcontains : side.contains id.raw with
  | false =>
    have hl : l.insert side id o = .error (.idOutOfRange id.raw side) := by
      simp [Ledger.insert, hcontains]
    exact .inl ⟨_, hl, hrefused _ (by simp [Table.refusal?, hcontains])⟩
  | true =>
    have hside := (Side.contains_iff_side side id).1 hcontains
    have hl : l.insert side id o = match t.slot id with
        | some (.live _) => .error (.idInUse id)
        | some (.stale false) => .error (.idNotReleased id)
        | some (.stale true) =>
          if side = .server then .error (.idNotReleased id) else .ok ((l.forget id).place side id o)
        | none =>
          if t.wasAllocated id then .error (.idNotReleased id) else .ok (l.place side id o) := by
      unfold Ledger.insert
      rw [if_neg (by simp [hcontains, hside]), h.slot id, h.wasAllocated id]
    have hr : t.refusal? side id = match t.slot id with
        | some (.live _) => some (.idInUse id)
        | some (.stale false) => some (.idNotReleased id)
        | some (.stale true) => if side = .server then some (.idNotReleased id) else none
        | none => if t.wasAllocated id then some (.idNotReleased id) else none := by
      unfold Table.refusal?
      exact if_neg (by simp [hcontains])
    rw [hl]
    cases hslot : t.slot id with
    | none =>
      rw [hslot] at hr
      by_cases hwas : t.wasAllocated id = true
      · exact .inl ⟨_, if_pos hwas, hrefused _ (hr.trans (if_pos hwas))⟩
      · obtain ⟨hfree, -⟩ := Table.slot_eq_none_iff.1 hslot
        have hplaced := h.place htidy o (hr.trans (if_neg hwas)) hfree
        rw [h.forget_of_free hslot] at hplaced
        dsimp only
        rw [if_neg hwas]
        exact hplaced
    | some state =>
      rw [hslot] at hr
      cases state with
      | live p => exact .inl ⟨_, rfl, hrefused _ hr⟩
      | stale acked =>
        cases acked with
        | false => exact .inl ⟨_, rfl, hrefused _ hr⟩
        | true =>
          by_cases hserver : side = .server
          · exact .inl ⟨_, if_pos hserver, hrefused _ (hr.trans (if_pos hserver))⟩
          · have hfree : t.objects.get? id = none :=
              htidy.unmarked _ ((Table.slot_eq_stale_iff htidy).1 hslot)
            dsimp only
            rw [if_neg hserver]
            exact h.place htidy o (hr.trans (if_neg hserver)) hfree

theorem allocate (h : Records l t) (htidy : t.Tidy) (o : Object α) :
    Alike (l.allocate o) (t.allocate o) := by
  unfold Ledger.allocate Table.allocate
  rw [h.nextServer]
  by_cases hlt : t.nextServer < 0x100000000
  · rw [if_pos hlt, if_pos hlt]
    cases ObjectId.ofRaw? (UInt32.ofNat t.nextServer) with
    | none => exact .inl ⟨_, rfl, rfl⟩
    | some id => exact h.insert htidy .server id o
  · rw [if_neg hlt, if_neg hlt]
    exact .inl ⟨_, rfl, rfl⟩

theorem modify (h : Records l t) (hascending : t.objects.Ascending) (id : ObjectId)
    (f : Object α → Object α) : Records (l.modify id f) (t.modify id f) := by
  have hslot := Table.slot_modify t id f
  unfold Ledger.modify
  rw [h.slot id]
  cases hget : t.objects.get? id with
  | none =>
    have hsame : t.modify id f = t := by
      unfold Table.modify
      rw [hget]
    rw [hsame, Table.slot_of_get?_eq_none hget]
    cases Marker.acked? id t.markers with
    | none => exact h
    | some acked => exact h
  | some o =>
    have hlive := Table.slot_eq_live_iff.2 hget
    have hchanged : t.modify id f = { t with objects := t.objects.put id (f o) } := by
      unfold Table.modify
      rw [hget]
    rw [hlive]
    refine ⟨fun other => ?_, ?_, ?_, ?_, ?_, ?_⟩
    · rw [hslot other]
      by_cases hother : other = id
      · subst hother
        rw [hlive]
        dsimp only
        rw [if_pos rfl]
        exact AList.lookup_insert l.slots
      · rw [AList.lookup_insert_ne hother, h.slot other]
        split
        · rename_i p hp
          rw [hp, if_neg hother]
        · rfl
    · rw [hchanged]
      exact h.stale
    · rw [hchanged]
      exact h.live.trans (Directory.length_put_of_get? hascending hget).symm
    · rw [hchanged]
      exact h.capacity
    · rw [hchanged]
      exact h.nextServer
    · rw [hchanged]
      exact h.nextGeneration

theorem remove (h : Records l t) (ht : t.Sound) (id : ObjectId) :
    Alike (l.remove id) (t.remove id) := by
  have hget := h.get id
  unfold Ledger.get at hget
  unfold Ledger.remove
  rw [h.slot id] at hget ⊢
  cases hslot : t.slot id with
  | none =>
    rw [hslot] at hget
    refine .inl ⟨_, rfl, ?_⟩
    unfold Table.remove
    rw [← hget]
  | some state =>
    rw [hslot] at hget
    cases state with
    | stale acked =>
      refine .inl ⟨_, rfl, ?_⟩
      unfold Table.remove
      rw [← hget]
    | live o =>
      have hlive := Table.slot_eq_live_iff.1 hslot
      have hlength := Directory.length_erase ht.ascending hlive
      have hburied : Records
          { l with
            slots := l.slots.insert id (.stale (id.side == Side.server))
            live := l.live - 1
            stale := l.stale ++ [id] }
          (t.bury id (id.side == .server)) := by
        refine ⟨fun other => ?_, ?_, ?_, h.capacity, h.nextServer, h.nextGeneration⟩
        · rw [Table.slot_bury ht.tidy hslot]
          by_cases hother : other = id
          · subst hother
            rw [if_pos rfl]
            exact AList.lookup_insert l.slots
          · rw [if_neg hother, AList.lookup_insert_ne hother]
            exact h.slot other
        · show l.stale ++ [id] = (t.markers ++ [Marker.mk id _]).map (·.id)
          rw [h.stale, List.map_append]
          rfl
        · show l.live - 1 = (t.objects.erase id).length
          rw [h.live]
          omega
      exact .inr ⟨o, _, _, rfl, Table.remove_eq_ok_iff.2 ⟨hslot, rfl⟩,
        hburied.expire (Table.tidy_bury ht.tidy hslot _)⟩

theorem acknowledge (h : Records l t) (htidy : t.Tidy) (id : ObjectId) :
    (l.acknowledge id).1 = (t.acknowledge id).1 ∧
      Records (l.acknowledge id).2 (t.acknowledge id).2 := by
  unfold Ledger.acknowledge Table.acknowledge
  rw [h.slot id]
  cases hslot : t.slot id with
  | none => exact ⟨rfl, h⟩
  | some state =>
    cases state with
    | live o => exact ⟨rfl, h⟩
    | stale acked =>
      cases acked with
      | true => exact ⟨rfl, h⟩
      | false =>
        have hreleased :
            Records { l with slots := l.slots.insert id (.stale true) } (t.released id) := by
          refine ⟨fun other => ?_, ?_, h.live, h.capacity, h.nextServer, h.nextGeneration⟩
          · rw [Table.slot_released]
            by_cases hother : other = id
            · subst hother
              rw [hslot]
              dsimp only
              rw [beq_self_eq_true, Bool.or_true]
              exact AList.lookup_insert l.slots
            · rw [AList.lookup_insert_ne hother, h.slot other]
              split
              · rename_i acked hstale
                rw [hstale, beq_false_of_ne hother, Bool.or_false]
              · rfl
          · show l.stale = (Marker.acknowledge id t.markers).map (·.id)
            rw [Marker.ids_acknowledge, h.stale]
        exact ⟨rfl, hreleased.expire (Table.tidy_released htidy id)⟩

/-- The live objects of the ledger are those of the table. -/
theorem mem_liveEntries_iff (h : Records l t) (hascending : t.objects.Ascending)
    (e : ObjectId × Object α) : e ∈ l.slots.entries.filterMap Ledger.liveEntry? ↔ e ∈ t.objects := by
  obtain ⟨id, o⟩ := e
  have hentry : (⟨id, .live o⟩ : Sigma fun _ : ObjectId => Slot α) ∈ l.slots.entries ↔
      (id, o) ∈ t.objects := by
    rw [← AList.mem_lookup_iff, Option.mem_def, h.slot, Table.slot_eq_live_iff]
    exact ⟨Directory.mem_of_get?, Directory.get?_of_mem hascending⟩
  rw [← hentry, List.mem_filterMap]
  constructor
  · rintro ⟨⟨k, state⟩, hmem, hlive⟩
    cases state with
    | live p =>
      injection hlive with hlive
      injection hlive with hk hp
      subst hk hp
      exact hmem
    | stale acked => cases hlive
  · intro hmem
    exact ⟨_, hmem, rfl⟩

/-- No live object is listed twice. -/
theorem nodup_liveEntries (l : Ledger α) : (l.slots.entries.filterMap Ledger.liveEntry?).Nodup := by
  have hkeys : (l.slots.entries.map Sigma.fst).Nodup := l.slots.keys_nodup
  refine (List.Nodup.of_map _ hkeys).filterMap ?_
  rintro ⟨k, state⟩ ⟨k', state'⟩ e he he'
  cases state with
  | stale acked => cases he
  | live o =>
    cases state' with
    | stale acked => cases he'
    | live o' =>
      injection he with he
      injection he' with he'
      rw [← he'] at he
      injection he with hk ho
      subst hk ho
      rfl

/-- The live objects are sorted by their ids. -/
theorem pairwise_objects (l : Ledger α) :
    l.objects.Pairwise fun a b => decide (b.1.toNat ≤ a.1.toNat) = true := by
  refine List.pairwise_mergeSort ?_ ?_ _
  · intro a b c hab hbc
    simp only [decide_eq_true_eq] at hab hbc ⊢
    omega
  · intro a b
    rw [Bool.or_eq_true, decide_eq_true_eq, decide_eq_true_eq]
    omega

/-- Sorting the live objects brings them into the order of the table. -/
theorem objects_eq (h : Records l t) (hascending : t.objects.Ascending) :
    l.objects = t.objects.reverse := by
  have hdistinct : t.objects.Nodup := List.Nodup.of_map _ (Directory.nodup_ids hascending)
  have hsame : (l.slots.entries.filterMap Ledger.liveEntry?).Perm t.objects :=
    (List.perm_ext_iff_of_nodup (nodup_liveEntries l) hdistinct).2 (h.mem_liveEntries_iff hascending)
  have hperm : l.objects.Perm t.objects.reverse :=
    ((List.mergeSort_perm _ _).trans hsame).trans t.objects.reverse_perm.symm
  have hdescending : t.objects.reverse.Pairwise fun a b => decide (b.1.toNat ≤ a.1.toNat) = true := by
    rw [List.pairwise_reverse]
    exact hascending.imp fun hlt => decide_eq_true (Nat.le_of_lt hlt)
  refine List.Perm.eq_of_pairwise ?_ (pairwise_objects l) hdescending hperm
  -- two objects of the table with one id are the same
  intro a b ha hb hle hge
  have ha' := Directory.get?_of_mem hascending (List.mem_reverse.1 (hperm.mem_iff.1 ha))
  have hb' := Directory.get?_of_mem hascending (List.mem_reverse.1 hb)
  have hid : a.1 = b.1 := Wire.ObjectId.toNat_inj.1 (Nat.le_antisymm
    (of_decide_eq_true hge) (of_decide_eq_true hle))
  rw [hid, hb'] at ha'
  injection ha' with ha'
  exact Prod.ext hid ha'.symm

theorem drain (h : Records l t) (hascending : t.objects.Ascending) :
    l.drain.1 = t.drain.1 ∧ Records l.drain.2 t.drain.2 :=
  ⟨h.objects_eq hascending, fun _ => rfl, rfl, rfl, h.capacity, h.nextServer, h.nextGeneration⟩

/-- An operation gives the same answer on both. -/
theorem change (h : Records l t) (ht : t.Consistent) (c : Change α) :
    (l.change c).1 = (t.change c).1 ∧ Records (l.change c).2 (t.change c).2 := by
  cases c with
  | insert side id o => exact h.settle .handle (h.insert ht.tidy side id o)
  | allocate o => exact h.settle .handle (h.allocate ht.tidy o)
  | modify id f => exact ⟨congrArg Answer.object (h.get id), h.modify ht.ascending id f⟩
  | remove id => exact h.settle .object (h.remove ht.toSound id)
  | acknowledge id =>
    obtain ⟨hanswer, hrecords⟩ := h.acknowledge ht.tidy id
    exact ⟨congrArg Answer.awaited hanswer, hrecords⟩
  | drain =>
    obtain ⟨hanswer, hrecords⟩ := h.drain ht.ascending
    exact ⟨congrArg Answer.objects hanswer, hrecords⟩

end Records

/-! ## What is kept -/

/-- Operations one after the other give the same answers on both. -/
theorem Records.changeAll (cs : List (Change α)) : ∀ {l : Ledger α} {t : Table α}, Records l t →
    t.Consistent → (l.changeAll cs).1 = (t.changeAll cs).1 ∧
      Records (l.changeAll cs).2 (t.changeAll cs).2 := by
  induction cs with
  | nil =>
    intro l t h _
    exact ⟨rfl, h⟩
  | cons c cs ih =>
    intro l t h ht
    obtain ⟨hanswer, hnext⟩ := h.change ht c
    obtain ⟨hanswers, hlast⟩ := ih hnext (ht.change c)
    exact ⟨congrArg₂ List.cons hanswer hanswers, hlast⟩

/-- The books of a table: the slot of each id, the queue of stale ids, the counts.  They agree, and bound
each other. -/
structure Kept (slot : ObjectId → Option (Slot α)) (stale : List ObjectId)
    (live capacity nextServer : Nat) : Prop where
  /-- The count of live objects is the number of ids with a live slot. -/
  live_eq : live = {id | ∃ o, slot id = some (.live o)}.ncard
  stale_nodup : stale.Nodup
  /-- The queue lists the ids whose slot is a marker. -/
  mem_stale_iff : ∀ id, id ∈ stale ↔ ∃ acked, slot id = some (.stale acked)
  waiting_client : ∀ id, slot id = some (.stale false) → id.side = .client
  server_lt : ∀ id, id.side = .server → slot id ≠ none → id.toNat < nextServer
  nextServer_le : nextServer ≤ 2 ^ 32
  /-- There are more markers than the capacity only if all of them wait. -/
  stale_le : stale.length ≤ max capacity {id | slot id = some (.stale false)}.ncard

/-- The books of a consistent table. -/
theorem Table.Consistent.kept {t : Table α} (h : t.Consistent) :
    Kept t.slot (t.markers.map (·.id)) t.size t.capacity t.nextServer := by
  have hids : t.ids.Nodup := Directory.nodup_ids h.ascending
  refine ⟨?_, h.tidy.nodup, ?_, h.waiting_client, h.server_lt, h.nextServer_le, ?_⟩
  · have hset : {id | ∃ o, t.slot id = some (.live o)} = (t.ids.toFinset : Set ObjectId) := by
      ext id
      rw [Set.mem_ofPred_eq, Finset.mem_coe, List.mem_toFinset]
      constructor
      · rintro ⟨o, ho⟩
        exact List.mem_map.2 ⟨_, Directory.mem_of_get? (Table.slot_eq_live_iff.1 ho), rfl⟩
      · intro hid
        obtain ⟨e, he, rfl⟩ := List.mem_map.1 hid
        exact ⟨e.2, Table.slot_eq_live_iff.2 (Directory.get?_of_mem h.ascending he)⟩
    rw [hset, Set.ncard_coe_finset, List.toFinset_card_of_nodup hids]
    exact (List.length_map ..).symm
  · intro id
    rw [List.mem_map]
    constructor
    · rintro ⟨m, hm, rfl⟩
      exact ⟨m.acked, (Table.slot_eq_stale_iff h.tidy).2 hm⟩
    · rintro ⟨acked, hstale⟩
      exact ⟨_, (Table.slot_eq_stale_iff h.tidy).1 hstale, rfl⟩
  · have hset : {id | t.slot id = some (.stale false)} =
        (((t.markers.filter (! ·.acked)).map (·.id)).toFinset : Set ObjectId) := by
      ext id
      rw [Set.mem_ofPred_eq, Finset.mem_coe, List.mem_toFinset, List.mem_map,
        Table.slot_eq_stale_iff h.tidy]
      constructor
      · intro hm
        exact ⟨_, List.mem_filter.2 ⟨hm, rfl⟩, rfl⟩
      · rintro ⟨⟨k, acked⟩, hm, rfl⟩
        obtain ⟨hm, hacked⟩ := List.mem_filter.1 hm
        cases acked with
        | false => exact hm
        | true => cases hacked
    have hnodup : ((t.markers.filter (! ·.acked)).map (·.id)).Nodup :=
      h.tidy.nodup.sublist (List.filter_sublist.map _)
    rw [hset, Set.ncard_coe_finset, List.toFinset_card_of_nodup hnodup, List.length_map, List.length_map,
      ← List.countP_eq_length_filter]
    exact h.bounded

/-- Whatever is done to a table of any capacity, its books are kept.  So are those of the ledger that
holds each of them in a field of its own, whose answers are those of the table.  The generations of the live
objects at any ids are below the counter and different from each other, if no write has changed them. -/
theorem kept_of_changes (capacity : Nat) (cs : List (Change α)) :
    let t := (Table.empty capacity).changeAll cs
    let l := (Ledger.empty capacity).changeAll cs
    Kept t.2.slot (t.2.markers.map (·.id)) t.2.size t.2.capacity t.2.nextServer ∧
      Kept l.2.slots.lookup l.2.stale l.2.live l.2.capacity l.2.nextServer ∧
        l.1 = t.1 ∧ Records l.2 t.2 ∧
          ∀ ids : Set ObjectId, (∀ h : Handle, h.id ∈ ids → (Table.empty capacity).RespectsAll h cs) →
            Stamped ids t.2.slot t.2.nextGeneration ∧
              Stamped ids l.2.slots.lookup l.2.nextGeneration := by
  intro t l
  have hconsistent : t.2.Consistent := (Table.consistent_empty capacity).changeAll cs
  obtain ⟨hanswers, hrecords⟩ : l.1 = t.1 ∧ Records l.2 t.2 :=
    (Records.empty capacity).changeAll cs (Table.consistent_empty capacity)
  have hslots : l.2.slots.lookup = t.2.slot := funext hrecords.slot
  have hkept := hconsistent.kept
  refine ⟨hkept, ?_, hanswers, hrecords, fun ids hrespects => ?_⟩
  · rw [hslots, hrecords.stale, hrecords.live, hrecords.capacity, hrecords.nextServer]
    exact hkept
  · have hstamped := (Stamped.empty capacity).changeAll cs hrespects
    rw [hslots, hrecords.nextGeneration]
    exact ⟨hstamped, hstamped⟩

/-! ### Objects that are written to -/

def originalId : ObjectId := ⟨24, by decide⟩

def doubleId : ObjectId := ⟨25, by decide⟩

/-- A callback that no table has stamped. -/
def unstamped : Object Unit := { interface := Protocol.Core.callback, version := 1 }

/-- Two callbacks. -/
def pairing : List (Change Unit) := [.insert .client originalId unstamped, .insert .client doubleId unstamped]

/-- An implementation for both of them leaves their generations alone. -/
theorem kept_of_changes_sample :
    let cs := pairing ++ [originalId, doubleId].map fun id =>
      .modify id fun o => { o with implementation := some () }
    (∀ h : Handle, h.id ∈ Set.univ → (Table.empty 4).RespectsAll h cs) ∧
      Stamped Set.univ ((Table.empty 4).changeAll cs).2.slot ((Table.empty 4).changeAll cs).2.nextGeneration := by
  intro cs
  have hrespects : ∀ h : Handle, h.id ∈ Set.univ → (Table.empty 4).RespectsAll h cs := fun _ _ =>
    ⟨trivial, trivial, fun _ _ _ => Iff.rfl, fun _ _ _ => Iff.rfl, trivial⟩
  exact ⟨hrespects, ((kept_of_changes 4 cs).2.2.2.2 Set.univ hrespects).1⟩

/-- Each of them is replaced by one that is not stamped. -/
def doubling : List (Change Unit) := pairing ++ [.assign originalId unstamped, .assign doubleId unstamped]

/-- Then there are two live objects with one generation, in the table and in the ledger. -/
theorem not_stamped_of_assigned_sample :
    let t := ((Table.empty 4).changeAll doubling).2
    let l := ((Ledger.empty 4).changeAll doubling).2
    t.slot originalId = some (.live unstamped) ∧ t.slot doubleId = some (.live unstamped) ∧
      ¬ Stamped Set.univ t.slot t.nextGeneration ∧ ¬ Stamped Set.univ l.slots.lookup l.nextGeneration := by
  intro t l
  have horiginal : t.slot originalId = some (.live unstamped) := rfl
  have hdouble : t.slot doubleId = some (.live unstamped) := rfl
  have hnot : ∀ nextGeneration, ¬ Stamped Set.univ t.slot nextGeneration := by
    intro nextGeneration hstamped
    have heq : originalId = doubleId :=
      hstamped.generation_inj _ trivial _ trivial _ _ horiginal hdouble rfl
    exact absurd heq (by decide)
  have hslots : l.slots.lookup = t.slot :=
    funext ((Records.empty 4).changeAll doubling (Table.consistent_empty 4)).2.slot
  exact ⟨horiginal, hdouble, hnot _, hslots ▸ hnot _⟩

end

end Compositor.Objects
