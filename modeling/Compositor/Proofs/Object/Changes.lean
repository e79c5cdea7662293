import Compositor.Proofs.Object.Consistency

/-
  Operations on a table, as data.

  `Change` is one operation; `Table.change` does it, and `Table.changeAll` does one after the other.  Whoever
  looks up a live object for writing can do with it what he likes, and assign another to it whole
  (`Change.assign`), with the generation that this one has.  A table stays consistent all the same, whatever is
  done to it (`Table.Consistent.changeAll`).

  An operation inserts an object and answers with its handle (`Table.Places`), or it inserts none
  (`Table.Quiet`): then it takes some objects, writes to others, and leaves the counters alone.
  `Table.change_cases` says that there is no third case, and what else is to be known of an operation goes by
  these two.  In particular a live object stays at its id, changed as it may be, until its id is taken
  (`Table.get?_changeAll`).
-/

namespace Compositor.Objects

open Compositor.Wire (ObjectId Side)

/-! ## Changes -/

/-- An operation on a table. -/
inductive Change (α : Type) where
  | insert (side : Side) (id : ObjectId) (object : Object α)
  | allocate (object : Object α)
  /-- A live object is looked up and written to; its generation is a part of it like any other. -/
  | modify (id : ObjectId) (f : Object α → Object α)
  | remove (id : ObjectId)
  | acknowledge (id : ObjectId)
  | drain

/-- What an operation answers. -/
inductive Answer (α : Type) where
  | handle (result : Except TableError Handle)
  | object (result : Except TableError (Object α))
  | awaited (was : Bool)
  | objects (all : List (ObjectId × Object α))

/-- The answer of an operation that can be refused, and what it works on afterwards. -/
def settle {α β σ : Type} (answer : Except TableError β → Answer α) (s : σ) :
    Except TableError (β × σ) → Answer α × σ
  | .ok (result, s) => (answer (.ok result), s)
  | .error e => (answer (.error e), s)

section
variable {α : Type}

/-- A live object is replaced by another, which is not stamped. -/
def Change.assign (id : ObjectId) (object : Object α) : Change α := .modify id fun _ => object

/-- Does an operation on a table. -/
def Table.change (t : Table α) : Change α → Answer α × Table α
  | .insert side id object => settle .handle t (t.insert side id object)
  | .allocate object => settle .handle t (t.allocate object)
  | .modify id f => (.object (t.get id), t.modify id f)
  | .remove id => settle .object t (t.remove id)
  | .acknowledge id => (.awaited (t.acknowledge id).1, (t.acknowledge id).2)
  | .drain => (.objects t.drain.1, t.drain.2)

/-- Does operations on a table, one after the other. -/
def Table.changeAll (t : Table α) : List (Change α) → List (Answer α) × Table α
  | [] => ([], t)
  | c :: cs => ((t.change c).1 :: ((t.change c).2.changeAll cs).1, ((t.change c).2.changeAll cs).2)

/-! ### What they do to objects -/

/-- The object that an operation inserts, if it inserts one. -/
def Change.inserted? : Change α → Option (Object α)
  | .insert _ _ o => some o
  | .allocate o => some o
  | _ => none

/-- What an operation makes of a live object at an id, unless it takes it. -/
def Change.alter (id : ObjectId) : Change α → Object α → Object α
  | .modify other f, o => if other = id then f o else o
  | _, o => o

/-- What operations make of a live object at an id, in order. -/
def Change.alterAll (id : ObjectId) (cs : List (Change α)) (o : Object α) : Object α :=
  cs.foldl (fun o c => c.alter id o) o

/-- The ids of the objects that an operation takes: it removes or drains them. -/
def Table.taken (t : Table α) : Change α → List ObjectId
  | .remove id =>
    match t.remove id with
    | .ok _ => [id]
    | .error _ => []
  | .drain => t.drain.1.map (·.1)
  | _ => []

/-- The ids of the objects that operations take, one after the other. -/
def Table.takenAll (t : Table α) : List (Change α) → List ObjectId
  | [] => []
  | c :: cs => t.taken c ++ (t.change c).2.takenAll cs

/-- The handle that an operation hands out, if it inserts an object. -/
def Table.issued (t : Table α) (c : Change α) : List Handle :=
  match (t.change c).1 with
  | .handle (.ok h) => [h]
  | _ => []

/-- An operation that inserts an object, under an id of its own choice or the next server id. -/
structure Table.Places (t : Table α) (c : Change α) (side : Side) (h : Handle) : Prop where
  issued_eq : t.issued c = [h]
  taken_eq : t.taken c = []
  alter_eq : ∀ id o, c.alter id o = o
  insert_eq : ∃ o, c.inserted? = some o ∧ t.insert side h.id o = .ok (h, (t.change c).2)
  chosen : (∃ o, c = .insert side h.id o) ∨ side = .server ∧ h.id.toNat = t.nextServer

/-- An operation that inserts nothing.  It leaves the counters alone, and has no marker where none was but for
what it takes. -/
structure Table.Quiet (t : Table α) (c : Change α) : Prop where
  issued_eq : t.issued c = []
  nextServer_eq : (t.change c).2.nextServer = t.nextServer
  nextGeneration_eq : (t.change c).2.nextGeneration = t.nextGeneration
  /-- What is not taken is still there, changed as it may be. -/
  get?_eq : ∀ id, (t.change c).2.objects.get? id =
    if id ∈ t.taken c then none else (t.objects.get? id).map (c.alter id)
  marked : ∀ m ∈ (t.change c).2.markers, (∃ m' ∈ t.markers, m'.id = m.id) ∨ m.id ∈ t.taken c

end

namespace Table

section
variable {α : Type} {t : Table α}

theorem changeAll_append (cs cs' : List (Change α)) : ∀ {t : Table α},
    (t.changeAll (cs ++ cs')).2 = ((t.changeAll cs).2.changeAll cs').2 := by
  induction cs with
  | nil => exact rfl
  | cons c cs ih => exact ih

theorem takenAll_append (cs cs' : List (Change α)) : ∀ {t : Table α},
    t.takenAll (cs ++ cs') = t.takenAll cs ++ (t.changeAll cs).2.takenAll cs' := by
  induction cs with
  | nil => exact rfl
  | cons c cs ih =>
    intro t
    show t.taken c ++ (t.change c).2.takenAll (cs ++ cs') = _
    rw [ih, ← List.append_assoc]
    rfl

/-! ## Insertions -/

/-- An object under the next server id is inserted at that id. -/
theorem insert_of_allocate {t' : Table α} {o : Object α} {h : Handle} (ha : t.allocate o = .ok (h, t')) :
    t.insert .server h.id o = .ok (h, t') := by
  unfold allocate at ha
  split at ha
  · split at ha
    · rename_i id _
      have hid : h.id = id := congrArg Handle.id (nextGeneration_insert ha).1
      rw [hid]
      exact ha
    · cases ha
  · cases ha

/-- The next server id is taken as it is. -/
theorem toNat_of_allocate {t' : Table α} {o : Object α} {h : Handle} (ha : t.allocate o = .ok (h, t')) :
    h.id.toNat = t.nextServer := by
  unfold allocate at ha
  split at ha
  · rename_i hlt
    split at ha
    · rename_i id hid
      have hh : h.id = id := congrArg Handle.id (nextGeneration_insert ha).1
      have hraw : id.raw = UInt32.ofNat t.nextServer := Wire.ObjectId.ofRaw?_eq_some_iff.1 hid
      show h.id.raw.toNat = t.nextServer
      rw [hh, hraw, UInt32.toNat_ofNat', Nat.mod_eq_of_lt hlt]
    · cases ha
  · cases ha

/-! ## The two kinds of operations -/

/-- An operation that does nothing is a quiet one. -/
theorem quiet_of_same {c : Change α} (hissued : t.issued c = []) (htaken : t.taken c = [])
    (halter : ∀ id o, c.alter id o = o) (hsame : (t.change c).2 = t) : t.Quiet c := by
  refine ⟨hissued, congrArg nextServer hsame, congrArg nextGeneration hsame, fun id => ?_, fun m hm => ?_⟩
  · rw [hsame, htaken, if_neg List.not_mem_nil, funext (halter id)]
    exact (Option.map_id' ..).symm
  · rw [hsame] at hm
    exact .inl ⟨m, hm, rfl⟩

theorem quiet_modify (id : ObjectId) (f : Object α → Object α) : t.Quiet (.modify id f) := by
  obtain ⟨hserver, hmarkers, -⟩ := modify_keeps t id f
  refine ⟨rfl, hserver, nextGeneration_modify t id f, fun other => ?_, fun m hm => .inl ⟨m, ?_, rfl⟩⟩
  · show (t.modify id f).objects.get? other = (t.objects.get? other).map fun o => if id = other then f o else o
    rw [get?_modify]
    by_cases hother : other = id
    · subst hother
      simp only [if_pos]
    · simp only [if_neg hother, if_neg (Ne.symm hother), Option.map_id']
  · rw [← hmarkers]
    exact hm

theorem quiet_remove (id : ObjectId) : t.Quiet (.remove id) := by
  cases hr : t.remove id with
  | error e =>
    refine quiet_of_same ?_ ?_ (fun _ _ => rfl) ?_
    · simp only [issued, change, settle, hr]
    · simp only [taken, hr]
    · simp only [change, settle, hr]
  | ok r =>
    obtain ⟨o, t'⟩ := r
    obtain ⟨-, ht'⟩ := remove_eq_ok_iff.1 hr
    have hchange : (t.change (.remove id)).2 = t' := by simp only [change, settle, hr]
    have htaken : t.taken (.remove id) = [id] := by simp only [taken, hr]
    refine ⟨?_, ?_, ?_, fun other => ?_, fun m hm => ?_⟩
    · simp only [issued, change, settle, hr]
    · rw [hchange, ht']
      rfl
    · rw [hchange, ht']
      rfl
    · rw [hchange, htaken, (objects_remove hr).2.1, Directory.get?_erase]
      simp only [List.mem_singleton]
      congr 1
      exact (Option.map_id' ..).symm
    · rw [hchange, ht'] at hm
      rcases List.mem_append.1 ((Marker.expire_sublist _ _).subset hm) with hm | hm
      · exact .inl ⟨m, hm, rfl⟩
      · rw [htaken, List.mem_singleton.1 hm]
        exact .inr (List.mem_singleton.2 rfl)

theorem quiet_acknowledge (id : ObjectId) : t.Quiet (.acknowledge id) := by
  by_cases hwaits : ∃ acked, t.slot id = some (.stale acked) ∧ acked = false
  · obtain ⟨_, hslot, rfl⟩ := hwaits
    have hchange : (t.change (.acknowledge id)).2 = (t.released id).expire := by
      show (t.acknowledge id).2 = _
      simp only [acknowledge, hslot, released]
    refine ⟨rfl, by rw [hchange]; rfl, by rw [hchange]; rfl, fun other => ?_, fun m hm => ?_⟩
    · rw [hchange]
      exact (Option.map_id' ..).symm
    · rw [hchange] at hm
      have hmem : m.id ∈ (Marker.acknowledge id t.markers).map (·.id) :=
        List.mem_map_of_mem ((Marker.expire_sublist _ _).subset hm)
      rw [Marker.ids_acknowledge] at hmem
      exact .inl (List.mem_map.1 hmem)
  · refine quiet_of_same rfl rfl (fun _ _ => rfl) ?_
    show (t.acknowledge id).2 = t
    unfold acknowledge
    split
    · rename_i hslot
      exact absurd ⟨_, hslot, rfl⟩ hwaits
    · rfl

/-- Nothing is left, and what is not taken was not there. -/
theorem quiet_drain : t.Quiet .drain := by
  refine ⟨rfl, rfl, rfl, fun id => ?_, fun m hm => absurd hm List.not_mem_nil⟩
  split
  · rfl
  · rename_i hnot
    cases hlive : t.objects.get? id with
    | none => rfl
    | some o =>
      have hmem : (id, o) ∈ t.drain.1 := List.mem_reverse.2 (Directory.mem_of_get? hlive)
      exact absurd (List.mem_map_of_mem hmem) hnot

/-- An operation inserts an object, or is a quiet one. -/
theorem change_cases (c : Change α) : t.Quiet c ∨ ∃ side h, t.Places c side h := by
  cases c with
  | insert side id o =>
    cases hi : t.insert side id o with
    | error e =>
      refine .inl (quiet_of_same ?_ rfl (fun _ _ => rfl) ?_)
      · simp only [issued, change, settle, hi]
      · simp only [change, settle, hi]
    | ok r =>
      obtain ⟨h, t'⟩ := r
      have hid : h.id = id := congrArg Handle.id (nextGeneration_insert hi).1
      subst hid
      have hchange : t.change (.insert side h.id o) = (.handle (.ok h), t') := by
        simp only [change, settle, hi]
      refine .inr ⟨side, h, ?_, rfl, fun _ _ => rfl, ⟨o, rfl, ?_⟩, .inl ⟨o, rfl⟩⟩
      · simp only [issued, hchange]
      · rw [hchange, hi]
  | allocate o =>
    cases ha : t.allocate o with
    | error e =>
      refine .inl (quiet_of_same ?_ rfl (fun _ _ => rfl) ?_)
      · simp only [issued, change, settle, ha]
      · simp only [change, settle, ha]
    | ok r =>
      obtain ⟨h, t'⟩ := r
      have hchange : t.change (.allocate o) = (.handle (.ok h), t') := by
        simp only [change, settle, ha]
      refine .inr ⟨.server, h, ?_, rfl, fun _ _ => rfl, ⟨o, rfl, ?_⟩, .inr ⟨rfl, toNat_of_allocate ha⟩⟩
      · simp only [issued, hchange]
      · rw [hchange]
        exact insert_of_allocate ha
  | modify id f => exact .inl (quiet_modify id f)
  | remove id => exact .inl (quiet_remove id)
  | acknowledge id => exact .inl (quiet_acknowledge id)
  | drain => exact .inl quiet_drain

/-- An operation that is answered with a handle inserts its object at the id of that handle. -/
theorem insert_of_change {c : Change α} {h : Handle} (hanswer : (t.change c).1 = .handle (.ok h)) :
    ∃ o side, c.inserted? = some o ∧ t.insert side h.id o = .ok (h, (t.change c).2) := by
  have hissued : t.issued c = [h] := by
    unfold issued
    rw [hanswer]
  rcases t.change_cases c with hc | ⟨side, k, hc⟩
  · rw [hc.issued_eq] at hissued
    cases hissued
  · rw [hc.issued_eq] at hissued
    injection hissued with hk
    subst hk
    obtain ⟨o, ho, hi⟩ := hc.insert_eq
    exact ⟨o, side, ho, hi⟩

/-! ## Consistency -/

/-- An operation leaves a consistent table. -/
theorem Consistent.change (ht : t.Consistent) (c : Change α) : (t.change c).2.Consistent := by
  cases c with
  | insert side id o =>
    show (settle .handle t (t.insert side id o)).2.Consistent
    cases hi : t.insert side id o with
    | error e => exact ht
    | ok p => exact ht.insert hi
  | allocate o =>
    show (settle .handle t (t.allocate o)).2.Consistent
    cases ha : t.allocate o with
    | error e => exact ht
    | ok p => exact ht.allocate ha
  | modify id f => exact ht.modify id f
  | remove id =>
    show (settle .object t (t.remove id)).2.Consistent
    cases hr : t.remove id with
    | error e => exact ht
    | ok p => exact ht.remove hr
  | acknowledge id => exact ht.acknowledge id
  | drain => exact ht.drain

theorem Consistent.changeAll (cs : List (Change α)) : ∀ {t : Table α}, t.Consistent →
    (t.changeAll cs).2.Consistent := by
  induction cs with
  | nil =>
    intro t ht
    exact ht
  | cons c cs ih =>
    intro t ht
    exact ih (ht.change c)

/-! ## Live objects -/

variable {c : Change α} {id : ObjectId}

/-- What an operation takes has been live. -/
theorem exists_of_mem_taken (hascending : t.objects.Ascending) (htaken : id ∈ t.taken c) :
    ∃ o, t.objects.get? id = some o := by
  cases c with
  | remove other =>
    unfold taken at htaken
    dsimp only at htaken
    split at htaken
    · rename_i r hr
      rw [List.mem_singleton.1 htaken]
      exact ⟨r.1, (objects_remove hr).1⟩
    · cases htaken
  | drain =>
    obtain ⟨e, he, rfl⟩ := List.mem_map.1 htaken
    exact ⟨e.2, Directory.get?_of_mem hascending (List.mem_reverse.1 he)⟩
  | insert side other o => cases htaken
  | allocate o => cases htaken
  | modify other f => cases htaken
  | acknowledge other => cases htaken

/-- Nothing is left of it. -/
theorem get?_of_mem_taken (htaken : id ∈ t.taken c) : (t.change c).2.objects.get? id = none := by
  rcases t.change_cases c with hc | ⟨side, h, hc⟩
  · rw [hc.get?_eq, if_pos htaken]
  · rw [hc.taken_eq] at htaken
    cases htaken

/-- An operation that does not take a live object leaves it at its id, changed as it may be. -/
theorem get?_change {o : Object α} (hlive : t.objects.get? id = some o) (hnot : id ∉ t.taken c) :
    (t.change c).2.objects.get? id = some (c.alter id o) := by
  rcases t.change_cases c with hc | ⟨side, h, hc⟩
  · rw [hc.get?_eq, if_neg hnot, hlive, Option.map_some]
  · -- no object is inserted at an id that is live
    obtain ⟨p, -, hi⟩ := hc.insert_eq
    rw [objects_insert hi, Directory.get?_put, if_neg, hlive, hc.alter_eq]
    rintro rfl
    cases hlive.symm.trans (get?_of_insert hi)

/-- So do any number of operations. -/
theorem get?_changeAll (cs : List (Change α)) : ∀ {t : Table α} {o : Object α},
    t.objects.get? id = some o → id ∉ t.takenAll cs →
      (t.changeAll cs).2.objects.get? id = some (Change.alterAll id cs o) := by
  induction cs with
  | nil =>
    intro t o hlive _
    exact hlive
  | cons c cs ih =>
    intro t o hlive hnot
    obtain ⟨hnow, hlater⟩ := not_or.1 (mt List.mem_append.2 hnot)
    exact ih (get?_change hlive hnow) hlater

end

end Table

end Compositor.Objects
