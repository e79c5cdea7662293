import Compositor.Proofs.Object.Slots

/-
  What the operations of the table do to the objects behind handles.

  Behind a handle is the object at its id, if that has its generation.  `behind_insert`, `behind_modify` and
  `behind_remove` say what each operation does to the object behind a given handle.

  A directory is ascending when its ids are (`Directory.Ascending`), and every operation keeps it so.  An
  ascending directory has one entry for each live id, and `Directory.exists_split` takes it apart around
  that entry: what comes before it and what comes after it is about other ids.
-/

namespace Compositor.Objects

open Compositor.Wire (ObjectId Side)

/-! ## Ascending directories -/

namespace Directory

variable {α : Type}

/-- The ids are in ascending order, each of them once. -/
def Ascending (d : Directory α) : Prop := d.Pairwise fun a b => a.1.toNat < b.1.toNat

/-- No id is there twice. -/
theorem nodup_ids {d : Directory α} (h : d.Ascending) : (d.map (·.1)).Nodup := by
  rw [List.Nodup, List.pairwise_map]
  exact h.imp fun hlt heq => by
    rw [heq] at hlt
    exact Nat.lt_irrefl _ hlt

theorem mem_of_mem_put {id : ObjectId} {o : Object α} {e : ObjectId × Object α} {d : Directory α}
    (h : e ∈ put id o d) : e = (id, o) ∨ e ∈ d := by
  induction d with
  | nil => exact .inl (List.mem_singleton.1 h)
  | cons f rest ih =>
    obtain ⟨k, p⟩ := f
    unfold put at h
    split at h
    · rcases List.mem_cons.1 h with h | h
      · exact .inl h
      · exact .inr (List.mem_cons_of_mem _ h)
    · split at h
      · rcases List.mem_cons.1 h with h | h
        · exact .inl h
        · exact .inr h
      · rcases List.mem_cons.1 h with h | h
        · exact .inr (h ▸ List.mem_cons_self ..)
        · rcases ih h with h | h
          · exact .inl h
          · exact .inr (List.mem_cons_of_mem _ h)

theorem ascending_put {d : Directory α} (h : d.Ascending) (id : ObjectId) (o : Object α) :
    (d.put id o).Ascending := by
  induction d with
  | nil => exact List.pairwise_singleton _ _
  | cons f rest ih =>
    obtain ⟨k, p⟩ := f
    obtain ⟨hfirst, hrest⟩ := List.pairwise_cons.1 h
    unfold put
    split
    · rename_i heq
      subst heq
      exact List.pairwise_cons.2 ⟨hfirst, hrest⟩
    · rename_i hne
      split
      · -- the new entry comes first, and below all that the first one was below of
        rename_i hlt
        refine List.pairwise_cons.2 ⟨fun e he => ?_, h⟩
        rcases List.mem_cons.1 he with rfl | he
        · exact hlt
        · exact Nat.lt_trans hlt (hfirst e he)
      · rename_i hle
        have hne' : k.toNat ≠ id.toNat := fun heq => hne (ObjectId.toNat_inj.1 heq)
        refine List.pairwise_cons.2 ⟨fun e he => ?_, ih hrest⟩
        rcases mem_of_mem_put he with rfl | he
        · show k.toNat < id.toNat
          omega
        · exact hfirst e he

theorem erase_sublist (id : ObjectId) (d : Directory α) : (d.erase id).Sublist d := by
  induction d with
  | nil => exact List.Sublist.refl _
  | cons f rest ih =>
    obtain ⟨k, p⟩ := f
    unfold erase
    split
    · exact ih.cons _
    · exact ih.cons_cons _

theorem ascending_erase {d : Directory α} (h : d.Ascending) (id : ObjectId) :
    (d.erase id).Ascending := h.sublist (erase_sublist id d)

/-- The entry of a live id, and the entries around it. -/
theorem exists_split {d : Directory α} (h : d.Ascending) {id : ObjectId} {o : Object α}
    (hget : d.get? id = some o) :
    ∃ before after, d = before ++ (id, o) :: after ∧ ∀ e ∈ before ++ after, e.1 ≠ id := by
  induction d with
  | nil => nomatch hget
  | cons f rest ih =>
    obtain ⟨k, p⟩ := f
    obtain ⟨hfirst, hrest⟩ := List.pairwise_cons.1 h
    unfold get? at hget
    split at hget
    · rename_i heq
      subst heq
      injection hget with hget
      subst hget
      refine ⟨[], rest, rfl, fun e he heq => ?_⟩
      have hlt := hfirst e he
      rw [heq] at hlt
      exact Nat.lt_irrefl _ hlt
    · rename_i hne
      obtain ⟨before, after, heq, hothers⟩ := ih hrest hget
      refine ⟨(k, p) :: before, after, ?_, fun e he => ?_⟩
      · rw [heq]
        rfl
      · rcases List.mem_cons.1 he with rfl | he
        · exact hne
        · exact hothers e he

/-- What an id stands for is an entry. -/
theorem mem_of_get? {d : Directory α} {id : ObjectId} {o : Object α} (hget : d.get? id = some o) :
    (id, o) ∈ d := by
  induction d with
  | nil => nomatch hget
  | cons f rest ih =>
    unfold get? at hget
    split at hget
    · rename_i heq
      injection hget with hget
      rw [← heq, ← hget]
      exact List.mem_cons_self ..
    · exact List.mem_cons_of_mem _ (ih hget)

/-- Every entry is what its id stands for. -/
theorem get?_of_mem {d : Directory α} (h : d.Ascending) {e : ObjectId × Object α} (he : e ∈ d) :
    d.get? e.1 = some e.2 := by
  induction d with
  | nil => nomatch he
  | cons f rest ih =>
    obtain ⟨hfirst, hrest⟩ := List.pairwise_cons.1 h
    unfold get?
    rcases List.mem_cons.1 he with rfl | he
    · exact if_pos rfl
    · rw [if_neg fun heq => ?_]
      · exact ih hrest he
      · have hlt := hfirst e he
        rw [heq] at hlt
        exact Nat.lt_irrefl _ hlt

/-- What comes after an entry is above it. -/
theorem lt_of_get? {k id : ObjectId} {o p : Object α} {rest : Directory α}
    (h : Ascending ((k, p) :: rest)) (hget : rest.get? id = some o) : k.toNat < id.toNat := by
  obtain ⟨hfirst, hrest⟩ := List.pairwise_cons.1 h
  obtain ⟨before, after, heq, -⟩ := exists_split hrest hget
  have hmem : (id, o) ∈ rest := by
    rw [heq]
    exact List.mem_append_right _ (List.mem_cons_self ..)
  exact hfirst (id, o) hmem

/-- An object at a new id is one more. -/
theorem length_put {id : ObjectId} {o : Object α} {d : Directory α} (h : d.get? id = none) :
    (d.put id o).length = d.length + 1 := by
  induction d with
  | nil => rfl
  | cons e rest ih =>
    obtain ⟨k, p⟩ := e
    unfold get? at h
    unfold put
    split at h
    · cases h
    · rename_i hne
      rw [if_neg hne]
      split
      · rfl
      · rw [List.length_cons, ih h, List.length_cons]

/-- Another object at an id in its place leaves as many as there were. -/
theorem length_put_of_get? {id : ObjectId} {o p : Object α} {d : Directory α} (h : d.Ascending)
    (hget : d.get? id = some p) : (d.put id o).length = d.length := by
  induction d with
  | nil => cases hget
  | cons e rest ih =>
    obtain ⟨k, q⟩ := e
    unfold get? at hget
    unfold put
    split at hget
    · rename_i heq
      rw [if_pos heq]
      rfl
    · rename_i hne
      have hlt := lt_of_get? h hget
      rw [if_neg hne, if_neg (by omega), List.length_cons, ih (List.pairwise_cons.1 h).2 hget,
        List.length_cons]

theorem erase_of_get?_eq_none {id : ObjectId} {d : Directory α} (h : d.get? id = none) :
    d.erase id = d := by
  induction d with
  | nil => rfl
  | cons e rest ih =>
    obtain ⟨k, q⟩ := e
    unfold get? at h
    unfold erase
    split at h
    · cases h
    · rename_i hne
      rw [if_neg hne, ih h]

/-- Without the object of an id there is one less. -/
theorem length_erase {id : ObjectId} {o : Object α} {d : Directory α} (h : d.Ascending)
    (hget : d.get? id = some o) : (d.erase id).length + 1 = d.length := by
  induction d with
  | nil => cases hget
  | cons e rest ih =>
    obtain ⟨k, q⟩ := e
    unfold get? at hget
    unfold erase
    split at hget
    · rename_i heq
      subst heq
      have hlast : get? k rest = none := by
        cases hrest : get? k rest with
        | none => rfl
        | some p => exact absurd (lt_of_get? h hrest) (Nat.lt_irrefl _)
      rw [if_pos rfl, erase_of_get?_eq_none hlast, List.length_cons]
    · rename_i hne
      rw [if_neg hne, List.length_cons, ih (List.pairwise_cons.1 h).2 hget, List.length_cons]

end Directory

/-! ## Objects behind handles -/

namespace Table

variable {α : Type}

/-- The object behind a handle, as long as it is live. -/
def behind (t : Table α) (h : Handle) : Option (Object α) :=
  (t.objects.get? h.id).filter (·.generation == h.generation)

/-- The object behind a handle is the one at its id, if it has its generation. -/
theorem behind_eq_some_iff {t : Table α} {h : Handle} {o : Object α} :
    t.behind h = some o ↔ t.objects.get? h.id = some o ∧ o.generation = h.generation := by
  unfold behind
  rw [Option.filter_eq_some_iff, beq_iff_eq]

/-- Looking up a handle gives the object behind it. -/
theorem byHandle_eq_ok_iff {t : Table α} {h : Handle} {o : Object α} :
    t.byHandle h = .ok o ↔ t.behind h = some o := by
  rw [behind_eq_some_iff]
  unfold byHandle get
  cases t.objects.get? h.id with
  | none => exact ⟨nofun, fun hn => nomatch hn.1⟩
  | some o' =>
    dsimp only
    constructor
    · intro heq
      split at heq
      · rename_i hgen
        injection heq with heq
        subst heq
        exact ⟨rfl, hgen⟩
      · nomatch heq
    · rintro ⟨heq, hgen⟩
      injection heq with heq
      subst heq
      exact if_pos hgen

/-- A live object is behind the handle made of its id and its generation. -/
theorem behind_of_get {t : Table α} {id : ObjectId} {o : Object α} (hget : t.get id = .ok o) :
    t.behind ⟨id, o.generation⟩ = some o :=
  behind_eq_some_iff.2 ⟨get_eq_ok_iff_get?.1 hget, rfl⟩

/-! ### Insertion -/

theorem objects_insert {t t' : Table α} {side : Side} {id : ObjectId} {o : Object α} {h : Handle}
    (hi : t.insert side id o = .ok (h, t')) :
    t'.objects = t.objects.put id { o with generation := t.nextGeneration } := by
  obtain ⟨-, -, rfl⟩ := insert_eq_ok_iff.1 hi
  rfl

/-- An insertion hands out the next generation. -/
theorem nextGeneration_insert {t t' : Table α} {side : Side} {id : ObjectId} {o : Object α}
    {h : Handle} (hi : t.insert side id o = .ok (h, t')) :
    h = ⟨id, t.nextGeneration⟩ ∧ t'.nextGeneration = t.nextGeneration + 1 := by
  obtain ⟨-, rfl, rfl⟩ := insert_eq_ok_iff.1 hi
  exact ⟨rfl, rfl⟩

/-- An id that can be taken has no object. -/
theorem get?_of_insert {t t' : Table α} {side : Side} {id : ObjectId} {o : Object α} {h : Handle}
    (hi : t.insert side id o = .ok (h, t')) : t.objects.get? id = none := by
  cases hget : t.objects.get? id with
  | none => rfl
  | some o' =>
    rcases (slot_of_insert hi).2 with hslot | hslot
    · rw [slot_eq_live_iff.2 hget] at hslot
      nomatch hslot
    · rw [slot_eq_live_iff.2 hget] at hslot
      nomatch hslot

theorem ascending_insert {t t' : Table α} {side : Side} {id : ObjectId} {o : Object α} {h : Handle}
    (ht : t.objects.Ascending) (hi : t.insert side id o = .ok (h, t')) : t'.objects.Ascending := by
  rw [objects_insert hi]
  exact Directory.ascending_put ht id _

/-- An insertion puts its object behind its handle, and concerns no other. -/
theorem behind_insert {t t' : Table α} {side : Side} {id : ObjectId} {o : Object α} {h : Handle}
    (hi : t.insert side id o = .ok (h, t')) (other : Handle) : t'.behind other =
      if other = h then some { o with generation := t.nextGeneration } else t.behind other := by
  have hfree := get?_of_insert hi
  obtain ⟨rfl, -⟩ := nextGeneration_insert hi
  obtain ⟨k, g⟩ := other
  unfold behind
  rw [objects_insert hi, Directory.get?_put]
  by_cases hk : k = id
  · subst hk
    rw [if_pos rfl, hfree]
    by_cases hg : g = t.nextGeneration
    · subst hg
      rw [if_pos rfl]
      exact Option.filter_some_pos (beq_self_eq_true _)
    · rw [if_neg fun heq => hg (congrArg Handle.generation heq)]
      exact Option.filter_some_neg (by simpa using Ne.symm hg)
  · rw [if_neg hk, if_neg fun heq => hk (congrArg Handle.id heq)]

/-! ### Changes to live objects -/

theorem get?_modify (t : Table α) (id : ObjectId) (f : Object α → Object α) (other : ObjectId) :
    (t.modify id f).objects.get? other =
      if other = id then (t.objects.get? id).map f else t.objects.get? other := by
  unfold modify
  cases hget : t.objects.get? id with
  | none =>
    dsimp only
    split
    · rename_i heq
      rw [heq, hget]
      rfl
    · rfl
  | some o =>
    dsimp only
    rw [Directory.get?_put]
    rfl

theorem nextGeneration_modify (t : Table α) (id : ObjectId) (f : Object α → Object α) :
    (t.modify id f).nextGeneration = t.nextGeneration := by
  unfold modify
  split
  · rfl
  · rfl

theorem ascending_modify {t : Table α} (h : t.objects.Ascending) (id : ObjectId)
    (f : Object α → Object α) : (t.modify id f).objects.Ascending := by
  unfold modify
  split
  · exact Directory.ascending_put h id _
  · exact h

/-- A change that leaves the generation alone changes the object behind one handle, and no other. -/
theorem behind_modify {t : Table α} {id : ObjectId} {o : Object α} (hget : t.get id = .ok o)
    {f : Object α → Object α} (hf : (f o).generation = o.generation) (other : Handle) :
    (t.modify id f).behind other =
      if other = ⟨id, o.generation⟩ then some (f o) else t.behind other := by
  have hlive := get_eq_ok_iff_get?.1 hget
  obtain ⟨k, g⟩ := other
  unfold behind
  rw [get?_modify]
  by_cases hk : k = id
  · subst hk
    rw [if_pos rfl, hlive, Option.map_some]
    by_cases hg : g = o.generation
    · subst hg
      rw [if_pos rfl]
      exact Option.filter_some_pos (beq_iff_eq.2 hf)
    · rw [if_neg fun heq => hg (congrArg Handle.generation heq),
        Option.filter_some_neg (by simpa [hf] using Ne.symm hg),
        Option.filter_some_neg (by simpa using Ne.symm hg)]
  · rw [if_neg hk, if_neg fun heq => hk (congrArg Handle.id heq)]

/-! ### Removal -/

theorem objects_remove {t t' : Table α} {id : ObjectId} {o : Object α}
    (hr : t.remove id = .ok (o, t')) :
    t.objects.get? id = some o ∧ t'.objects = t.objects.erase id ∧
      t'.nextGeneration = t.nextGeneration := by
  obtain ⟨hlive, rfl⟩ := remove_eq_ok_iff.1 hr
  exact ⟨slot_eq_live_iff.1 hlive, rfl, rfl⟩

theorem ascending_remove {t t' : Table α} {id : ObjectId} {o : Object α} (ht : t.objects.Ascending)
    (hr : t.remove id = .ok (o, t')) : t'.objects.Ascending := by
  rw [(objects_remove hr).2.1]
  exact Directory.ascending_erase ht id

/-- A removal leaves no object behind its handle, and concerns no other. -/
theorem behind_remove {t t' : Table α} {id : ObjectId} {o : Object α}
    (hr : t.remove id = .ok (o, t')) (other : Handle) :
    t'.behind other = if other = ⟨id, o.generation⟩ then none else t.behind other := by
  obtain ⟨hlive, hobjects, -⟩ := objects_remove hr
  obtain ⟨k, g⟩ := other
  unfold behind
  rw [hobjects, Directory.get?_erase]
  by_cases hk : k = id
  · subst hk
    rw [if_pos rfl, hlive]
    by_cases hg : g = o.generation
    · subst hg
      rw [if_pos rfl]
      rfl
    · rw [if_neg fun heq => hg (congrArg Handle.generation heq),
        Option.filter_some_neg (by simpa using Ne.symm hg)]
      rfl
  · rw [if_neg hk, if_neg fun heq => hk (congrArg Handle.id heq)]

end Table

end Compositor.Objects
