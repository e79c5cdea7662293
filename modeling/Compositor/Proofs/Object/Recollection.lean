import Compositor.Proofs.Object.Admission
import Compositor.Protocol.Core

/-
  What a table can tell of its past.

  Markers are forgotten, but the counter of server ids is not, and it tells of every server id below it that it
  is destroyed.  As long as server ids are taken one after the other, this is exact: nothing below the counter
  was left out (`AllocatesOnly.gapless`), so that a server id reads as live, destroyed or unknown according to
  what was done, whatever has expired since; and none is handed out twice (`serverIds_of_changes`).

  A server id that is taken out of turn leaves others behind it that were never used.  These read as destroyed,
  too (`stale_of_skipped_sample`).  No other id is called destroyed by anything that looks it up unless an
  object of it was taken (`staleness_of_changes`).
-/

namespace Compositor.Objects

open Compositor.Wire (ObjectId Side)

/-! ## Looking up ids -/

namespace Table

section
variable {α : Type} {t : Table α} {id : ObjectId}

/-- Everything that looks up an id refuses it for the same reason. -/
structure Denies (t : Table α) (id : ObjectId) (e : TableError) (unresolved : Wire.Error) : Prop where
  get_eq : t.get id = .error e
  modify_eq : ∀ f, (t.change (.modify id f)).1 = .object (.error e)
  remove_eq : t.remove id = .error e
  resolve_eq : ∀ opcode, t.resolve id opcode = .error unresolved

/-- Something that looks up an id calls it destroyed. -/
inductive SaysStale (t : Table α) (id : ObjectId) : Prop where
  | get (h : t.get id = .error (.stale id))
  | modify (f : Object α → Object α) (h : (t.change (.modify id f)).1 = .object (.error (.stale id)))
  | remove (h : t.remove id = .error (.stale id))
  | resolve (opcode : UInt16) (h : t.resolve id opcode = .error (.staleObject id.raw))

theorem get_cases (t : Table α) (id : ObjectId) : (∃ o, t.get id = .ok o) ∨
    t.get id = .error (.stale id) ∨ t.get id = .error (.notFound id) := by
  unfold get missing
  cases t.objects.get? id with
  | some o => exact .inl ⟨o, rfl⟩
  | none =>
    cases t.isStale id with
    | true => exact .inr (.inl rfl)
    | false => exact .inr (.inr rfl)

theorem get?_eq_none_iff : t.objects.get? id = none ↔ ¬ ∃ o, t.get id = .ok o := by
  constructor
  · rintro hnone ⟨o, ho⟩
    rw [get_eq_ok_iff_get?.1 ho] at hnone
    cases hnone
  · intro hnot
    cases hlive : t.objects.get? id with
    | none => rfl
    | some o => exact absurd ⟨o, get_eq_ok_iff_get?.2 hlive⟩ hnot

theorem get?_eq_none_of_error {e : TableError} (hget : t.get id = .error e) : t.objects.get? id = none := by
  refine get?_eq_none_iff.2 fun ⟨o, ho⟩ => ?_
  rw [ho] at hget
  cases hget

/-- An id without an object is stale if there is a marker, or the counter has passed it. -/
theorem get_eq_stale_iff : t.get id = .error (.stale id) ↔ t.objects.get? id = none ∧
    ((∃ m ∈ t.markers, m.id = id) ∨ t.wasAllocated id = true) := by
  unfold get missing isStale slot
  cases t.objects.get? id with
  | some o => exact ⟨nofun, fun h => nomatch h.1⟩
  | none =>
    cases hmarker : Marker.acked? id t.markers with
    | none =>
      have hunmarked := Marker.acked?_eq_none_iff.1 hmarker
      cases t.wasAllocated id with
      | true => exact ⟨fun _ => ⟨rfl, .inr rfl⟩, fun _ => rfl⟩
      | false =>
        refine ⟨nofun, ?_⟩
        rintro ⟨-, ⟨m, hm, hid⟩ | hwas⟩
        · exact absurd hid (hunmarked m hm)
        · cases hwas
    | some acked =>
      have hmarked : ∃ m ∈ t.markers, m.id = id := by
        by_cases hex : ∃ m ∈ t.markers, m.id = id
        · exact hex
        · rw [Marker.acked?_eq_none_iff.2 fun m hm hid => hex ⟨m, hm, hid⟩] at hmarker
          cases hmarker
      exact ⟨fun _ => ⟨rfl, .inl hmarked⟩, fun _ => rfl⟩

theorem denies_stale (hget : t.get id = .error (.stale id)) :
    t.Denies id (.stale id) (.staleObject id.raw) := by
  refine ⟨hget, fun f => congrArg Answer.object hget, ?_, fun opcode => ?_⟩
  · simp only [Table.remove, hget]
  · simp only [Table.resolve, hget]

theorem denies_unknown (hget : t.get id = .error (.notFound id)) :
    t.Denies id (.notFound id) (.unknownObject id.raw) := by
  refine ⟨hget, fun f => congrArg Answer.object hget, ?_, fun opcode => ?_⟩
  · simp only [Table.remove, hget]
  · simp only [Table.resolve, hget]

/-- Whatever calls an id destroyed, reading it does. -/
theorem SaysStale.get_eq (h : t.SaysStale id) : t.get id = .error (.stale id) := by
  rcases t.get_cases id with ⟨o, hget⟩ | hget | hget
  · -- a live object is found by all of them
    cases h with
    | get h => exact h
    | modify f h =>
      injection h with h
    | remove h => simp only [Table.remove, hget, reduceCtorEq] at h
    | resolve opcode h =>
      simp only [Table.resolve, hget] at h
      split at h
      · cases h
      · cases h
  · exact hget
  · have hdenies := denies_unknown hget
    cases h with
    | get h => exact h
    | modify f h => rw [hdenies.modify_eq] at h; cases h
    | remove h => rw [hdenies.remove_eq] at h; cases h
    | resolve opcode h => rw [hdenies.resolve_eq] at h; cases h

end

end Table

/-! ## Server ids -/

section
variable {α : Type} {t : Table α} {issued : List Handle} {taken : List ObjectId}

namespace Recalls

theorem firstServer_le (h : Recalls t issued taken) : firstServer ≤ t.nextServer := by
  rcases h.last with heq | ⟨k, -, hside, heq⟩
  · exact Nat.le_of_eq heq.symm
  · have := side_eq_server_iff.1 hside
    omega

/-- The counter is at the end of its range when the last id has been handed out. -/
theorem nextServer_eq_iff (h : Recalls t issued taken) :
    t.nextServer = 0x100000000 ↔ ∃ k ∈ issued, k.id.raw = 0xFFFFFFFF := by
  have hle := h.consistent.nextServer_le
  constructor
  · intro heq
    rcases h.last with hfirst | ⟨k, hk, -, hlast⟩
    · rw [hfirst] at heq
      cases heq
    · refine ⟨k, hk, UInt32.toNat_inj.1 ?_⟩
      show k.id.toNat = 0xFFFFFFFF
      omega
  · rintro ⟨k, hk, hraw⟩
    have hnat : k.id.toNat = 0xFFFFFFFF := congrArg UInt32.toNat hraw
    have hside : k.id.side = .server := side_eq_server_iff.2 (by rw [hnat]; decide)
    have := h.server_lt k hk hside
    omega

/-- The next server id can be had until the counter is at the end of its range. -/
theorem allocate_cases (h : Recalls t issued taken) (o : Object α) :
    t.nextServer ≠ 0x100000000 ∧ (∃ r, t.allocate o = .ok r) ∨
      t.nextServer = 0x100000000 ∧ t.allocate o = .error .serverIdsExhausted := by
  have hfirst := h.firstServer_le
  have hle := h.consistent.nextServer_le
  unfold firstServer at hfirst
  by_cases hlt : t.nextServer < 0x100000000
  · have hnat : (UInt32.ofNat t.nextServer).toNat = t.nextServer := by
      rw [UInt32.toNat_ofNat', Nat.mod_eq_of_lt hlt]
    have hraw : UInt32.ofNat t.nextServer ≠ 0 := by
      intro hzero
      rw [hzero] at hnat
      change 0 = t.nextServer at hnat
      omega
    have hid : Wire.ObjectId.ofRaw? (UInt32.ofNat t.nextServer) = some ⟨_, hraw⟩ :=
      Wire.ObjectId.ofRaw?_eq_some_iff.2 rfl
    have htoNat : (⟨_, hraw⟩ : ObjectId).toNat = t.nextServer := hnat
    have hadmits : t.Admits .server ⟨_, hraw⟩ := by
      refine ⟨(Side.contains_iff_side .server _).2 (side_eq_server_iff.2 ?_), Nat.le_of_eq htoNat.symm⟩
      rw [htoNat]
      exact hfirst
    obtain ⟨k, t', hi⟩ := Table.insert_of_admits h.consistent hadmits o
    refine .inl ⟨Nat.ne_of_lt hlt, (k, t'), ?_⟩
    unfold Table.allocate
    rw [if_pos hlt, hid]
    exact hi
  · refine .inr ⟨by omega, ?_⟩
    unfold Table.allocate
    rw [if_neg hlt]

end Recalls

/-- How server ids are handed out. -/
structure ServerIds (t : Table α) (issued : List Handle) : Prop where
  /-- Each is above all that were handed out before. -/
  ascending : (issued.filter (·.id.side == .server)).Pairwise fun h h' => h.id.toNat < h'.id.toNat
  /-- There is a next one until the last of the range has been handed out. -/
  allocate_ok_iff : ∀ o, (∃ r, t.allocate o = .ok r) ↔ ∀ h ∈ issued, h.id.raw ≠ 0xFFFFFFFF
  eq_exhausted : ∀ o e, t.allocate o = .error e → e = .serverIdsExhausted

theorem Recalls.serverIds (h : Recalls t issued taken) : ServerIds t issued := by
  refine ⟨h.ascending, fun o => ?_, fun o e he => ?_⟩
  · have hlast := h.nextServer_eq_iff
    rcases h.allocate_cases o with ⟨hne, hok⟩ | ⟨heq, herror⟩
    · exact ⟨fun _ k hk hraw => hne (hlast.2 ⟨k, hk, hraw⟩), fun _ => hok⟩
    · obtain ⟨k, hk, hraw⟩ := hlast.1 heq
      refine ⟨fun ⟨r, hr⟩ => ?_, fun hnone => absurd hraw (hnone k hk)⟩
      rw [herror] at hr
      cases hr
  · rcases h.allocate_cases o with ⟨-, r, hok⟩ | ⟨-, herror⟩
    · rw [hok] at he
      cases he
    · rw [herror] at he
      injection he with he
      exact he.symm

/-! ### One after the other -/

/-- Server ids come from allocation alone: no insertion at a server id that is named succeeds. -/
def Table.AllocatesOnly (t : Table α) : List (Change α) → Prop
  | [] => True
  | c :: cs => (∀ id o, c = .insert .server id o → t.issued c = []) ∧ (t.change c).2.AllocatesOnly cs

/-- Every server id below the counter has been handed out. -/
def Gapless (t : Table α) (issued : List Handle) : Prop :=
  ∀ id, id.side = .server → id.toNat < t.nextServer → ∃ h ∈ issued, h.id = id

theorem gapless_empty (capacity : Nat) : Gapless (Table.empty capacity : Table α) [] := by
  intro id hside hlt
  have hfirst := side_eq_server_iff.1 hside
  exact absurd hlt (Nat.not_lt_of_le hfirst)

theorem Gapless.change (h : Gapless t issued) {c : Change α}
    (honly : ∀ id o, c = .insert .server id o → t.issued c = []) :
    Gapless (t.change c).2 (issued ++ t.issued c) := by
  intro id hside hlt
  rcases t.change_cases c with hc | ⟨side, new, hc⟩
  · rw [hc.nextServer_eq] at hlt
    obtain ⟨k, hk, hid⟩ := h id hside hlt
    exact ⟨k, List.mem_append_left _ hk, hid⟩
  · obtain ⟨o, -, hi⟩ := hc.insert_eq
    obtain ⟨-, -, ht'⟩ := Table.insert_eq_ok_iff.1 hi
    rw [ht'] at hlt
    dsimp only at hlt
    by_cases hnew : id = new.id
    · rw [hc.issued_eq]
      exact ⟨new, List.mem_append_right _ (List.mem_singleton.2 rfl), hnew.symm⟩
    · -- a server id is only counted on from the counter itself
      have hbelow : id.toNat < t.nextServer := by
        have hne : id.toNat ≠ new.id.toNat := fun heq => hnew (Wire.ObjectId.toNat_inj.1 heq)
        split at hlt
        · rename_i hs
          rcases hc.chosen with ⟨p, hp⟩ | ⟨-, hcounter⟩
          · subst hs
            have hnone := honly _ p hp
            rw [hc.issued_eq] at hnone
            cases hnone
          · omega
        · exact hlt
      obtain ⟨k, hk, hid⟩ := h id hside hbelow
      exact ⟨k, List.mem_append_left _ hk, hid⟩

theorem AllocatesOnly.gapless (cs : List (Change α)) : ∀ {t : Table α} {issued : List Handle},
    t.AllocatesOnly cs → Gapless t issued → Gapless (t.changeAll cs).2 (issued ++ t.issuedAll cs) := by
  induction cs with
  | nil =>
    intro t issued _ h
    simpa only [Table.changeAll, Table.issuedAll, List.append_nil] using h
  | cons c cs ih =>
    intro t issued honly h
    obtain ⟨hc, hcs⟩ := honly
    simpa only [Table.changeAll, Table.issuedAll, List.append_assoc] using ih hcs (h.change hc)

/-- A server id reads as what has become of it. -/
structure Remembered (t : Table α) (issued : List Handle) (taken : List ObjectId) (id : ObjectId) : Prop where
  /-- It is live: it was handed out, and its object has not been taken. -/
  ok_iff : (∃ o, t.get id = .ok o) ↔ (∃ h ∈ issued, h.id = id) ∧ id ∉ taken
  /-- It was handed out and is no longer live. -/
  stale_iff : t.get id = .error (.stale id) ↔ (∃ h ∈ issued, h.id = id) ∧ id ∈ taken
  notFound_iff : t.get id = .error (.notFound id) ↔ ∀ h ∈ issued, h.id ≠ id

/-- A server id is handed out once. -/
theorem Recalls.count_le_one (h : Recalls t issued taken) {id : ObjectId} (hside : id.side = .server) :
    (issued.map (·.id)).count id ≤ 1 := by
  have hdistinct : ((issued.filter (·.id.side == .server)).map (·.id)).Nodup := by
    refine List.Pairwise.map _ (fun k k' hlt heq => ?_) h.ascending
    rw [heq] at hlt
    exact Nat.lt_irrefl _ hlt
  have hcount : (issued.map (·.id)).count id =
      ((issued.filter (·.id.side == .server)).map (·.id)).count id := by
    unfold List.count
    rw [List.countP_map, List.countP_map, List.countP_filter]
    refine List.countP_congr fun k _ => ?_
    by_cases hk : k.id = id
    · simp [hk, hside]
    · simp [hk]
  rw [hcount]
  exact List.nodup_iff_count_le_one.1 hdistinct id

/-- So it is live if it was handed out and not taken. -/
theorem Recalls.exists_get_iff_of_server (h : Recalls t issued taken) {id : ObjectId} (hside : id.side = .server) :
    (∃ o, t.get id = .ok o) ↔ (∃ k ∈ issued, k.id = id) ∧ id ∉ taken := by
  have hissued : (∃ k ∈ issued, k.id = id) ↔ 0 < (issued.map (·.id)).count id := by
    rw [List.count_pos_iff, List.mem_map]
  have hone := h.count_le_one hside
  rw [h.exists_get_iff, hissued, ← List.count_eq_zero]
  omega

theorem Recalls.remembered (h : Recalls t issued taken) (hgapless : Gapless t issued) {id : ObjectId}
    (hside : id.side = .server) : Remembered t issued taken id := by
  have hlive := h.exists_get_iff_of_server hside
  -- a server id is known to the table if it was handed out
  have hknown : t.wasAllocated id = true ↔ ∃ k ∈ issued, k.id = id := by
    unfold Table.wasAllocated
    rw [hside, Bool.and_eq_true, decide_eq_true_iff]
    refine ⟨fun hlt => hgapless id hside hlt.2, ?_⟩
    rintro ⟨k, hk, rfl⟩
    exact ⟨rfl, h.server_lt k hk hside⟩
  have hstale : t.get id = .error (.stale id) ↔ (∃ k ∈ issued, k.id = id) ∧ id ∈ taken := by
    rw [Table.get_eq_stale_iff, Table.get?_eq_none_iff, hlive, hknown]
    constructor
    · rintro ⟨hnot, hcases⟩
      have hissued : ∃ k ∈ issued, k.id = id := by
        rcases hcases with ⟨m, hm, hid⟩ | hissued
        · exact h.exists_of_mem_taken (hid ▸ h.marked m hm)
        · exact hissued
      exact ⟨hissued, Decidable.byContradiction fun htaken => hnot ⟨hissued, htaken⟩⟩
    · rintro ⟨hissued, htaken⟩
      exact ⟨fun hlive => hlive.2 htaken, .inr hissued⟩
  refine ⟨hlive, hstale, fun hget k hk hid => ?_, fun hnone => ?_⟩
  · by_cases htaken : id ∈ taken
    · rw [hstale.2 ⟨⟨k, hk, hid⟩, htaken⟩] at hget
      cases hget
    · obtain ⟨o, ho⟩ := hlive.2 ⟨⟨k, hk, hid⟩, htaken⟩
      rw [ho] at hget
      cases hget
  · rcases t.get_cases id with hok | hget | hget
    · obtain ⟨⟨k, hk, hid⟩, -⟩ := hlive.1 hok
      exact absurd hid (hnone k hk)
    · obtain ⟨⟨k, hk, hid⟩, -⟩ := hstale.1 hget
      exact absurd hid (hnone k hk)
    · exact hget

/-- Whatever is done to a table of any capacity, server ids are handed out in ascending order, up to the last.
If all of them come from allocation, each reads as what has become of it. -/
theorem serverIds_of_changes (capacity : Nat) (cs : List (Change α)) :
    let t := ((Table.empty capacity).changeAll cs).2
    let issued := (Table.empty capacity).issuedAll cs
    ServerIds t issued ∧ ((Table.empty capacity).AllocatesOnly cs →
      ∀ id, id.side = .server → Remembered t issued ((Table.empty capacity).takenAll cs) id) := by
  intro t issued
  have hrecalls : Recalls t issued _ := recalls_of_changes capacity cs
  refine ⟨hrecalls.serverIds, fun honly id hside => ?_⟩
  have hgapless : Gapless t ([] ++ issued) := AllocatesOnly.gapless cs honly (gapless_empty capacity)
  exact hrecalls.remembered hgapless hside

/-! ### A table that forgets its markers -/

def servedId : ObjectId := ⟨0xFF000001, by decide⟩

/-- Two callbacks under the first server ids; the second is removed, and the other drained. -/
def servingRun : List (Change Unit) :=
  [.allocate { interface := Protocol.Core.callback, version := 1 },
    .allocate { interface := Protocol.Core.callback, version := 1 }, .remove servedId, .drain]

/-- Without any marker left, the id of the removed one still reads as destroyed. -/
theorem serverIds_of_changes_sample :
    (Table.empty 0).AllocatesOnly servingRun ∧ servedId.side = .server ∧
      ((Table.empty 0).changeAll servingRun).2.staleSize = 0 ∧
        ((Table.empty 0).changeAll servingRun).2.get servedId = .error (.stale servedId) ∧
          Remembered ((Table.empty 0).changeAll servingRun).2 ((Table.empty 0).issuedAll servingRun)
            ((Table.empty 0).takenAll servingRun) servedId := by
  have honly : (Table.empty 0).AllocatesOnly servingRun := by
    refine ⟨fun id o h => ?_, fun id o h => ?_, fun id o h => ?_, fun id o h => ?_, trivial⟩
    · cases h
    · cases h
    · cases h
    · cases h
  exact ⟨honly, rfl, rfl, rfl, (serverIds_of_changes 0 servingRun).2 honly servedId rfl⟩

/-! ## Ids that were skipped -/

/-- A server id that was never handed out, although a higher one was. -/
def Skipped (issued : List Handle) (id : ObjectId) : Prop :=
  id.side = .server ∧ (∀ h ∈ issued, h.id ≠ id) ∧ ∃ h ∈ issued, id.toNat < h.id.toNat

/-- An id held objects, all of which were taken. -/
structure Spent (issued : List Handle) (taken : List ObjectId) (id : ObjectId) : Prop where
  inserted : ∃ h ∈ issued, h.id = id
  mem_taken : id ∈ taken
  count_eq : taken.count id = (issued.map (·.id)).count id

namespace Recalls

/-- A server id that was never handed out is below the counter only if it was skipped. -/
theorem skipped_iff (h : Recalls t issued taken) {id : ObjectId} (hunused : ∀ k ∈ issued, k.id ≠ id) :
    Skipped issued id ↔ t.wasAllocated id = true := by
  unfold Table.wasAllocated
  rw [Bool.and_eq_true, beq_iff_eq, decide_eq_true_iff]
  constructor
  · rintro ⟨hside, -, k, hk, hlt⟩
    have hkside : k.id.side = .server :=
      side_eq_server_iff.2 (Nat.le_of_lt (Nat.lt_of_le_of_lt (side_eq_server_iff.1 hside) hlt))
    exact ⟨hside, Nat.lt_trans hlt (h.server_lt k hk hkside)⟩
  · rintro ⟨hside, hlt⟩
    refine ⟨hside, hunused, ?_⟩
    rcases h.last with hfirst | ⟨k, hk, -, hlast⟩
    · have := side_eq_server_iff.1 hside
      omega
    · have hne : id.toNat ≠ k.id.toNat := fun heq => hunused k hk (Wire.ObjectId.toNat_inj.1 heq.symm)
      exact ⟨k, hk, by omega⟩

/-- An id that is destroyed held objects that were taken, unless it was skipped. -/
theorem spent_or_skipped (h : Recalls t issued taken) {id : ObjectId}
    (hget : t.get id = .error (.stale id)) : Spent issued taken id ∨ Skipped issued id := by
  obtain ⟨hgone, hcases⟩ := Table.get_eq_stale_iff.1 hget
  have hcount : taken.count id = (issued.map (·.id)).count id := by
    rw [h.balance, Table.contains_eq_false_iff.2 hgone]
    rfl
  by_cases htaken : id ∈ taken
  · exact .inl ⟨h.exists_of_mem_taken htaken, htaken, hcount⟩
  · have hunused : ∀ k ∈ issued, k.id ≠ id := by
      intro k hk hid
      rw [List.count_eq_zero.2 htaken, eq_comm, List.count_eq_zero] at hcount
      exact hcount (List.mem_map.2 ⟨k, hk, hid⟩)
    rcases hcases with ⟨m, hm, hid⟩ | hwas
    · exact absurd (hid ▸ h.marked m hm) htaken
    · exact .inr ((h.skipped_iff hunused).2 hwas)

/-- An id that was never in use is unknown, unless it was skipped. -/
theorem denies_of_unused (h : Recalls t issued taken) {id : ObjectId} (hunused : ∀ k ∈ issued, k.id ≠ id) :
    Skipped issued id ∧ t.Denies id (.stale id) (.staleObject id.raw) ∨
      ¬ Skipped issued id ∧ t.Denies id (.notFound id) (.unknownObject id.raw) := by
  rcases t.get_cases id with hok | hget | hget
  · have hlive := (h.exists_get_iff id).1 hok
    obtain ⟨k, hk, hid⟩ := List.mem_map.1 (List.count_pos_iff.1 (Nat.zero_lt_of_lt hlive))
    exact absurd hid (hunused k hk)
  · rcases h.spent_or_skipped hget with hspent | hskipped
    · obtain ⟨k, hk, hid⟩ := hspent.inserted
      exact absurd hid (hunused k hk)
    · exact .inl ⟨hskipped, Table.denies_stale hget⟩
  · refine .inr ⟨fun hskipped => ?_, Table.denies_unknown hget⟩
    have hstale := Table.get_eq_stale_iff.2
      ⟨Table.get?_eq_none_of_error hget, .inr ((h.skipped_iff hunused).1 hskipped)⟩
    rw [hstale] at hget
    cases hget

end Recalls

/-- Whatever is done to a table of any capacity: an id that is called destroyed held objects that were taken, all
of them, or it was skipped.  An id that never held one is called unknown by everything that looks it up, unless it was
skipped: then it is called destroyed. -/
theorem staleness_of_changes (capacity : Nat) (cs : List (Change α)) (id : ObjectId) :
    let t := ((Table.empty capacity).changeAll cs).2
    let issued := (Table.empty capacity).issuedAll cs
    (t.SaysStale id → Spent issued ((Table.empty capacity).takenAll cs) id ∨ Skipped issued id) ∧
      ((∀ h ∈ issued, h.id ≠ id) → Skipped issued id ∧ t.Denies id (.stale id) (.staleObject id.raw) ∨
        ¬ Skipped issued id ∧ t.Denies id (.notFound id) (.unknownObject id.raw)) := by
  intro t issued
  have hrecalls : Recalls t issued _ := recalls_of_changes capacity cs
  exact ⟨fun hstale => hrecalls.spent_or_skipped hstale.get_eq, hrecalls.denies_of_unused⟩

end

/-! ### A table with a gap -/

def skippedId : ObjectId := ⟨0xFF000002, by decide⟩

def aheadId : ObjectId := ⟨0xFF000005, by decide⟩

/-- The server takes the sixth of its ids first. -/
def takingAhead : List (Change Unit) :=
  [.insert .server aheadId { interface := Protocol.Core.callback, version := 1 }]

/-- The third one is not handed out. -/
theorem skipped_unused : ∀ h ∈ (Table.empty 4).issuedAll takingAhead, h.id ≠ skippedId := by
  intro h hh
  have hissued : (Table.empty 4).issuedAll takingAhead = [⟨aheadId, 1⟩] := rfl
  rw [hissued, List.mem_singleton] at hh
  rw [hh]
  decide

/-- It is called destroyed all the same. -/
theorem stale_of_skipped_sample :
    ((Table.empty 4).changeAll takingAhead).1 = [.handle (.ok ⟨aheadId, 1⟩)] ∧
      (∀ h ∈ (Table.empty 4).issuedAll takingAhead, h.id ≠ skippedId) ∧
        ((Table.empty 4).changeAll takingAhead).2.get skippedId = .error (.stale skippedId) ∧
          ((Table.empty 4).changeAll takingAhead).2.resolve skippedId 0 = .error (.staleObject 0xFF000002) :=
  ⟨rfl, skipped_unused, rfl, rfl⟩

theorem staleness_of_changes_sample :
    ((Table.empty 4).changeAll takingAhead).2.SaysStale skippedId ∧
      (∀ h ∈ (Table.empty 4).issuedAll takingAhead, h.id ≠ skippedId) ∧
        Skipped ((Table.empty 4).issuedAll takingAhead) skippedId := by
  have hstale : ((Table.empty 4).changeAll takingAhead).2.SaysStale skippedId := .get rfl
  refine ⟨hstale, skipped_unused, ?_⟩
  rcases (staleness_of_changes 4 takingAhead skippedId).1 hstale with hspent | hskipped
  · obtain ⟨h, hh, hid⟩ := hspent.inserted
    exact absurd hid (skipped_unused h hh)
  · exact hskipped

end Compositor.Objects
