import Compositor.Proofs.Object.Changes
import Mathlib.Data.Set.Defs

/-
  The generations of live objects.

  An insertion stamps its object with a generation above all that were given away before.  What keeps objects
  apart later is the stamp, and it is a field that whoever writes to the object can change.
  `Table.Respects` says that an operation does not: it neither takes the generation of a handle from the object
  at its id, nor gives it to one.

  `Stamped` says that the live objects at some ids have generations of their own.  It is kept by every operation
  that respects the handles with these ids (`Stamped.change`), and so by any number of them
  (`Stamped.changeAll`), whatever is written to the other objects.
-/

namespace Compositor.Objects

open Compositor.Wire (ObjectId Side)

section
variable {α : Type}

/-! ## Writes that respect a handle -/

/-- An operation does not change whether the object at the id of a handle has the generation of the handle.
Only what is written to that object could. -/
def Table.Respects (t : Table α) (h : Handle) : Change α → Prop
  | .modify id f => id = h.id → ∀ o, t.get id = .ok o →
      ((f o).generation = h.generation ↔ o.generation = h.generation)
  | _ => True

/-- None of the operations does, one after the other. -/
def Table.RespectsAll (t : Table α) (h : Handle) : List (Change α) → Prop
  | [] => True
  | c :: cs => t.Respects h c ∧ (t.change c).2.RespectsAll h cs

/-- So what it makes of that object has the generation of the handle if the object has. -/
theorem Table.Respects.alter_iff {t : Table α} {h : Handle} {c : Change α} (hrespects : t.Respects h c)
    {o : Object α} (hlive : t.objects.get? h.id = some o) :
    (c.alter h.id o).generation = h.generation ↔ o.generation = h.generation := by
  cases c with
  | modify id f =>
    unfold Change.alter
    dsimp only
    split
    · rename_i hid
      subst hid
      exact hrespects rfl o (Table.get_eq_ok_iff_get?.2 hlive)
    · exact Iff.rfl
  | insert side id p => exact Iff.rfl
  | allocate p => exact Iff.rfl
  | remove id => exact Iff.rfl
  | acknowledge id => exact Iff.rfl
  | drain => exact Iff.rfl

/-! ## Generations -/

/-- The live objects at some ids have generations of their own, all of which were given away. -/
structure Stamped (ids : Set ObjectId) (slot : ObjectId → Option (Slot α)) (nextGeneration : Nat) : Prop where
  generation_lt : ∀ id ∈ ids, ∀ o, slot id = some (.live o) → o.generation < nextGeneration
  generation_inj : ∀ id ∈ ids, ∀ id' ∈ ids, ∀ o o', slot id = some (.live o) → slot id' = some (.live o') →
    o.generation = o'.generation → id = id'

namespace Stamped

variable {ids : Set ObjectId} {t : Table α}

theorem empty (capacity : Nat) :
    Stamped ids (Table.empty capacity : Table α).slot (Table.empty capacity : Table α).nextGeneration :=
  ⟨nofun, nofun⟩

/-- It is enough that what is live was live, with the same generation. -/
theorem of_live {slot slot' : ObjectId → Option (Slot α)} {nextGeneration : Nat}
    (h : Stamped ids slot nextGeneration)
    (hlive : ∀ id ∈ ids, ∀ o, slot' id = some (.live o) →
      ∃ p, slot id = some (.live p) ∧ p.generation = o.generation) : Stamped ids slot' nextGeneration := by
  refine ⟨fun id hid o ho => ?_, fun id hid id' hid' o o' ho ho' heq => ?_⟩
  · obtain ⟨p, hp, hpo⟩ := hlive id hid o ho
    rw [← hpo]
    exact h.generation_lt id hid p hp
  · obtain ⟨p, hp, hpo⟩ := hlive id hid o ho
    obtain ⟨p', hp', hpo'⟩ := hlive id' hid' o' ho'
    exact h.generation_inj id hid id' hid' p p' hp hp' (by rw [hpo, hpo', heq])

/-- The new object has a generation above all others. -/
theorem insert (h : Stamped ids t.slot t.nextGeneration) {t' : Table α} {side : Side} {id : ObjectId}
    {o : Object α} {handle : Handle} (hi : t.insert side id o = .ok (handle, t')) :
    Stamped ids t'.slot t'.nextGeneration := by
  have hslot := Table.slot_insert hi
  have hnext := (Table.nextGeneration_insert hi).2
  refine ⟨fun a ha p hp => ?_, fun a ha b hb p q hp hq heq => ?_⟩
  · rw [hslot] at hp
    rw [hnext]
    split at hp
    · cases hp
      exact Nat.lt_succ_self _
    · exact Nat.lt_succ_of_lt (h.generation_lt a ha p hp)
  · rw [hslot] at hp hq
    split at hp
    · rename_i heqa
      cases hp
      split at hq
      · rename_i heqb
        rw [heqa, heqb]
      · have hlt := h.generation_lt b hb q hq
        dsimp only at heq
        omega
    · split at hq
      · cases hq
        have hlt := h.generation_lt a ha p hp
        dsimp only at heq
        omega
      · exact h.generation_inj a ha b hb p q hp hq heq

/-- What an operation leaves that inserts nothing has the generation that it had. -/
theorem quiet (h : Stamped ids t.slot t.nextGeneration) {c : Change α} (hc : t.Quiet c)
    (hrespects : ∀ k : Handle, k.id ∈ ids → t.Respects k c) :
    Stamped ids (t.change c).2.slot (t.change c).2.nextGeneration := by
  rw [hc.nextGeneration_eq]
  refine h.of_live fun id hid o ho => ?_
  rw [Table.slot_eq_live_iff, hc.get?_eq] at ho
  split at ho
  · cases ho
  · obtain ⟨p, hp, rfl⟩ := Option.map_eq_some_iff.1 ho
    have hkept := (hrespects ⟨id, p.generation⟩ hid).alter_iff hp
    exact ⟨p, Table.slot_eq_live_iff.2 hp, (hkept.2 rfl).symm⟩

theorem change (h : Stamped ids t.slot t.nextGeneration) {c : Change α}
    (hrespects : ∀ k : Handle, k.id ∈ ids → t.Respects k c) :
    Stamped ids (t.change c).2.slot (t.change c).2.nextGeneration := by
  rcases t.change_cases c with hc | ⟨side, new, hc⟩
  · exact h.quiet hc hrespects
  · obtain ⟨o, -, hi⟩ := hc.insert_eq
    exact h.insert hi

theorem changeAll (cs : List (Change α)) : ∀ {t : Table α}, Stamped ids t.slot t.nextGeneration →
    (∀ k : Handle, k.id ∈ ids → t.RespectsAll k cs) →
      Stamped ids (t.changeAll cs).2.slot (t.changeAll cs).2.nextGeneration := by
  induction cs with
  | nil =>
    intro t h _
    exact h
  | cons c cs ih =>
    intro t h hrespects
    exact ih (h.change fun k hk => (hrespects k hk).1) fun k hk => (hrespects k hk).2

end Stamped

end

end Compositor.Objects
