import Compositor.Proofs.Wire.Reading
import Compositor.Session.Dispatch

/-
  What the checks of a request come to.

  `Connection.accept` makes its checks one after the other.  `Passes` says what a request that passes them has
  shown (`accept_eq_ok_iff`).  `Grounds` lists why a request is refused, each time with the fact that was
  found, and `grounds_of_dispatch` says that there is nothing else.  One thing that the code provides for is
  not among the grounds: a new id that its parameter does not take.  The arguments are held against the
  signature before anything is created.
-/

namespace Compositor.Sessions

open Compositor.Wire (Arg Message ObjectId Param Signature)
open Compositor.Objects (Object TableError)
open Compositor.Protocol

namespace Connection

/-! ## Passing -/

/-- What a request that passes all checks has shown. -/
structure Passes {K : Kit} (c : Connection K) (m : Message) (a : Accepted K) : Prop where
  target_eq : c.table.get m.object = .ok a.target
  method_eq : a.target.interface.method? .request m.opcode = some a.method
  since_le : ¬ a.target.version < a.method.since
  check_eq : a.method.signature.check m.args = .ok ()
  objects_eq : objectFault? c.table 0 a.method.signature.params m.args = none
  inserted : c.insertCreated a.target.version a.method.signature.params m.args = .ok a.connection

theorem accept_eq_ok_iff {K : Kit} {c : Connection K} {m : Message} {a : Accepted K} :
    c.accept m = .ok a ↔ c.Passes m a := by
  unfold accept
  constructor
  · intro h
    split at h
    · nomatch h
    · rename_i target htarget
      split at h
      · nomatch h
      · rename_i method hmethod
        split at h
        · nomatch h
        · rename_i hsince
          split at h
          · nomatch h
          · rename_i hcheck
            split at h
            · nomatch h
            · rename_i hobjects
              split at h
              · nomatch h
              · rename_i hinserted
                injection h with h
                subst h
                exact ⟨htarget, hmethod, hsince, hcheck, hobjects, hinserted⟩
  · intro h
    rw [h.target_eq]
    dsimp only
    rw [h.method_eq]
    dsimp only
    rw [if_neg h.since_le, h.check_eq]
    dsimp only
    rw [h.objects_eq]
    dsimp only
    rw [h.inserted]

/-! ## Being refused -/

/-- The grounds on which a connection refuses a request. -/
inductive Grounds {K : Kit} (c : Connection K) (m : Message) : Violation → Prop where
  /-- The target is not live, or an object that an argument names. -/
  | missing {id : ObjectId} {e : TableError} : id = m.object ∨ .object (some id) ∈ m.args →
      c.table.get id = .error e → Grounds c m (.ofLookup e)
  | opcode {target : Object (Implementation K.Handler)} : c.table.get m.object = .ok target →
      target.interface.method? .request m.opcode = none →
        Grounds c m (.wire (.unknownOpcode target.interface.name m.opcode))
  | version {target : Object (Implementation K.Handler)} {method : Method} :
      c.table.get m.object = .ok target → target.interface.method? .request m.opcode = some method →
        target.version < method.since →
          Grounds c m (.versionGated m.object target.interface.name method.name method.since target.version)
  | arguments {target : Object (Implementation K.Handler)} {method : Method} {e : Wire.Error} :
      c.table.get m.object = .ok target → target.interface.method? .request m.opcode = some method →
        method.signature.check m.args = .error e → Grounds c m (.wire e)
  /-- An argument names an object of another interface than declared. -/
  | interface {id : ObjectId} {o : Object (Implementation K.Handler)} {index : Nat} {expected : String} :
      .object (some id) ∈ m.args → c.table.get id = .ok o → o.interface.name ≠ expected →
        Grounds c m (.interfaceMismatch index expected o.interface.name)
  /-- There is no such interface for the new object. -/
  | registry {name : String} {version : UInt32} {e : Protocol.Error} :
      c.registry.lookup name version = .error e → Grounds c m (.registry e)
  /-- The id of the new object is not free. -/
  | allocation {id : ObjectId} {o : Object (Implementation K.Handler)} {e : TableError} :
      c.table.insert .client id o = .error e → Grounds c m (.table e)
  | unimplemented {target : Object (Implementation K.Handler)} : c.table.get m.object = .ok target →
      Grounds c m (.unimplemented m.object target.interface.name)

section
variable {K : Kit} {c : Connection K} {m : Message} {v : Violation}

/-- What is wrong with the objects that arguments name. -/
theorem grounds_of_objectFault? {ps : List Param} : ∀ {as : List Arg} {index : Nat},
    (∀ a ∈ as, a ∈ m.args) → objectFault? c.table index ps as = some v → Grounds c m v := by
  induction ps with
  | nil =>
    intro as index _ h
    nomatch h
  | cons p ps ih =>
    intro as index has h
    cases as with
    | nil => nomatch h
    | cons a as =>
      have ha : a ∈ m.args := has a (List.mem_cons_self ..)
      have hrest : ∀ a ∈ as, a ∈ m.args := fun a ha => has a (List.mem_cons_of_mem _ ha)
      cases a with
      | object id =>
        cases id with
        | none => exact ih hrest h
        | some id =>
          unfold objectFault? at h
          split at h
          · rename_i e hget
            injection h with h
            rw [← h]
            exact .missing (.inr ha) hget
          · rename_i o hget
            split at h
            · exact ih hrest h
            · split at h
              · exact ih hrest h
              · rename_i expected _ hother
                injection h with h
                rw [← h]
                exact .interface ha hget hother
      | _ => exact ih hrest h

/-- The new id among arguments that fit is one that its parameter accepts. -/
theorem accepts_of_creation? {ps : List Param} {as : List Arg} (h : Signature.Fits ps as) :
    ∀ {index i : Nat} {p : Param} {arg : Arg}, creation? index ps as = some (i, p, arg) →
      p.kind = .newId ∧ p.Accepts arg := by
  induction h with
  | nil =>
    intro index i p arg h
    nomatch h
  | @cons q qs a as ha _ ih =>
    intro index i p arg h
    unfold creation? at h
    split at h
    · rename_i hk
      injection h with h
      injection h with _ h
      injection h with hp harg
      subst hp harg
      exact ⟨hk, ha⟩
    · exact ih h

/-- An accepted new id comes with all that its object needs; only the registry can be in the way. -/
theorem lookup_of_newObject {registry : Registry} {version : UInt32} {index : Nat} {p : Param} {arg : Arg}
    (hk : p.kind = .newId) (ha : p.Accepts arg) (h : newObject registry version index p arg = .error v) :
    ∃ name version e, registry.lookup name version = .error e ∧ v = .registry e := by
  have hkind := ha.kind_eq
  have hgeneric := ha.isGeneric_eq
  unfold Param.isGeneric at hgeneric
  rw [hk] at hkind hgeneric
  unfold newObject at h
  cases arg with
  | newId id =>
    cases hi : p.interface with
    | none =>
      rw [hi] at hgeneric
      nomatch hgeneric
    | some name =>
      rw [hi] at h
      dsimp only at h
      split at h
      · rename_i e hlookup
        injection h with h
        exact ⟨_, _, e, hlookup, h.symm⟩
      · nomatch h
  | genericNewId name version id =>
    cases hi : p.interface with
    | none =>
      rw [hi] at h
      dsimp only at h
      split at h
      · rename_i e hlookup
        injection h with h
        exact ⟨_, _, e, hlookup, h.symm⟩
      · nomatch h
    | some _ =>
      rw [hi] at hgeneric
      nomatch hgeneric
  | _ => nomatch hkind

/-- What is in the way of a new object. -/
theorem grounds_of_insertCreated {version : UInt32} {ps : List Param} {as : List Arg}
    (hfits : Signature.Fits ps as) (h : c.insertCreated version ps as = .error v) : Grounds c m v := by
  unfold insertCreated at h
  split at h
  · nomatch h
  · rename_i index p arg hcreation
    obtain ⟨hk, ha⟩ := accepts_of_creation? hfits hcreation
    split at h
    · rename_i v' hnew
      injection h with h
      obtain ⟨name, version, e, hlookup, hv⟩ := lookup_of_newObject hk ha hnew
      rw [← h, hv]
      exact .registry hlookup
    · split at h
      · rename_i e hinsert
        injection h with h
        rw [← h]
        exact .allocation hinsert
      · nomatch h

theorem grounds_of_accept (h : c.accept m = .error v) : Grounds c m v := by
  unfold accept at h
  split at h
  · rename_i e hget
    injection h with h
    rw [← h]
    exact .missing (.inl rfl) hget
  · rename_i target hget
    split at h
    · rename_i hmethod
      injection h with h
      rw [← h]
      exact .opcode hget hmethod
    · rename_i method hmethod
      split at h
      · rename_i hversion
        injection h with h
        rw [← h]
        exact .version hget hmethod hversion
      · split at h
        · rename_i e hcheck
          injection h with h
          rw [← h]
          exact .arguments hget hmethod hcheck
        · rename_i hcheck
          split at h
          · rename_i v' hfault
            injection h with h
            rw [← h]
            exact grounds_of_objectFault? (fun _ ha => ha) hfault
          · split at h
            · rename_i v' hinsert
              injection h with h
              rw [← h]
              exact grounds_of_insertCreated ((Signature.check_eq_ok_iff _ _).1 hcheck) hinsert
            · nomatch h

end

/-- There are no other grounds than these. -/
theorem grounds_of_dispatch {app : Application} {c c' : Connection app.toKit} {m : Message} {v : Violation}
    (h : c.dispatch app m = (.error v, c')) : Grounds c m v := by
  unfold dispatch at h
  cases haccept : c.accept m with
  | error v' =>
    rw [haccept] at h
    injection h with h
    injection h with h
    rw [← h]
    exact grounds_of_accept haccept
  | ok a =>
    have hpasses := accept_eq_ok_iff.1 haccept
    rw [haccept] at h
    dsimp only at h
    split at h
    · injection h with h
      nomatch h
    · split at h
      · injection h with h
        nomatch h
      · injection h with h
        injection h with h
        rw [← h]
        exact .unimplemented hpasses.target_eq

end Connection

end Compositor.Sessions
