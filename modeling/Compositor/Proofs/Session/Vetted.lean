import Compositor.Proofs.Session.Checks
import Compositor.Proofs.Session.Turns
import Compositor.Proofs.Wire.Canonical

/-
  Requests that come over the wire are vetted before they are checked.

  The reader takes a request apart by the signature of its target, and `Connection.accept` holds the
  arguments against the same signature again.  For requests that come over the wire the second check
  cannot fail: the reader gives only what fits (`Wire.canonical_of_decode`).  So no input makes a session
  say that arguments are too many, too few or of the wrong kind; only requests that are handed over
  decoded can do that.
-/

namespace Compositor.Sessions

open Compositor.Wire (Descriptor Message ObjectId Resolver Signature)
open Compositor.Objects (Object Table)
open Compositor.Protocol (Method)

/-- The complaint that arguments are too many, too few, or of another kind than declared. -/
def Violation.isMisfit : Violation → Bool
  | .wire e => e.isMisfit
  | _ => false

/-- Looking up a signature compares no arguments. -/
theorem not_isMisfit_of_resolve {α : Type} {t : Table α} {id : ObjectId} {opcode : UInt16}
    {e : Wire.Error} (h : t.resolve id opcode = .error e) : e.isMisfit = false := by
  unfold Table.resolve at h
  split at h
  · injection h with h
    subst h
    rfl
  · injection h with h
    subst h
    rfl
  · split at h
    · nomatch h
    · injection h with h
      subst h
      rfl

/-- The signature that the reader goes by is that of the target's method. -/
theorem resolve_of_method {α : Type} {t : Table α} {id : ObjectId} {opcode : UInt16} {target : Object α}
    {method : Method} (ht : t.get id = .ok target)
    (hm : target.interface.method? .request opcode = some method) :
    t.resolve id opcode = .ok method.signature := by
  unfold Table.resolve
  rw [ht]
  dsimp only
  rw [hm]

namespace Connection

section
variable {K : Kit}

theorem not_isMisfit_ofLookup (e : Objects.TableError) : (Violation.ofLookup e).isMisfit = false := by
  cases e with
  | notFound id => rfl
  | stale id => rfl
  | _ => rfl

/-- A request that fits the signature by which it was read is refused on other grounds. -/
theorem Grounds.not_isMisfit {c : Connection K} {m : Message} {v : Violation} (h : c.Grounds m v)
    (hfits : ∃ s, c.table.resolve m.object m.opcode = .ok s ∧ s.check m.args = .ok ()) :
    v.isMisfit = false := by
  cases h with
  | missing => exact not_isMisfit_ofLookup _
  | arguments htarget hmethod hmisfit =>
    -- the signature of the checks is the one by which the request was read
    obtain ⟨s, hs, hcheck⟩ := hfits
    rw [resolve_of_method htarget hmethod] at hs
    injection hs with hs
    rw [hs, hcheck] at hmisfit
    nomatch hmisfit
  | _ => rfl

end

end Connection

namespace Session

section
variable {K : Kit}

/-- A turn that is a request has arguments that fit the signature of its target. -/
theorem check_of_turn {s rest : Session K} {m : Message} (h : s.turn = .request m rest) :
    ∃ sig, rest.connection.table.resolve m.object m.opcode = .ok sig ∧ sig.check m.args = .ok () := by
  obtain ⟨-, -, consumed, fds, hdecode, rfl⟩ := turn_eq_request_iff.1 h
  obtain ⟨sig, hsig, hcheck, -⟩ := (Wire.canonical_of_decode hdecode).accepted
  exact ⟨sig, hsig, hcheck⟩

/-- A turn that is a violation is none of fitting. -/
theorem not_isMisfit_of_turn {s : Session K} {v : Violation} {target : ObjectId}
    (h : s.turn = .violation v target) : v.isMisfit = false := by
  obtain ⟨-, hheader | ⟨-, e, hdecode, rfl, -⟩⟩ := turn_eq_violation_iff.1 h
  · unfold headerViolation? at hheader
    split at hheader
    · rename_i e he
      injection hheader with hheader
      injection hheader with hv ht
      subst hv
      exact Wire.not_isMisfit_of_peekHeader he
    · nomatch hheader
    · split at hheader
      · injection hheader with hheader
        injection hheader with hv ht
        subst hv
        rfl
      · nomatch hheader
  · exact Wire.not_isMisfit_of_decode (fun _ _ _ => not_isMisfit_of_resolve) hdecode

end

section
variable (app : Application)

theorem not_isMisfit_of_dispatchAll (s : Session app.toKit) :
    ∀ v target, (s.dispatchAll app).1 = some (v, target) → v.isMisfit = false := by
  apply dispatchAll_induction app (motive := fun _ r => ∀ v target, r.1 = some (v, target) →
    v.isMisfit = false)
  · intro s _ v target h
    nomatch h
  · intro s v target hturn v' target' h
    injection h with h
    injection h with hv ht
    subst hv
    exact not_isMisfit_of_turn hturn
  · intro s m rest v connection hturn hdispatch v' target' h
    injection h with h
    injection h with hv ht
    subst hv
    exact (Connection.grounds_of_dispatch hdispatch).not_isMisfit (check_of_turn hturn)
  · intro s m rest connection _ _ ih
    exact ih

theorem not_isMisfit_of_process {s : Session app.toKit} {v : Violation}
    (h : (s.process app).1 = .error (.violation v)) : v.isMisfit = false := by
  rcases process_cases app s with ⟨v', target, t, hall, hprocess⟩ |
    ⟨t, -, ⟨-, hprocess⟩ | ⟨-, -, hprocess⟩ | ⟨-, -, hprocess⟩⟩
  · rw [hprocess, fail_fst] at h
    injection h with h
    injection h with h
    subst h
    exact not_isMisfit_of_dispatchAll app s v' target (congrArg Prod.fst hall)
  · rw [hprocess] at h
    nomatch h
  · rw [hprocess, fail_fst] at h
    injection h with h
    injection h with h
    subst h
    rfl
  · rw [hprocess] at h
    nomatch h

end

/-- What the reader gives fits its signature, uses whole words of the buffer and the first descriptors,
and is what the writer would have written, but for the padding of blobs.  So whatever is fed to a
session, it never says that the arguments of a request do not fit their signature. -/
theorem canonical_of_decode_and_not_isMisfit_of_feed :
    (∀ (buffer : List UInt8) (fds : List Descriptor) (resolve : Resolver) (m : Message)
      (consumed : Nat) (left : List Descriptor),
        Wire.decode buffer fds resolve = .message m consumed left →
          Wire.Canonical buffer fds resolve m consumed left) ∧
    ∀ (app : Application) (s : Session app.toKit) (v : Violation),
      (∀ bytes, (s.feed app bytes).1 = .error (.violation v) → v.isMisfit = false) ∧
        ∀ fds, (s.feedFds app fds).1 = .error (.violation v) → v.isMisfit = false := by
  refine ⟨fun _ _ _ _ _ _ h => Wire.canonical_of_decode h, fun app s v => ⟨?_, ?_⟩⟩
  · intro bytes h
    unfold feed at h
    split at h
    · rename_i hclosed
      injection h with h
      exact absurd h (ne_violation_of_requireOpen hclosed v)
    · exact not_isMisfit_of_process app h
  · intro fds h
    unfold feedFds at h
    split at h
    · rename_i hclosed
      injection h with h
      exact absurd h (ne_violation_of_requireOpen hclosed v)
    · dsimp only at h
      split at h
      · rw [fail_fst] at h
        injection h with h
        injection h with h
        subst h
        rfl
      · exact not_isMisfit_of_process app h

/-- An array and a descriptor, as they arrive: the array with padding that is not zero. -/
def sampleInput : List UInt8 :=
  [1, 0, 0, 0, 0, 0, 20, 0, 5, 0, 0, 0, 1, 2, 3, 4, 5, 9, 9, 9, 7]

/-- The signature that they are read by. -/
def sampleSignature : Signature := ⟨[{ name := "sizes", kind := .array }, { name := "data", kind := .fd }]⟩

theorem canonical_of_decode_sample :
    Wire.Canonical sampleInput [⟨3, "memory"⟩, ⟨4, "pipe"⟩] (fun _ _ => .ok sampleSignature)
        ⟨.display, 0, [.array [1, 2, 3, 4, 5], .fd ⟨3, "memory"⟩]⟩ 20 [⟨4, "pipe"⟩] ∧
      (bare.feed .bare [1, 0, 0, 0, 0, 0, 7, 0]).1 =
        .error (.violation (.wire (.malformedHeader 7))) ∧
      Violation.isMisfit (.wire (.malformedHeader 7)) = false := by
  have hfeed : (bare.feed .bare [1, 0, 0, 0, 0, 0, 7, 0]).1 =
      .error (.violation (.wire (.malformedHeader 7))) := by
    show (process .bare _).1 = _
    unfold process
    rw [dispatchAll_eq]
    rfl
  refine ⟨canonical_of_decode_and_not_isMisfit_of_feed.1 _ _ _ _ _ _ rfl, hfeed, ?_⟩
  exact (canonical_of_decode_and_not_isMisfit_of_feed.2 .bare bare _).1 _ hfeed

end Session

end Compositor.Sessions
