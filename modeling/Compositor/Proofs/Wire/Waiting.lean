import Compositor.Proofs.Wire.Canonical
import Compositor.Proofs.Wire.Extension

/-
  What the reader waits for.

  A decode that is incomplete needs more bytes or more descriptors.  `decode_eq_incomplete_iff` says which:
  a header that is not there yet, a frame that is shorter than it declares, or, behind a whole frame whose
  request is known, as many descriptors as its signature claims.  Nothing else is waited for: once the
  descriptors are there, the body is read to the end or fails (`decodeBody_ne_incomplete`), since the reader
  keeps exactly one place for each descriptor parameter (`Cursor.countP_of_args`).  So a message does not
  depend on anything but its own bytes and descriptors: `decode_take`.
-/

namespace Compositor.Wire

/-! ## The places of descriptors -/

/-- Arguments that take no descriptor belong to parameters of another kind. -/
theorem Param.Accepts.kind_ne_fd {p : Param} {a : Arg} (h : p.Accepts a) (hfd : a.fd? = none) :
    (p.kind == .fd) = false := by
  rw [h.kind_eq]
  cases a with
  | fd d => cases hfd
  | _ => rfl

/-- The reader keeps a place for each descriptor parameter. -/
theorem Cursor.countP_of_args {declared : Nat} {ps : List Param} : ∀ {index : Nat} {c c' : Cursor}
    {pending : List (Option Arg)}, args declared index ps c = .ok (pending, c') →
      pending.countP (·.isNone) = ps.countP (·.kind == .fd) := by
  induction ps with
  | nil =>
    intro index c c' pending h
    injection h with h
    injection h with hp _
    rw [← hp]
    rfl
  | cons p ps ih =>
    intro index c c' pending h
    unfold args at h
    obtain ⟨⟨v, c1⟩, harg, h⟩ := exists_of_bind_eq_ok h
    dsimp only at h
    obtain ⟨⟨vs, c2⟩, hargs, h⟩ := exists_of_bind_eq_ok h
    injection h with h
    injection h with hp _
    subst hp
    rw [List.countP_cons, List.countP_cons, ih hargs]
    rcases took_of_arg harg with ⟨rfl, hk, -⟩ | ⟨a, rfl, hfd, ha, -⟩
    · rw [hk]
      rfl
    · rw [ha.kind_ne_fd hfd]
      rfl

/-- Enough descriptors fill all places. -/
theorem exists_claimFds {pending : List (Option Arg)} : ∀ {fds : List Descriptor},
    pending.countP (·.isNone) ≤ fds.length → ∃ as left, claimFds pending fds = some (as, left) := by
  induction pending with
  | nil =>
    intro fds _
    exact ⟨[], fds, rfl⟩
  | cons v pending ih =>
    intro fds h
    rw [List.countP_cons] at h
    cases v with
    | some a =>
      have hrest : pending.countP (·.isNone) ≤ fds.length := h
      obtain ⟨as, left, hclaim⟩ := ih hrest
      refine ⟨a :: as, left, ?_⟩
      unfold claimFds
      rw [hclaim]
      rfl
    | none =>
      change pending.countP (·.isNone) + 1 ≤ fds.length at h
      cases fds with
      | nil =>
        rw [List.length_nil] at h
        omega
      | cons d fds =>
        rw [List.length_cons] at h
        have hrest : pending.countP (·.isNone) ≤ fds.length := by omega
        obtain ⟨as, left, hclaim⟩ := ih hrest
        refine ⟨.fd d :: as, left, ?_⟩
        show (claimFds pending fds).map _ = _
        rw [hclaim]
        rfl

/-- With enough descriptors a body is read to the end, or fails. -/
theorem decodeBody_ne_incomplete {signature : Signature} {fds : List Descriptor}
    (h : signature.fdCount ≤ fds.length) (object : ObjectId) (opcode : UInt16) (size : Nat)
    (body : List UInt8) : decodeBody signature object opcode size body fds ≠ .incomplete := by
  unfold decodeBody
  split
  · exact nofun
  · rename_i pending c hargs
    have hcount : pending.countP (·.isNone) = signature.fdCount := Cursor.countP_of_args hargs
    have henough : pending.countP (·.isNone) ≤ fds.length := by omega
    obtain ⟨as, left, hclaim⟩ := exists_claimFds henough
    split
    · rw [hclaim]
      exact nofun
    · exact nofun

/-! ## Incomplete messages -/

/-- A header is missing only where there is no room for one. -/
theorem length_lt_of_peekHeader {buffer : List UInt8} (h : peekHeader buffer = .ok none) :
    buffer.length < headerSize := by
  unfold peekHeader at h
  split at h
  · dsimp only at h
    split at h
    · nomatch h
    · nomatch h
  · rename_i hshort
    match buffer with
    | [] | [_] | [_, _] | [_, _, _] | [_, _, _, _] | [_, _, _, _, _] | [_, _, _, _, _, _]
    | [_, _, _, _, _, _, _] => simp [headerSize]
    | b0 :: b1 :: b2 :: b3 :: b4 :: b5 :: b6 :: b7 :: rest =>
      exact absurd rfl (hshort b0 b1 b2 b3 b4 b5 b6 b7 rest)

/-- A whole frame of a known request is at the front of a buffer, and some of its descriptors are missing. -/
structure AwaitsFds (buffer : List UInt8) (fds : List Descriptor) (resolve : Resolver) (header : Header)
    (target : ObjectId) (signature : Signature) : Prop where
  header_eq : peekHeader buffer = .ok (some header)
  complete : header.byteLength ≤ buffer.length
  target_eq : ObjectId.ofRaw? header.object = some target
  resolved : resolve target header.opcode = .ok signature
  missing : fds.length < signature.fdCount

/-- The three ways in which a decode is incomplete: there is no header, there is less than it declares, or
descriptors are missing. -/
theorem decode_eq_incomplete_iff {buffer : List UInt8} {fds : List Descriptor} {resolve : Resolver} :
    decode buffer fds resolve = .incomplete ↔ peekHeader buffer = .ok none ∨
      (∃ header, peekHeader buffer = .ok (some header) ∧ buffer.length < header.byteLength) ∨
        ∃ header target signature, AwaitsFds buffer fds resolve header target signature := by
  constructor
  · intro h
    unfold decode at h
    split at h
    · cases h
    · rename_i hpeek
      exact .inl hpeek
    · rename_i header hpeek
      dsimp only at h
      rw [List.length_take] at h
      split at h
      · rename_i hshort
        exact .inr (.inl ⟨header, hpeek, by omega⟩)
      · rename_i hlength
        split at h
        · cases h
        · rename_i target htarget
          split at h
          · cases h
          · rename_i signature hsignature
            split at h
            · rename_i hmissing
              exact .inr (.inr ⟨header, target, signature, hpeek, by omega, htarget, hsignature, hmissing⟩)
            · rename_i henough
              exact absurd h (decodeBody_ne_incomplete (Nat.le_of_not_lt henough) _ _ _ _)
  · rintro (hpeek | ⟨header, hpeek, hshort⟩ | ⟨header, target, signature, h⟩)
    · unfold decode
      rw [hpeek]
    · unfold decode
      rw [hpeek]
      dsimp only
      rw [List.length_take, if_pos (by omega)]
    · have hcomplete := h.complete
      unfold decode
      rw [h.header_eq]
      dsimp only
      rw [List.length_take, if_neg (by omega), h.target_eq]
      dsimp only
      rw [h.resolved]
      dsimp only
      rw [if_pos h.missing]

/-- Further bytes do not help where descriptors are missing. -/
theorem AwaitsFds.append {buffer : List UInt8} {fds : List Descriptor} {resolve : Resolver} {header : Header}
    {target : ObjectId} {signature : Signature}
    (h : AwaitsFds buffer fds resolve header target signature) (more : List UInt8) :
    AwaitsFds (buffer ++ more) fds resolve header target signature := by
  have hpeek : peekHeader (buffer ++ more) = peekHeader buffer :=
    peekHeader_append (by rw [h.header_eq]; exact nofun) more
  refine ⟨hpeek.trans h.header_eq, ?_, h.target_eq, h.resolved, h.missing⟩
  have hcomplete := h.complete
  rw [List.length_append]
  omega

/-! ## Whole messages -/

/-- The header stands in the first eight bytes. -/
theorem peekHeader_take {buffer : List UInt8} {n : Nat} (hn : headerSize ≤ n) (hlen : n ≤ buffer.length) :
    peekHeader (buffer.take n) = peekHeader buffer := by
  have hpeek : peekHeader (buffer.take n) ≠ .ok none := by
    intro hnone
    have hshort := length_lt_of_peekHeader hnone
    rw [List.length_take] at hshort
    omega
  have happend := peekHeader_append hpeek (buffer.drop n)
  rw [List.take_append_drop] at happend
  exact happend.symm

/-- The bytes that a message used and the descriptors that it claimed decode to it by themselves, and
nothing is left. -/
theorem decode_take {buffer : List UInt8} {fds left : List Descriptor} {resolve : Resolver} {m : Message}
    {consumed : Nat} (h : decode buffer fds resolve = .message m consumed left) :
    decode (buffer.take consumed) m.descriptors resolve = .message m consumed [] := by
  have hcanonical := canonical_of_decode h
  obtain ⟨header, signature, pending, position, r, rfl⟩ := decode_eq_message_iff.1 h
  have hcomplete := r.complete
  have hcount : pending.countP (·.isNone) = signature.fdCount := Cursor.countP_of_args r.body
  have henough : signature.fdCount ≤ m.descriptors.length := by
    obtain ⟨s, hresolve, -, hfds⟩ := hcanonical.accepted
    obtain rfl : signature = s := Except.ok.inj (r.resolved.symm.trans hresolve)
    have := r.enough
    rw [hfds, List.length_take]
    omega
  -- what is left over does not change what the places are filled with
  have hclaimed : claimFds pending m.descriptors = some (m.args, []) := by
    obtain ⟨as, more, hclaim⟩ := exists_claimFds (hcount ▸ henough)
    have happend := claimFds_append hclaim (g := left)
    rw [← hcanonical.fds_eq, r.claimed] at happend
    injection happend with happend
    injection happend with hargs hleft
    obtain rfl : more = [] := List.append_cancel_right (hleft.symm.trans (List.nil_append left).symm)
    rw [hclaim, hargs]
  refine decode_eq_message_iff.2 ⟨header, signature, pending, position, ?_, rfl⟩
  refine ⟨?_, ?_, r.object, r.opcode, r.resolved, henough, ?_, hclaimed⟩
  · exact (peekHeader_take hcanonical.header_le hcomplete).trans r.header_eq
  · rw [List.length_take]
    omega
  · rw [List.take_take, Nat.min_self]
    exact r.body

end Compositor.Wire
