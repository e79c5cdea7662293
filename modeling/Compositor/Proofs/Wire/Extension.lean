import Compositor.Wire.Reader

/-
  More input does not change what was read.

  A buffer grows while its front is being read.  Once the reader has made up its mind, with a message or
  with an error, further bytes and descriptors are only left over: `decode_append`.  What it waits for
  can come later, so `Decoded.incomplete` alone is left open.
-/

namespace Compositor.Wire

/-- The same outcome with more descriptors waiting behind it. -/
def Decoded.withFds (g : List Descriptor) : Decoded → Decoded
  | .incomplete => .incomplete
  | .failed e => .failed e
  | .message m consumed left => .message m consumed (left ++ g)

/-- A header that is there stays as it is. -/
theorem peekHeader_append {buffer : List UInt8} (h : peekHeader buffer ≠ .ok none) (t : List UInt8) :
    peekHeader (buffer ++ t) = peekHeader buffer := by
  unfold peekHeader at h
  split at h
  · rfl
  · exact absurd rfl h

/-- Descriptors that are claimed come off the front. -/
theorem claimFds_append {left g : List Descriptor} {pending : List (Option Arg)} :
    ∀ {fds : List Descriptor} {as : List Arg}, claimFds pending fds = some (as, left) →
      claimFds pending (fds ++ g) = some (as, left ++ g) := by
  induction pending with
  | nil =>
    intro fds as h
    injection h with h
    injection h with ha hl
    subst ha hl
    rfl
  | cons a pending ih =>
    intro fds as h
    cases a with
    | some a =>
      obtain ⟨⟨as', left'⟩, hrest, heq⟩ := Option.map_eq_some_iff.1 h
      injection heq with ha hl
      subst ha hl
      unfold claimFds
      rw [ih hrest]
      rfl
    | none =>
      cases fds with
      | nil => nomatch h
      | cons d fds =>
        obtain ⟨⟨as', left'⟩, hrest, heq⟩ := Option.map_eq_some_iff.1 h
        injection heq with ha hl
        subst ha hl
        show (claimFds pending (fds ++ g)).map _ = _
        rw [ih hrest]
        rfl

theorem decodeBody_append {signature : Signature} {object : ObjectId} {opcode : UInt16} {size : Nat}
    {body : List UInt8} {fds : List Descriptor}
    (h : decodeBody signature object opcode size body fds ≠ .incomplete) (g : List Descriptor) :
    decodeBody signature object opcode size body (fds ++ g) =
      (decodeBody signature object opcode size body fds).withFds g := by
  unfold decodeBody at h ⊢
  cases hargs : Cursor.args size 0 signature.params ⟨body, 0⟩ with
  | error e => rfl
  | ok p =>
    obtain ⟨pending, c⟩ := p
    rw [hargs] at h
    dsimp only at h ⊢
    split
    · rename_i hrest
      rw [if_pos hrest] at h
      cases hclaim : claimFds pending fds with
      | none =>
        rw [hclaim] at h
        exact absurd rfl h
      | some q =>
        obtain ⟨as, left⟩ := q
        rw [claimFds_append hclaim]
        rfl
    · rfl

/-- What the reader has made up its mind about stays as it is when more arrives. -/
theorem decode_append {buffer : List UInt8} {fds : List Descriptor} {resolve : Resolver}
    (h : decode buffer fds resolve ≠ .incomplete) (t : List UInt8) (g : List Descriptor) :
    decode (buffer ++ t) (fds ++ g) resolve = (decode buffer fds resolve).withFds g := by
  have hpeek : peekHeader buffer ≠ .ok none := by
    intro hnone
    apply h
    unfold decode
    rw [hnone]
  unfold decode at h ⊢
  rw [peekHeader_append hpeek]
  cases hheader : peekHeader buffer with
  | error e => rfl
  | ok header? =>
    cases header? with
    | none => exact absurd hheader hpeek
    | some header =>
      rw [hheader] at h
      dsimp only at h ⊢
      split at h
      · exact absurd rfl h
      · -- the frame is complete, so it is the same in the longer buffer
        rename_i hlen
        have hle : header.byteLength ≤ buffer.length := by
          rw [List.length_take] at hlen
          omega
        rw [List.take_append_of_le_length hle, if_neg hlen, if_neg hlen]
        cases hobject : ObjectId.ofRaw? header.object with
        | none => rfl
        | some object =>
          rw [hobject] at h
          dsimp only at h ⊢
          cases hsig : resolve object header.opcode with
          | error e => rfl
          | ok signature =>
            rw [hsig] at h
            dsimp only at h ⊢
            split at h
            · exact absurd rfl h
            · rename_i hfds
              rw [if_neg hfds, if_neg (by rw [List.length_append]; omega)]
              exact decodeBody_append h g

end Compositor.Wire
