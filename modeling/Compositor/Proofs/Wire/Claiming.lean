import Compositor.Proofs.Wire.Waiting

/-
  Reading with the caller's queue of descriptors.

  A reader can work on the queue that its caller keeps: it takes one descriptor after the other from the
  front, once the body has been read, and gives up where the queue runs out.  What it has taken by then is
  lost (`claimEach`), so such a reader is all or nothing only if it never comes to that.  `attempt` is this
  reader.  It asks beforehand how many descriptors the signature wants, and the body keeps exactly
  that many places (`Cursor.countP_of_args`): `attempt_eq_decode` says that it does what `decode` does and
  leaves the queue alone where there is no message.

  `attempt_incremental` has what a caller may rely on who tries again whenever more has arrived.  Nothing is
  taken without a message, what is settled does not depend on what comes later, and a message is given
  exactly when its last byte and its last descriptor are there, for it is incomplete before.
-/

namespace Compositor.Wire

/-! ## The reader -/

/-- The outcome of a decode, apart from the queue of descriptors. -/
inductive Attempt where
  | incomplete
  | failed (error : Error)
  /-- A message and the bytes it used. -/
  | message (message : Message) (consumed : Nat)
deriving DecidableEq

/-- Puts descriptors into the places kept for them, and takes each of them from the queue at once.  Gives up
when there is none.  `args` has the arguments so far. -/
def claimEach (args : List Arg) : List (Option Arg) → List Descriptor → Option (List Arg) × List Descriptor
  | [], fds => (some args, fds)
  | some a :: pending, fds => claimEach (args ++ [a]) pending fds
  | none :: _, [] => (none, [])
  | none :: pending, fd :: fds => claimEach (args ++ [.fd fd]) pending fds

/-- Reads the message at the front of a buffer, and claims its descriptors from the queue. -/
def attempt (buffer : List UInt8) (fds : List Descriptor) (resolve : Resolver) : Attempt × List Descriptor :=
  match peekHeader buffer with
  | .error e => (.failed e, fds)
  | .ok none => (.incomplete, fds)
  | .ok (some header) =>
    let size := header.byteLength
    if buffer.length < size then (.incomplete, fds)
    else match ObjectId.ofRaw? header.object with
      | none => (.failed (.unknownObject 0), fds)
      | some object =>
        match resolve object header.opcode with
        | .error e => (.failed e, fds)
        | .ok signature =>
          if fds.length < signature.fdCount then (.incomplete, fds)
          else match Cursor.args size 0 signature.params ⟨(buffer.take size).drop headerSize, 0⟩ with
            | .error e => (.failed e, fds)
            | .ok (pending, c) =>
              if c.rest.isEmpty then
                match claimEach [] pending fds with
                | (none, left) => (.incomplete, left)
                | (some args, left) => (.message ⟨object, header.opcode, args⟩ size, left)
              else (.failed (.sizeMismatch size (headerSize + c.position)), fds)

/-! ## Claiming -/

/-- Where there are enough descriptors, one by one comes to all at once. -/
theorem claimEach_of_some {pending : List (Option Arg)} : ∀ {fds left : List Descriptor} {as : List Arg}
    (args : List Arg), claimFds pending fds = some (as, left) →
      claimEach args pending fds = (some (args ++ as), left) := by
  induction pending with
  | nil =>
    intro fds left as args h
    injection h with h
    injection h with has hleft
    subst has hleft
    rw [claimEach, List.append_nil]
  | cons v pending ih =>
    intro fds left as args h
    cases v with
    | some a =>
      obtain ⟨⟨as', left'⟩, hrest, heq⟩ := Option.map_eq_some_iff.1 h
      injection heq with has hleft
      subst has hleft
      rw [claimEach, ih _ hrest, List.append_assoc, List.singleton_append]
    | none =>
      cases fds with
      | nil => cases h
      | cons fd fds =>
        obtain ⟨⟨as', left'⟩, hrest, heq⟩ := Option.map_eq_some_iff.1 h
        injection heq with has hleft
        subst has hleft
        rw [claimEach, ih _ hrest, List.append_assoc, List.singleton_append]

/-! ## What the reader does -/

/-- An outcome as the reader on the caller's queue `fds` gives it: without a message, the queue is as it was. -/
def Decoded.onQueue (fds : List Descriptor) : Decoded → Attempt × List Descriptor
  | .incomplete => (.incomplete, fds)
  | .failed e => (.failed e, fds)
  | .message m consumed left => (.message m consumed, left)

/-- The queue never runs out once the reader has begun to claim, so it does what the pure reader does. -/
theorem attempt_eq_decode (buffer : List UInt8) (fds : List Descriptor) (resolve : Resolver) :
    attempt buffer fds resolve = (decode buffer fds resolve).onQueue fds := by
  unfold attempt decode
  cases peekHeader buffer with
  | error e => rfl
  | ok header? =>
    cases header? with
    | none => rfl
    | some header =>
      dsimp only
      by_cases hshort : buffer.length < header.byteLength
      · rw [if_pos hshort, if_pos (by rw [List.length_take]; omega)]
        rfl
      rw [if_neg hshort, if_neg (by rw [List.length_take]; omega)]
      cases ObjectId.ofRaw? header.object with
      | none => rfl
      | some object =>
        dsimp only
        cases resolve object header.opcode with
        | error e => rfl
        | ok signature =>
          dsimp only
          by_cases hmissing : fds.length < signature.fdCount
          · rw [if_pos hmissing, if_pos hmissing]
            rfl
          rw [if_neg hmissing, if_neg hmissing]
          unfold decodeBody
          cases hargs : Cursor.args header.byteLength 0 signature.params
              ⟨(buffer.take header.byteLength).drop headerSize, 0⟩ with
          | error e => rfl
          | ok read =>
            obtain ⟨pending, c⟩ := read
            dsimp only
            cases c.rest.isEmpty with
            | false => rfl
            | true =>
              -- the check of the queue has asked for as many descriptors as there are places
              have hcount : pending.countP (·.isNone) = signature.fdCount := Cursor.countP_of_args hargs
              have henough : pending.countP (·.isNone) ≤ fds.length := by omega
              obtain ⟨as, left, hclaim⟩ := exists_claimFds henough
              rw [claimEach_of_some [] hclaim, hclaim]
              rfl

theorem attempt_eq_incomplete_iff {buffer : List UInt8} {fds : List Descriptor} {resolve : Resolver} :
    (attempt buffer fds resolve).1 = .incomplete ↔ decode buffer fds resolve = .incomplete := by
  rw [attempt_eq_decode]
  cases decode buffer fds resolve with
  | incomplete => exact ⟨fun _ => rfl, fun _ => rfl⟩
  | failed e => simp [Decoded.onQueue]
  | message m consumed left => simp [Decoded.onQueue]

theorem attempt_of_incomplete {buffer : List UInt8} {fds : List Descriptor} {resolve : Resolver}
    (h : decode buffer fds resolve = .incomplete) : attempt buffer fds resolve = (.incomplete, fds) := by
  rw [attempt_eq_decode, h]
  rfl

theorem attempt_eq_message_iff {buffer : List UInt8} {fds : List Descriptor} {resolve : Resolver} {m : Message}
    {consumed : Nat} : (attempt buffer fds resolve).1 = .message m consumed ↔
      decode buffer fds resolve = .message m consumed (attempt buffer fds resolve).2 := by
  rw [attempt_eq_decode]
  cases decode buffer fds resolve with
  | incomplete => simp [Decoded.onQueue]
  | failed e => simp [Decoded.onQueue]
  | message m' consumed' left => simp [Decoded.onQueue]

/-! ## What is not enough for a message -/

/-- Fewer bytes than a header has are no header. -/
theorem peekHeader_of_lt {buffer : List UInt8} (h : buffer.length < headerSize) :
    peekHeader buffer = .ok none := by
  unfold peekHeader
  split
  · rename_i b0 b1 b2 b3 b4 b5 b6 b7 rest
    simp only [List.length_cons, headerSize] at h
    omega
  · rfl

section

variable {buffer : List UInt8} {fds left : List Descriptor} {resolve : Resolver} {m : Message} {consumed : Nat}

/-- Less than the bytes of a message is incomplete, whatever descriptors there are. -/
theorem decode_take_of_lt (h : decode buffer fds resolve = .message m consumed left) {n : Nat}
    (hn : n < consumed) (queue : List Descriptor) :
    decode (buffer.take n) queue resolve = .incomplete := by
  obtain ⟨header, signature, pending, position, r, rfl⟩ := decode_eq_message_iff.1 h
  have hcomplete := r.complete
  refine decode_eq_incomplete_iff.2 ?_
  by_cases hheader : n < headerSize
  · refine .inl (peekHeader_of_lt ?_)
    rw [List.length_take]
    omega
  · -- the header is there, and declares more
    refine .inr (.inl ⟨header, (peekHeader_take (by omega) (by omega)).trans r.header_eq, ?_⟩)
    rw [List.length_take]
    omega

/-- A message claims what its signature counts. -/
theorem Reads.length_descriptors {header : Header} {signature : Signature} {pending : List (Option Arg)}
    {position : Nat} (r : Reads buffer fds resolve header signature pending position m left) :
    m.descriptors.length = signature.fdCount :=
  ((Cursor.took_of_args r.body r.claimed).1.fdCount_eq).symm

/-- The bytes of a message with fewer descriptors than it has are incomplete, whatever bytes follow. -/
theorem decode_take_append_of_lt (h : decode buffer fds resolve = .message m consumed left) (more : List UInt8)
    {queue : List Descriptor} (hqueue : queue.length < m.descriptors.length) :
    decode (buffer.take consumed ++ more) queue resolve = .incomplete := by
  have hcanonical := canonical_of_decode h
  obtain ⟨header, signature, pending, position, r, rfl⟩ := decode_eq_message_iff.1 h
  have hcomplete := r.complete
  have hcount := r.length_descriptors
  have hawaits : AwaitsFds (buffer.take header.byteLength) queue resolve header m.object signature := by
    refine ⟨(peekHeader_take hcanonical.header_le hcomplete).trans r.header_eq, ?_, r.object, ?_, by omega⟩
    · rw [List.length_take]
      omega
    · rw [r.opcode]
      exact r.resolved
  exact decode_eq_incomplete_iff.2 (.inr (.inr ⟨header, m.object, signature, hawaits.append more⟩))

end

/-! ## Trying again as more arrives -/

/-- A decode is all or nothing, and what it gives does not depend on how the input was cut. -/
structure Incremental (buffer : List UInt8) (fds : List Descriptor) (resolve : Resolver) : Prop where
  /-- While more is needed, the queue is as it was. -/
  incomplete : (attempt buffer fds resolve).1 = .incomplete → (attempt buffer fds resolve).2 = fds
  /-- After an error, the queue is as it was. -/
  failed : ∀ e, (attempt buffer fds resolve).1 = .failed e → (attempt buffer fds resolve).2 = fds
  /-- A message takes its own descriptors from the front of the queue, and its bytes from the buffer. -/
  taken : ∀ m consumed, (attempt buffer fds resolve).1 = .message m consumed →
    fds = m.descriptors ++ (attempt buffer fds resolve).2 ∧ consumed ≤ buffer.length
  /-- What is not incomplete stays as it is when more arrives, and what has arrived is left over, in order. -/
  settled : (attempt buffer fds resolve).1 ≠ .incomplete → ∀ bytes more,
    attempt (buffer ++ bytes) (fds ++ more) resolve =
      ((attempt buffer fds resolve).1, (attempt buffer fds resolve).2 ++ more)
  /-- The bytes that have arrived are left over as well. -/
  behind : ∀ m consumed, (attempt buffer fds resolve).1 = .message m consumed → ∀ bytes,
    (buffer ++ bytes).drop consumed = buffer.drop consumed ++ bytes
  /-- Before the last byte of a message is there, it is incomplete. -/
  cut : ∀ m consumed, (attempt buffer fds resolve).1 = .message m consumed → ∀ n, n < consumed → ∀ queue,
    attempt (buffer.take n) queue resolve = (.incomplete, queue)
  /-- Before the last descriptor of a message is there, it is incomplete, whatever bytes follow. -/
  starved : ∀ m consumed, (attempt buffer fds resolve).1 = .message m consumed → ∀ bytes queue,
    queue.length < m.descriptors.length →
      attempt (buffer.take consumed ++ bytes) queue resolve = (.incomplete, queue)

/-- Every decode is all or nothing and can be tried again as more arrives. -/
theorem attempt_incremental (buffer : List UInt8) (fds : List Descriptor) (resolve : Resolver) :
    Incremental buffer fds resolve where
  incomplete h := by
    rw [attempt_of_incomplete (attempt_eq_incomplete_iff.1 h)]
  failed e h := by
    rw [attempt_eq_decode] at h ⊢
    cases hdecode : decode buffer fds resolve with
    | incomplete => rfl
    | failed e' => rfl
    | message m consumed left =>
      rw [hdecode] at h
      cases h
  taken m consumed h := by
    have hcanonical := canonical_of_decode (attempt_eq_message_iff.1 h)
    exact ⟨hcanonical.fds_eq, hcanonical.le_length⟩
  settled h bytes more := by
    have hdecode : decode buffer fds resolve ≠ .incomplete := fun hd => h (attempt_eq_incomplete_iff.2 hd)
    rw [attempt_eq_decode, attempt_eq_decode, decode_append hdecode]
    cases hd : decode buffer fds resolve with
    | incomplete => exact absurd hd hdecode
    | failed e => rfl
    | message m consumed left => rfl
  behind m consumed h bytes :=
    List.drop_append_of_le_length (canonical_of_decode (attempt_eq_message_iff.1 h)).le_length
  cut m consumed h n hn queue :=
    attempt_of_incomplete (decode_take_of_lt (attempt_eq_message_iff.1 h) hn queue)
  starved m consumed h bytes queue hqueue :=
    attempt_of_incomplete (decode_take_append_of_lt (attempt_eq_message_iff.1 h) bytes hqueue)

-- eight bytes and a descriptor are a message; a ninth byte and a second descriptor are left for the next one
example : attempt [1, 0, 0, 0, 0, 0, 8, 0, 5] [⟨3, "shm"⟩, ⟨4, "keymap"⟩]
      (fun _ _ => .ok ⟨[{ name := "pool", kind := .fd }]⟩) =
    (.message ⟨.display, 0, [.fd ⟨3, "shm"⟩]⟩ 8, [⟨4, "keymap"⟩]) := by
  decide

end Compositor.Wire
