import Compositor.Wire.Frame
import Compositor.Wire.Signature

/-
  Reading messages from a byte stream.

  `peekHeader` reads a header and nothing else; `decode` reads the message at the front of a buffer
  by the signature that its target has.  A decode is all or nothing: only `Decoded.message` says how
  many bytes were used and which descriptors are left, so an incomplete or a failed decode cannot
  take anything.  `decode_message_bounds` says that a message uses at least a header and at most the
  buffer.
-/

namespace Compositor.Wire

/-! ## Headers -/

/-- The fields of a header, its target not yet looked up. -/
structure Header where
  object : UInt32
  opcode : UInt16
  size : UInt16
deriving DecidableEq

/-- The declared size, as a number of bytes. -/
def Header.byteLength (h : Header) : Nat := h.size.toNat

/-- The header at the front of a buffer, if the buffer is long enough to hold one. -/
def peekHeader : List UInt8 → Except Error (Option Header)
  | b0 :: b1 :: b2 :: b3 :: b4 :: b5 :: b6 :: b7 :: _ =>
    let word := Word.ofBytes b4 b5 b6 b7
    let size := UInt16.ofNat (word.toNat / 0x10000)
    if size.toNat < headerSize ∨ size.toNat % 4 ≠ 0 then .error (.malformedHeader size)
    else .ok (some ⟨Word.ofBytes b0 b1 b2 b3, UInt16.ofNat word.toNat, size⟩)
  | _ => .ok none

/-- A header that is read declares at least its own size, in whole words. -/
theorem peekHeader_bounds {buffer : List UInt8} {h : Header}
    (hh : peekHeader buffer = .ok (some h)) : 8 ≤ h.byteLength ∧ h.byteLength % 4 = 0 := by
  unfold peekHeader at hh
  split at hh
  · dsimp only at hh
    split at hh
    · nomatch hh
    · rename_i hn
      injection hh with hh
      injection hh with hh
      subst hh
      simp only [headerSize] at hn
      unfold Header.byteLength
      dsimp only
      omega
  · nomatch hh

/-! ## The body of a message -/

/-- A place in the body of a message: what is still to be read, and how much was. -/
structure Cursor where
  rest : List UInt8
  position : Nat

namespace Cursor

/-- Reads a word.  `declared` is the size in the header, for the error. -/
def word (declared : Nat) (c : Cursor) : Except Error (UInt32 × Cursor) :=
  match c.rest with
  | b0 :: b1 :: b2 :: b3 :: rest => .ok (Word.ofBytes b0 b1 b2 b3, ⟨rest, c.position + 4⟩)
  | _ => .error (.sizeMismatch declared (headerSize + c.position + 4))

/-- Reads a length and that many bytes, and skips the padding. -/
def blob (declared : Nat) (overrun : UInt32 → Error) (c : Cursor) :
    Except Error (List UInt8 × Cursor) := do
  let (len, c) ← c.word declared
  if padded len.toNat ≤ c.rest.length then
    .ok (c.rest.take len.toNat,
      ⟨c.rest.drop (padded len.toNat), c.position + padded len.toNat⟩)
  else .error (overrun len)

/-- The text that the bytes of a string argument hold: a last NUL, none before it, UTF-8 between. -/
def textOf? (raw : List UInt8) : Option String :=
  match raw.getLast? with
  | some 0 => if raw.dropLast.contains 0 then none else Text.ofUtf8? raw.dropLast
  | _ => none

/-- Reads a string; a length of zero is the null string. -/
def string (declared index : Nat) (nullable : Bool) (c : Cursor) :
    Except Error (Option String × Cursor) := do
  let (raw, c) ← c.blob declared (.stringOverrun index)
  if raw.isEmpty then
    if nullable then .ok (none, c) else .error (.nullArgument index)
  else match textOf? raw with
    | some s => .ok (some s, c)
    | none => .error (.invalidString index)

/-- Reads the id of a new object. -/
def newId (declared index : Nat) (c : Cursor) : Except Error (ObjectId × Cursor) := do
  let (raw, c) ← c.word declared
  match ObjectId.ofRaw? raw with
  | some id => .ok (id, c)
  | none => .error (.invalidNewId index)

/-- Reads one argument.  A descriptor takes no bytes; its place is kept by `none`. -/
def arg (declared index : Nat) (p : Param) (c : Cursor) : Except Error (Option Arg × Cursor) :=
  match p.kind with
  | .int => do
    let (raw, c) ← c.word declared
    .ok (some (.int raw.toInt32), c)
  | .uint => do
    let (raw, c) ← c.word declared
    .ok (some (.uint raw), c)
  | .fixed => do
    let (raw, c) ← c.word declared
    .ok (some (.fixed ⟨raw.toInt32⟩), c)
  | .string => do
    let (s, c) ← c.string declared index p.nullable
    .ok (some (.string s), c)
  | .object => do
    let (raw, c) ← c.word declared
    let id := ObjectId.ofRaw? raw
    if id.isNone && ! p.nullable then .error (.nullArgument index)
    else .ok (some (.object id), c)
  | .newId =>
    if p.isGeneric then do
      let (interface?, c) ← c.string declared index false
      match interface? with
      | none => .error (.nullArgument index)
      | some interface =>
        let (version, c) ← c.word declared
        let (id, c) ← c.newId declared index
        .ok (some (.genericNewId interface version id), c)
    else do
      let (id, c) ← c.newId declared index
      .ok (some (.newId id), c)
  | .array => do
    let (data, c) ← c.blob declared (.arrayOverrun index)
    .ok (some (.array data), c)
  | .fd => .ok (none, c)

/-- Reads arguments, the first of which stands at position `index`. -/
def args (declared : Nat) (index : Nat) : List Param → Cursor → Except Error (List (Option Arg) × Cursor)
  | [], c => .ok ([], c)
  | p :: ps, c => do
    let (a, c) ← c.arg declared index p
    let (as, c) ← args declared (index + 1) ps c
    .ok (a :: as, c)

end Cursor

/-- Puts descriptors into the places kept for them, oldest first. -/
def claimFds : List (Option Arg) → List Descriptor → Option (List Arg × List Descriptor)
  | [], fds => some ([], fds)
  | some a :: as, fds => (claimFds as fds).map fun (args, left) => (a :: args, left)
  | none :: _, [] => none
  | none :: as, fd :: fds => (claimFds as fds).map fun (args, left) => (.fd fd :: args, left)

/-! ## Messages -/

/-- Finds the signature of a method of an object. -/
abbrev Resolver := ObjectId → UInt16 → Except Error Signature

/-- The outcome of a decode. -/
inductive Decoded where
  /-- More bytes or descriptors are needed. -/
  | incomplete
  | failed (error : Error)
  /-- A message, the bytes it used, and the descriptors that are left. -/
  | message (message : Message) (consumed : Nat) (fds : List Descriptor)
deriving DecidableEq

/-- Reads the arguments of a message from its body. -/
def decodeBody (signature : Signature) (object : ObjectId) (opcode : UInt16) (size : Nat)
    (body : List UInt8) (fds : List Descriptor) : Decoded :=
  match Cursor.args size 0 signature.params ⟨body, 0⟩ with
  | .error e => .failed e
  | .ok (pending, c) =>
    if c.rest.isEmpty then
      match claimFds pending fds with
      | none => .incomplete
      | some (args, left) => .message ⟨object, opcode, args⟩ size left
    else .failed (.sizeMismatch size (headerSize + c.position))

/-- Reads the message at the front of a buffer. -/
def decode (buffer : List UInt8) (fds : List Descriptor) (resolve : Resolver) : Decoded :=
  match peekHeader buffer with
  | .error e => .failed e
  | .ok none => .incomplete
  | .ok (some header) =>
    let size := header.byteLength
    let frame := buffer.take size
    if frame.length < size then .incomplete
    else match ObjectId.ofRaw? header.object with
      | none => .failed (.unknownObject 0)
      | some object =>
        match resolve object header.opcode with
        | .error e => .failed e
        | .ok signature =>
          if fds.length < signature.fdCount then .incomplete
          else decodeBody signature object header.opcode size (frame.drop headerSize) fds

/-- A message uses the size it declares. -/
theorem decodeBody_consumed {signature : Signature} {object : ObjectId} {opcode : UInt16} {size : Nat}
    {body : List UInt8} {fds left : List Descriptor} {m : Message} {consumed : Nat}
    (h : decodeBody signature object opcode size body fds = .message m consumed left) :
    consumed = size := by
  unfold decodeBody at h
  split at h
  · nomatch h
  · split at h
    · split at h
      · nomatch h
      · injection h with _ h; exact h.symm
    · nomatch h

/-- A message uses at least a header and at most the buffer, in whole words. -/
theorem decode_message_bounds {buffer : List UInt8} {fds left : List Descriptor} {resolve : Resolver}
    {m : Message} {consumed : Nat} (h : decode buffer fds resolve = .message m consumed left) :
    8 ≤ consumed ∧ consumed ≤ buffer.length ∧ consumed % 4 = 0 := by
  unfold decode at h
  split at h
  · nomatch h
  · nomatch h
  · rename_i header hh
    have hb := peekHeader_bounds hh
    dsimp only at h
    split at h
    · nomatch h
    · rename_i hlen
      split at h
      · nomatch h
      · split at h
        · nomatch h
        · split at h
          · nomatch h
          · have hc := decodeBody_consumed h
            subst hc
            rw [List.length_take] at hlen
            omega

end Compositor.Wire
