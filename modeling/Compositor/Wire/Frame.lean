import Compositor.Text.Utf8
import Compositor.Wire.Error
import Compositor.Wire.Word

/-
  Frames: the bytes of a message.

  A frame is a header of two words, the object and then size and opcode, followed by the arguments.
  One word each for numbers and ids; a length word, the bytes and padding for texts and arrays; none
  for descriptors.  `Message.frame` is the frame, `length_frame` its length, and `Message.fault?`
  says what stands in the way of sending it within a size limit.
-/

namespace Compositor.Wire

/-- The bytes of a header. -/
def headerSize : Nat := 8

/-- The largest size that a header can declare in whole words. -/
def maxMessageSize : Nat := 0xFFFC

/-! ## Arguments -/

/-- A length word, the bytes, and zeros up to whole words. -/
def blob (data : List UInt8) : List UInt8 :=
  Word.bytes (UInt32.ofNat data.length) ++ data ++ List.replicate (padding data.length) 0

/-- A text as it is stored in a blob: its bytes and a NUL. -/
def nulTerminated (s : String) : List UInt8 := Text.utf8 s ++ [0]

/-- The bytes of an argument. -/
def Arg.bytes : Arg → List UInt8
  | .int value => Word.bytes value.toUInt32
  | .uint value => Word.bytes value
  | .fixed value => Word.bytes value.raw.toUInt32
  | .string none => Word.bytes 0
  | .string (some s) => blob (nulTerminated s)
  | .object none => Word.bytes 0
  | .object (some id) => Word.bytes id.raw
  | .newId id => Word.bytes id.raw
  | .genericNewId interface version id =>
    blob (nulTerminated interface) ++ Word.bytes version ++ Word.bytes id.raw
  | .array data => blob data
  | .fd _ => []

/-- The number of bytes of an argument. -/
def Arg.size : Arg → Nat
  | .string (some s) => 4 + padded (s.utf8ByteSize + 1)
  | .genericNewId interface _ _ => 4 + padded (interface.utf8ByteSize + 1) + 8
  | .array data => 4 + padded data.length
  | .fd _ => 0
  | _ => 4

theorem length_blob (data : List UInt8) : (blob data).length = 4 + padded data.length := by
  have := add_padding data.length
  simp only [blob, List.length_append, Word.length_bytes, List.length_replicate]
  omega

theorem length_utf8 (s : String) : (Text.utf8 s).length = s.utf8ByteSize := rfl

theorem length_nulTerminated (s : String) : (nulTerminated s).length = s.utf8ByteSize + 1 := by
  simp [nulTerminated, length_utf8]

theorem Arg.length_bytes (a : Arg) : a.bytes.length = a.size := by
  cases a with
  | string v => cases v <;> simp [Arg.bytes, Arg.size, length_blob, length_nulTerminated]
  | object v => cases v <;> simp [Arg.bytes, Arg.size]
  | genericNewId => simp [Arg.bytes, Arg.size, length_blob, length_nulTerminated]
  | array => simp [Arg.bytes, Arg.size, length_blob]
  | _ => simp [Arg.bytes, Arg.size]

/-- Every argument takes whole words. -/
theorem Arg.size_mod (a : Arg) : a.size % 4 = 0 := by
  cases a with
  | string v =>
    cases v with
    | none => rfl
    | some s =>
      have := padded_mod (s.utf8ByteSize + 1)
      simp only [Arg.size]; omega
  | genericNewId interface _ _ =>
    have := padded_mod (interface.utf8ByteSize + 1)
    simp only [Arg.size]; omega
  | array data =>
    have := padded_mod data.length
    simp only [Arg.size]; omega
  | _ => simp [Arg.size]

/-! ## Messages -/

/-- The bytes of a message's arguments. -/
def Message.body (m : Message) : List UInt8 := m.args.flatMap Arg.bytes

/-- The number of bytes of arguments one after the other. -/
def argsSize : List Arg → Nat
  | [] => 0
  | arg :: args => arg.size + argsSize args

/-- The number of bytes of a message, header included. -/
def Message.size (m : Message) : Nat := headerSize + argsSize m.args

/-- The second word of a header: the size in the upper half, the opcode in the lower. -/
def headerWord (size : Nat) (opcode : UInt16) : UInt32 := UInt32.ofNat (size * 0x10000 + opcode.toNat)

/-- The bytes of a message. -/
def Message.frame (m : Message) : List UInt8 :=
  Word.bytes m.object.raw ++ Word.bytes (headerWord m.size m.opcode) ++ m.body

theorem argsSize_mod (args : List Arg) : argsSize args % 4 = 0 := by
  induction args with
  | nil => rfl
  | cons arg args ih =>
    have := arg.size_mod
    rw [argsSize]
    omega

theorem length_flatMap_bytes (args : List Arg) :
    (args.flatMap Arg.bytes).length = argsSize args := by
  induction args with
  | nil => rfl
  | cons a args ih => simp [List.flatMap_cons, Arg.length_bytes, argsSize, ih]

theorem Message.length_frame (m : Message) : m.frame.length = m.size := by
  unfold Message.frame Message.body Message.size headerSize
  rw [List.length_append, List.length_append, length_flatMap_bytes, Word.length_bytes,
    Word.length_bytes]

/-! ## What stands in the way of sending a message -/

/-- A text cannot be sent with a NUL inside, nor when it alone passes the limit. -/
def textFault? (limit index : Nat) (s : String) : Option Error :=
  if hasNul s then some (.invalidString index)
  else if limit < padded (s.utf8ByteSize + 1) then
    some (.messageTooLarge (s.utf8ByteSize + 1) limit)
  else none

/-- What is wrong with the argument at position `index` under a size limit. -/
def Arg.fault? (limit index : Nat) : Arg → Option Error
  | .string (some s) => textFault? limit index s
  | .genericNewId interface _ _ => textFault? limit index interface
  | .array data =>
    if limit < padded data.length then some (.messageTooLarge data.length limit) else none
  | _ => none

/-- The first fault among arguments, the first of which stands at `index`. -/
def argFaultFrom (limit index : Nat) : List Arg → Option Error
  | [] => none
  | arg :: args =>
    match arg.fault? limit index with
    | some e => some e
    | none => argFaultFrom limit (index + 1) args

/-- What is wrong with a message under a size limit: a faulty argument, or else its size. -/
def Message.fault? (limit : Nat) (m : Message) : Option Error :=
  match argFaultFrom limit 0 m.args with
  | some e => some e
  | none => if limit < m.size then some (.messageTooLarge m.size limit) else none

end Compositor.Wire
