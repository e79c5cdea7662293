import Compositor.Wire.Frame

/-
  The outbound queue of a connection: encoded messages, and beside them their descriptors.

  `Outbox.push` takes a whole message or refuses it; there is no third outcome, so the bytes are always
  a sequence of whole frames.  The queue is seen through `bytes` and `fds`: `bytes_push` and `fds_push`
  say what a message adds to them, and `push_eq_ok_iff` when it is taken.
-/

namespace Compositor.Wire

/-- Encoded messages waiting to be sent, and the descriptors that go with them. -/
structure Outbox where
  /-- The largest message that is taken. -/
  limit : Nat
  /-- The frames that wait, newest first. -/
  frames : List (List UInt8) := []
  /-- The descriptors that wait, message by message, newest first. -/
  fdGroups : List (List Descriptor) := []
deriving DecidableEq

namespace Outbox

/-- An empty queue for messages of at most `limit` bytes, or as many as a header can declare. -/
def withLimit (limit : Nat) : Outbox := ⟨min limit maxMessageSize, [], []⟩

/-- An empty queue for messages of any size that a header can declare. -/
def empty : Outbox := withLimit maxMessageSize

/-- The bytes that wait, oldest first. -/
def bytes (o : Outbox) : List UInt8 := o.frames.reverse.flatten

/-- The descriptors that wait, oldest first. -/
def fds (o : Outbox) : List Descriptor := o.fdGroups.reverse.flatten

/-- Are there no bytes waiting?  A frame is never empty. -/
def isEmpty (o : Outbox) : Bool := o.frames.isEmpty

/-- The queue with one more message and its descriptors. -/
def append (o : Outbox) (m : Message) : Outbox :=
  { o with frames := m.frame :: o.frames, fdGroups := m.descriptors :: o.fdGroups }

/-- Appends one message and its descriptors; the arguments are not held against any signature. -/
def push (o : Outbox) (m : Message) : Except Error Outbox :=
  match m.fault? o.limit with
  | some e => .error e
  | none => .ok (o.append m)

/-- Hands over all bytes. -/
def takeBytes (o : Outbox) : List UInt8 × Outbox := (o.bytes, { o with frames := [] })

/-- Hands over all descriptors, oldest first. -/
def takeFds (o : Outbox) : List Descriptor × Outbox := (o.fds, { o with fdGroups := [] })

@[simp] theorem bytes_append (o : Outbox) (m : Message) : (o.append m).bytes = o.bytes ++ m.frame := by
  simp [bytes, append]

@[simp] theorem fds_append (o : Outbox) (m : Message) : (o.append m).fds = o.fds ++ m.descriptors := by
  simp [fds, append]

theorem push_eq_ok_iff (o p : Outbox) (m : Message) : o.push m = .ok p ↔
    m.fault? o.limit = none ∧ p = o.append m := by
  unfold push
  cases m.fault? o.limit with
  | none => simp [eq_comm]
  | some e => simp

theorem push_eq_error_iff (o : Outbox) (m : Message) (e : Error) :
    o.push m = .error e ↔ m.fault? o.limit = some e := by
  unfold push
  cases m.fault? o.limit <;> simp

theorem bytes_push {o p : Outbox} {m : Message} (h : o.push m = .ok p) : p.bytes = o.bytes ++ m.frame := by
  rw [((push_eq_ok_iff o p m).1 h).2, bytes_append]

theorem fds_push {o p : Outbox} {m : Message} (h : o.push m = .ok p) : p.fds = o.fds ++ m.descriptors := by
  rw [((push_eq_ok_iff o p m).1 h).2, fds_append]

end Outbox

end Compositor.Wire
