import Compositor.Toml.Document
import Compositor.Wire.Frame

/-
  The limits of a session, and their text form.

  Limits are read from TOML, absent ones keeping their defaults, and written as one line each.
  `Limits.check` says which limits a session can work with.
-/

namespace Compositor.Sessions

/-- The limits of one connection. -/
structure Limits where
  /-- Undecoded bytes that a session holds before it gives up on the client. -/
  maxInboundBytes : Nat := 65536
  /-- Received descriptors that no message has claimed yet. -/
  maxQueuedFds : Nat := 256
  /-- Destroyed ids that are remembered, so that late requests to them are told apart. -/
  staleIdCapacity : Nat := 1024
  /-- The largest message that is accepted or produced. -/
  maxMessageSize : Nat := 4096
deriving DecidableEq, Repr

namespace Limits

/-- Why limits are no good. -/
inductive Flaw where
  | messageSize (size : Nat)
  /-- The input buffer has no room for the largest message. -/
  | inboundBelowMessage (inbound message : Nat)
deriving DecidableEq

/-- The text of a flaw. -/
def Flaw.message : Flaw → String
  | .messageSize size =>
    s!"max_message_size must lie in {Text.decimal Wire.headerSize}..={Text.decimal Wire.maxMessageSize}, got {Text.decimal size}"
  | .inboundBelowMessage inbound message =>
    s!"max_inbound_bytes ({Text.decimal inbound}) is below max_message_size ({Text.decimal message})"

/-- Why limits cannot be read or written. -/
inductive Error where
  | unreadable
  | unwritable
  | invalid (flaw : Flaw)
deriving DecidableEq

/-- The text of an error. -/
def Error.message : Error → String
  | .unreadable => "failed to parse session config"
  | .unwritable => "failed to serialize session config"
  | .invalid flaw => s!"invalid session config: {flaw.message}"

/-- Checks limits: a message has at least a header and its size fits one, and the input buffer holds a
message. -/
def check (l : Limits) : Except Error Unit :=
  if l.maxMessageSize < Wire.headerSize ∨ Wire.maxMessageSize < l.maxMessageSize then
    .error (.invalid (.messageSize l.maxMessageSize))
  else if l.maxInboundBytes < l.maxMessageSize then
    .error (.invalid (.inboundBelowMessage l.maxInboundBytes l.maxMessageSize))
  else .ok ()

/-- Limits that a session can work with. -/
structure Valid (l : Limits) : Prop where
  header_le : Wire.headerSize ≤ l.maxMessageSize
  message_le : l.maxMessageSize ≤ Wire.maxMessageSize
  inbound : l.maxMessageSize ≤ l.maxInboundBytes

theorem check_eq_ok_iff (l : Limits) : l.check = .ok () ↔ l.Valid := by
  unfold check
  constructor
  · intro h
    split at h
    · nomatch h
    · split at h
      · nomatch h
      · exact ⟨by omega, by omega, by omega⟩
  · rintro ⟨h1, h2, h3⟩
    rw [if_neg (by omega), if_neg (by omega)]

/-! ## Text form -/

def inboundKey : String := "max_inbound_bytes"

def fdsKey : String := "max_queued_fds"

def staleKey : String := "stale_id_capacity"

def messageKey : String := "max_message_size"

/-- A limit in a document: a natural number, or else its default. -/
def limit? (es : Toml.Entries) (key : String) (default : Nat) : Option Nat :=
  match es.get? key with
  | none => some default
  | some (.value (.integer n)) => if 0 ≤ n then some n.toNat else none
  | some _ => none

/-- The limits that the entries of a document set; other entries are skipped. -/
def ofEntries? (es : Toml.Entries) : Option Limits := do
  let defaults : Limits := {}
  let inbound ← limit? es inboundKey defaults.maxInboundBytes
  let fds ← limit? es fdsKey defaults.maxQueuedFds
  let stale ← limit? es staleKey defaults.staleIdCapacity
  let message ← limit? es messageKey defaults.maxMessageSize
  pure ⟨inbound, fds, stale, message⟩

/-- Reads limits and checks them. -/
def ofText (text : String) : Except Error Limits :=
  match (Toml.Entries.ofText? text).bind ofEntries? with
  | none => .error .unreadable
  | some l =>
    match l.check with
    | .error e => .error e
    | .ok () => .ok l

/-- The line that sets a limit. -/
def line (key : String) (n : Nat) : String := key ++ " = " ++ Text.decimal n ++ "\n"

/-- Writes limits, if each of them fits the integers of the format. -/
def toText (l : Limits) : Except Error String :=
  if l.maxInboundBytes < 0x8000000000000000 ∧ l.maxQueuedFds < 0x8000000000000000 ∧ l.staleIdCapacity < 0x8000000000000000 ∧
      l.maxMessageSize < 0x8000000000000000 then
    .ok (line inboundKey l.maxInboundBytes ++ line fdsKey l.maxQueuedFds ++
      line staleKey l.staleIdCapacity ++ line messageKey l.maxMessageSize)
  else .error .unwritable

end Limits

end Compositor.Sessions
