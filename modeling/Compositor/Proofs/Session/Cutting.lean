import Compositor.Proofs.Session.Report
import Compositor.Proofs.Text.Encoding

/-
  How much of its text an error event carries.

  The limit leaves an error event a number of whole words for its text and the NUL behind it, and `errorRoom`
  is what that makes in bytes of text: exactly the texts within it give a frame within the limit
  (`size_errorMessage_le_iff`).  The text is cut there, or rather at the nearest boundary between characters
  before, so that what is left is the longest beginning whose frame fits (`cut_fitting`).  Without room for the
  header, the object, the code, the length and one word of text there is no such frame, and nothing is queued.

  `error_of_reporting` says this of every open connection with its display, for every limit.
-/

namespace Compositor.Wire

/-- Filling up a text and its NUL to whole words stays within `n` exactly if the text leaves one byte of the
whole words in `n`. -/
theorem padded_succ_le_iff {len n : Nat} (hn : 4 ≤ n) : padded (len + 1) ≤ n ↔ len ≤ n / 4 * 4 - 1 := by
  unfold padded
  omega

end Compositor.Wire

namespace Compositor.Sessions

open Compositor.Wire (Message ObjectId Outbox)
open Compositor.Protocol

/-! ## Frames -/

/-- A text with a blank for every NUL. -/
def blanked (cs : List Char) : String := String.ofList (cs.map fun c => if c = '\x00' then ' ' else c)

/-- The error event that carries this text whole. -/
def errorMessage (target : ObjectId) (code : UInt32) (cs : List Char) : Message :=
  ⟨.display, Core.errorOpcode, [.object (some target), .uint code, .string (some (blanked cs))]⟩

theorem size_errorMessage (target : ObjectId) (code : UInt32) (cs : List Char) :
    (errorMessage target code cs).size = Wire.headerSize + 12 + Wire.padded (Text.utf8Size cs + 1) := by
  have hsize : (blanked cs).utf8ByteSize = Text.utf8Size cs := by
    rw [blanked, Text.utf8ByteSize_ofList, utf8Size_blanked]
  rw [errorMessage, size_error, hsize]

/-- The frames within the limit are those of the texts for which there is room. -/
theorem size_errorMessage_le_iff {limit : Nat} (hroom : leastErrorSize ≤ limit) (target : ObjectId)
    (code : UInt32) (cs : List Char) :
    (errorMessage target code cs).size ≤ limit ↔ Text.utf8Size cs ≤ Connection.errorRoom limit := by
  unfold leastErrorSize at hroom
  unfold Connection.errorRoom
  rw [← Wire.padded_succ_le_iff (by omega), size_errorMessage]
  omega

/-! ## The cut -/

/-- What is kept of a text: its longest beginning, cut between characters, that an error event within a limit
can carry. -/
structure Cut (limit : Nat) (target : ObjectId) (code : UInt32) (text : String) (kept : List Char) : Prop where
  isPrefix : kept <+: text.toList
  fits : (errorMessage target code kept).frame.length ≤ limit
  longest : ∀ pre, pre <+: text.toList → (errorMessage target code pre).frame.length ≤ limit → pre <+: kept

/-- What there is room for is the longest beginning whose frame is within the limit. -/
theorem cut_fitting {limit : Nat} (hroom : leastErrorSize ≤ limit) (target : ObjectId) (code : UInt32)
    (text : String) : Cut limit target code text (Text.fitting (Connection.errorRoom limit) text.toList) where
  isPrefix := Text.fitting_isPrefix _ _
  fits := by
    rw [Message.length_frame, size_errorMessage_le_iff hroom]
    exact Text.utf8Size_fitting_le _ _
  longest pre hpre hfits := by
    rw [Message.length_frame, size_errorMessage_le_iff hroom] at hfits
    exact Text.isPrefix_fitting hpre hfits

/-- With room for fifteen bytes, a text is cut before a character that would take the fifteenth and one more. -/
example : Connection.errorRoom 36 = 15 ∧
    Text.fitting 15 "fourteen bytesé".toList = "fourteen bytes".toList := by decide

/-! ## The event -/

section
variable {app : Application} {limit : Nat} {c : Connection app.toKit}

/-- The size that an error event without room is refused for: that of an empty text and its NUL, if not even
these fit as a word, and else that of the whole event. -/
def excess (limit : Nat) : Nat := if limit < 4 then 1 else leastErrorSize

/-- Where there is no room for an error event, no text is kept for it, and its size is what is wrong. -/
theorem fault?_errorEvent_of_lt (hroom : limit < leastErrorSize) (target : ObjectId) (code : UInt32)
    (text : String) :
    (errorEvent limit target code text).fault? limit = some (.messageTooLarge (excess limit) limit) := by
  have hnone : Connection.errorRoom limit = 0 := by
    unfold leastErrorSize at hroom
    unfold Connection.errorRoom
    omega
  have hempty : Connection.errorText limit text = "" := by
    have hle := Connection.utf8ByteSize_errorText_le limit text
    rw [hnone, Nat.le_zero, String.utf8ByteSize_eq_zero_iff] at hle
    exact hle
  -- the text is held against the limit first, and then the whole
  have hargs := argFaultFrom_errorEvent_eq limit target code text
  have hsize := size_errorEvent limit target code text
  rw [hempty] at hargs hsize
  have htext : Wire.textFault? limit 2 "" = if limit < 4 then some (.messageTooLarge 1 limit) else none := rfl
  have hwhole : (errorEvent limit target code text).size = leastErrorSize := hsize
  unfold Message.fault? excess
  rw [hargs, htext, hwhole]
  by_cases hword : limit < 4
  · rw [if_pos hword, if_pos hword]
  · rw [if_neg hword, if_neg hword]
    exact if_pos hroom

/-- Where there is no room for an error event, reporting an error fails and changes nothing. -/
theorem Reporting.postError_of_lt (hc : Reporting limit c) (hopen : c.isOpen) (hroom : limit < leastErrorSize)
    (target : ObjectId) (code : UInt32) (text : String) : c.postError app target code text =
      (.error (.wire (.messageTooLarge (excess limit) limit)), c) := by
  obtain ⟨o, hget, hmethod, hsince⟩ := hc.exists_display hopen
  have hcheck := check_errorEvent limit target code text
  have hpush : c.outbound.push (errorEvent limit target code text) =
      .error (.messageTooLarge (excess limit) limit) := by
    rw [Outbox.push_eq_error_iff, hc.limit_eq]
    exact fault?_errorEvent_of_lt hroom target code text
  have hencode := Connection.encodeEvent_of_push_eq_error hopen hget hmethod hsince hcheck hpush
  unfold errorEvent at hencode
  unfold Connection.postError Connection.post
  rw [hc.limit_eq, hencode]

/-- Reporting an error to an open connection, whatever its limit.  Going back from the end of the room to a
boundary between characters stops within the text, and what is before it is kept.  Where the limit has room for an
error event, this is the longest beginning of the text that it can carry, one event with it is queued, and nothing
else changes; otherwise the size is refused, and nothing changes at all. -/
theorem error_of_reporting (hc : Reporting limit c) (hopen : c.isOpen) (target : ObjectId) (code : UInt32)
    (text : String) : ∃ kept : List Char,
      Text.boundaryBefore? (Text.utf8 text) (min text.utf8ByteSize (Connection.errorRoom limit)) =
        some (Text.utf8Size kept) ∧
      Text.utf8 (String.ofList kept) = (Text.utf8 text).take (Text.utf8Size kept) ∧
      (24 ≤ limit → Cut limit target code text kept ∧ c.postError app target code text =
        (.ok (), { c with outbound := c.outbound.append (errorMessage target code kept) })) ∧
      (limit < 24 → c.postError app target code text =
        (.error (.wire (.messageTooLarge (excess limit) limit)), c)) := by
  refine ⟨Text.fitting (Connection.errorRoom limit) text.toList, Text.boundaryBefore?_utf8 _ _,
    Text.utf8_fitting _ _, fun hroom => ⟨cut_fitting hroom target code text, ?_⟩, fun hroom => ?_⟩
  · exact hc.postError_eq hopen hroom target code text
  · exact hc.postError_of_lt hopen hroom target code text

end

/-! ## Narrow limits -/

/-- Limits with room for fifteen bytes of text. -/
def narrowLimits : Limits := { maxMessageSize := 36 }

/-- A session of the core objects with those limits, as it is opened. -/
def Session.narrow : Session Application.bare.toKit :=
  { Session.bare with
    limits := narrowLimits
    connection := { Session.bare.connection with outbound := Outbox.withLimit 36 } }

/-- There the text is cut, and with eight bytes nothing at all is queued. -/
theorem error_of_reporting_sample :
    Session.new 0 .core {} narrowLimits () = .ok Session.narrow ∧
      (∃ kept, Cut 36 .display 3 "fourteen bytesé" kept ∧
        Session.narrow.connection.postError .bare .display 3 "fourteen bytesé" = (.ok (),
          { Session.narrow.connection with
            outbound := Session.narrow.connection.outbound.append (errorMessage .display 3 kept) })) ∧
      Session.new 0 .core {} tightLimits () = .ok Session.tight ∧
      Session.tight.connection.postError .bare .display 3 "fourteen bytesé" =
        (.error (.wire (.messageTooLarge 24 8)), Session.tight.connection) := by
  have hnarrow : Session.new 0 .core {} narrowLimits () = .ok Session.narrow := rfl
  have htight : Session.new 0 .core {} tightLimits () = .ok Session.tight := rfl
  have hroom : Reporting 36 Session.narrow.connection := Reporting.new hnarrow rfl
  have hnone : Reporting 8 Session.tight.connection := Reporting.new htight rfl
  obtain ⟨kept, -, -, hcut, -⟩ := error_of_reporting hroom rfl .display 3 "fourteen bytesé"
  obtain ⟨-, -, -, -, hrefused⟩ := error_of_reporting hnone rfl .display 3 "fourteen bytesé"
  exact ⟨hnarrow, ⟨kept, hcut (by decide)⟩, htight, hrefused (by decide)⟩

end Compositor.Sessions
