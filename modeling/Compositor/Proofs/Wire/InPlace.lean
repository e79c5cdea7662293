import Compositor.Proofs.Wire.Reading

/-
  The queue, written in place.

  A writer can append a message piece by piece to one buffer: the object, room for the second word of the
  header, the arguments one after the other, and the word in its place once the size is known.  When an
  argument cannot be written, or the whole is too large, it cuts the buffer back to where the message began;
  descriptors are collected on the side until then.  `Writer` is that queue.

  Each function of the writer has one lemma that says what it adds to the buffer, or that it fails as
  `Arg.fault?` says (`writeArg_eq`, `writeArgs_of_sound`, `writeArgs_of_fault`).  So `encode_eq`: a message is
  added whole or not at all, on the same condition as in `Outbox.push`.  The test of each blob and the test
  of the whole come to one test of the size (`fault?_eq_none_iff`).

  `wholeMessages_of_calls` is about any calls, on a writer and on the queue of whole frames alike.
-/

namespace Compositor.Wire

/-! ## When a message can be sent -/

/-- A message that can be sent within a size limit. -/
structure Message.Sendable (limit : Nat) (m : Message) : Prop where
  noNul : ∀ a ∈ m.args, ∀ s, a.text? = some s → hasNul s = false
  size_le : headerSize + argsSize m.args ≤ limit

/-- Nothing is wrong with an argument without NUL whose size is within the limit. -/
theorem Arg.fault?_eq_none {a : Arg} {limit : Nat} (hnul : ∀ s, a.text? = some s → hasNul s = false)
    (hsize : a.size ≤ limit) (index : Nat) : a.fault? limit index = none := by
  cases a with
  | string v =>
    cases v with
    | none => rfl
    | some s =>
      rw [size] at hsize
      exact (textFault?_eq_none_iff limit index s).2 ⟨hnul s rfl, by omega⟩
  | genericNewId interface version id =>
    rw [size] at hsize
    exact (textFault?_eq_none_iff limit index interface).2 ⟨hnul interface rfl, by omega⟩
  | array data =>
    rw [size] at hsize
    rw [fault?, if_neg (by omega)]
  | _ => rfl

theorem Arg.hasNul_of_fault? {a : Arg} {limit index : Nat} (h : a.fault? limit index = none) (s : String)
    (hs : a.text? = some s) : hasNul s = false := by
  cases a with
  | string v =>
    change v = some s at hs
    rw [hs] at h
    exact ((textFault?_eq_none_iff limit index s).1 h).1
  | genericNewId interface version id =>
    injection hs with hs
    rw [← hs]
    exact ((textFault?_eq_none_iff limit index interface).1 h).1
  | _ => cases hs

theorem argFaultFrom_eq_none {limit : Nat} {args : List Arg}
    (hnul : ∀ a ∈ args, ∀ s, a.text? = some s → hasNul s = false) (hsize : argsSize args ≤ limit) :
    ∀ index, argFaultFrom limit index args = none := by
  induction args with
  | nil =>
    intro index
    rfl
  | cons a args ih =>
    intro index
    rw [argsSize] at hsize
    rw [argFaultFrom, Arg.fault?_eq_none (hnul a (List.mem_cons_self ..)) (by omega)]
    exact ih (fun b hb => hnul b (List.mem_cons_of_mem a hb)) (by omega) (index + 1)

theorem hasNul_of_argFaultFrom {limit : Nat} {args : List Arg} : ∀ {index : Nat},
    argFaultFrom limit index args = none →
      ∀ a ∈ args, ∀ s, a.text? = some s → hasNul s = false := by
  induction args with
  | nil =>
    intro index _ a ha
    cases ha
  | cons b args ih =>
    intro index h a ha
    rw [argFaultFrom] at h
    split at h
    · cases h
    · rename_i hb
      rcases List.mem_cons.1 ha with rfl | ha
      · exact Arg.hasNul_of_fault? hb
      · exact ih h a ha

/-- The tests of single blobs and the test of the whole are one test of the size. -/
theorem Message.fault?_eq_none_iff {m : Message} {limit : Nat} :
    m.fault? limit = none ↔ m.Sendable limit := by
  constructor
  · intro h
    have hsize : m.size ≤ limit := size_le_of_fault? h
    unfold fault? at h
    split at h
    · cases h
    · rename_i hargs
      exact ⟨hasNul_of_argFaultFrom hargs, hsize⟩
  · intro h
    have hsize : m.size ≤ limit := h.size_le
    have hargs : argsSize m.args ≤ limit := Nat.le_trans (Nat.le_add_left ..) hsize
    unfold fault?
    rw [argFaultFrom_eq_none h.noNul hargs]
    exact if_neg (Nat.not_lt.2 hsize)

/-! ## The writer -/

/-- A queue that is written in place. -/
structure Writer where
  /-- The largest message that is taken. -/
  limit : Nat
  buffer : List UInt8 := []
  fds : List Descriptor := []

/-- Bytes with some of them, from a position on, written anew. -/
def patch (buffer : List UInt8) (position : Nat) (bytes : List UInt8) : List UInt8 :=
  buffer.take position ++ bytes ++ buffer.drop (position + bytes.length)

namespace Writer

/-- An empty queue for messages of at most `limit` bytes, or as many as a header can declare. -/
def withLimit (limit : Nat) : Writer := { limit := min limit maxMessageSize }

def extend (w : Writer) (bytes : List UInt8) : Writer := { w with buffer := w.buffer ++ bytes }

def truncate (w : Writer) (length : Nat) : Writer := { w with buffer := w.buffer.take length }

def writeWord (w : Writer) (word : UInt32) : Writer := w.extend (Word.bytes word)

/-- Writes the length of a blob, its bytes, the NUL that it may end with, and zeros up to whole words. -/
def writeBlob (w : Writer) (data : List UInt8) (nul : Bool) : Except Error Unit × Writer :=
  let length := data.length + nul.toNat
  match (padded64? length).filter (· ≤ w.limit) with
  | none => (.error (.messageTooLarge length w.limit), w)
  | some padded =>
    (.ok (), (w.writeWord (UInt32.ofNat length)).extend (data ++ List.replicate (padded - data.length) 0))

def writeString (w : Writer) (index : Nat) (s : String) : Except Error Unit × Writer :=
  if (Text.utf8 s).contains 0 then (.error (.invalidString index), w) else w.writeBlob (Text.utf8 s) true

/-- Writes the argument at position `index`.  Gives the descriptors of the message up to there. -/
def writeArg (w : Writer) (index : Nat) (fds : List Descriptor) : Arg →
    Except Error (List Descriptor) × Writer
  | .int value => (.ok fds, w.writeWord value.toUInt32)
  | .uint value => (.ok fds, w.writeWord value)
  | .fixed value => (.ok fds, w.writeWord value.raw.toUInt32)
  | .string none => (.ok fds, w.writeWord 0)
  | .string (some s) =>
    match w.writeString index s with
    | (.error e, w) => (.error e, w)
    | (.ok (), w) => (.ok fds, w)
  | .object none => (.ok fds, w.writeWord 0)
  | .object (some id) => (.ok fds, w.writeWord id.raw)
  | .newId id => (.ok fds, w.writeWord id.raw)
  | .genericNewId interface version id =>
    match w.writeString index interface with
    | (.error e, w) => (.error e, w)
    | (.ok (), w) => (.ok fds, (w.writeWord version).writeWord id.raw)
  | .array data =>
    match w.writeBlob data false with
    | (.error e, w) => (.error e, w)
    | (.ok (), w) => (.ok fds, w)
  | .fd descriptor => (.ok (fds ++ [descriptor]), w)

/-- Writes arguments one after the other, up to the first that cannot be written. -/
def writeArgs (w : Writer) (index : Nat) (fds : List Descriptor) : List Arg →
    Except Error (List Descriptor) × Writer
  | [] => (.ok fds, w)
  | arg :: args =>
    match w.writeArg index fds arg with
    | (.error e, w) => (.error e, w)
    | (.ok fds, w) => w.writeArgs (index + 1) fds args

/-- Appends one message and its descriptors, or leaves the queue as it was. -/
def encode (w : Writer) (m : Message) : Except Error Unit × Writer :=
  let start := w.buffer.length
  match ((w.writeWord m.object.raw).writeWord 0).writeArgs 0 [] m.args with
  | (.error e, w) => (.error e, w.truncate start)
  | (.ok fds, w) =>
    let size := w.buffer.length - start
    if w.limit < size then (.error (.messageTooLarge size w.limit), w.truncate start)
    else
      let word := UInt32.ofNat size <<< 16 ||| m.opcode.toUInt32
      (.ok (), { w with buffer := patch w.buffer (start + 4) (Word.bytes word), fds := w.fds ++ fds })

/-- Hands over all bytes. -/
def takeBytes (w : Writer) : List UInt8 × Writer := (w.buffer, { w with buffer := [] })

/-- Hands over all descriptors, oldest first. -/
def takeFds (w : Writer) : List Descriptor × Writer := (w.fds, { w with fds := [] })

/-! ### What is written -/

variable {w : Writer}

@[simp] theorem extend_extend (w : Writer) (bytes bytes' : List UInt8) :
    (w.extend bytes).extend bytes' = w.extend (bytes ++ bytes') := by
  unfold extend
  rw [List.append_assoc]

@[simp] theorem extend_nil (w : Writer) : w.extend [] = w := by
  unfold extend
  rw [List.append_nil]

@[simp] theorem limit_extend (w : Writer) (bytes : List UInt8) : (w.extend bytes).limit = w.limit := rfl

/-- Cutting back takes away what was written since. -/
@[simp] theorem truncate_extend (w : Writer) (bytes : List UInt8) :
    (w.extend bytes).truncate w.buffer.length = w := by
  unfold extend truncate
  dsimp only
  rw [List.take_left]

/-- Within the limit a length is far from what 64 bits can hold. -/
theorem filter_padded64? {length limit : Nat} (hlimit : limit ≤ maxMessageSize) :
    (padded64? length).filter (· ≤ limit) = if limit < padded length then none else some (padded length) := by
  have hle := le_padded length
  unfold maxMessageSize at hlimit
  unfold padded64?
  by_cases hlarge : limit < padded length
  · rw [if_pos hlarge]
    split
    · exact Option.filter_some_neg (decide_eq_false (by omega))
    · rfl
  · rw [if_neg hlarge, if_pos (by omega)]
    exact Option.filter_some_pos (decide_eq_true (by omega))

/-- A blob is written if it is within the limit by itself. -/
theorem writeBlob_eq (hlimit : w.limit ≤ maxMessageSize) (data : List UInt8) (nul : Bool) :
    w.writeBlob data nul =
      if w.limit < padded (data.length + nul.toNat) then
        (.error (.messageTooLarge (data.length + nul.toNat) w.limit), w)
      else (.ok (), w.extend (blob (data ++ List.replicate nul.toNat 0))) := by
  have hlength : (data ++ List.replicate nul.toNat 0).length = data.length + nul.toNat := by
    rw [List.length_append, List.length_replicate]
  have hle := le_padded (data.length + nul.toNat)
  -- the zeros at the end include the NUL
  have hzeros : List.replicate (padded (data.length + nul.toNat) - data.length) (0 : UInt8) =
      List.replicate nul.toNat 0 ++ List.replicate (padding (data.length + nul.toNat)) 0 := by
    rw [List.replicate_append_replicate]
    congr 1
    unfold padding
    omega
  unfold writeBlob
  dsimp only
  rw [filter_padded64? hlimit]
  by_cases hlarge : w.limit < padded (data.length + nul.toNat)
  · rw [if_pos hlarge, if_pos hlarge]
  · rw [if_neg hlarge, if_neg hlarge]
    simp only [writeWord, extend_extend, blob, hlength, hzeros, List.append_assoc]

theorem writeString_eq (hlimit : w.limit ≤ maxMessageSize) (index : Nat) (s : String) :
    w.writeString index s =
      match textFault? w.limit index s with
      | some e => (.error e, w)
      | none => (.ok (), w.extend (blob (nulTerminated s))) := by
  have hnul : (Text.utf8 s).contains 0 = hasNul s := by
    rw [Bool.eq_iff_iff, List.contains_iff_mem, hasNul_iff]
  unfold writeString textFault?
  rw [hnul]
  cases hasNul s with
  | true => rfl
  | false =>
    rw [if_neg Bool.false_ne_true, if_neg Bool.false_ne_true, writeBlob_eq hlimit]
    change (if w.limit < padded (s.utf8ByteSize + 1) then _ else _) = _
    split
    · rfl
    · rfl

/-- An argument is written, and its descriptor collected, unless it is at fault. -/
theorem writeArg_eq (hlimit : w.limit ≤ maxMessageSize) (index : Nat) (fds : List Descriptor) (a : Arg) :
    w.writeArg index fds a =
      match a.fault? w.limit index with
      | some e => (.error e, w)
      | none => (.ok (fds ++ a.fd?.toList), w.extend a.bytes) := by
  have hnone : fds ++ none.toList = fds := List.append_nil fds
  cases a with
  | string v =>
    cases v with
    | none => simp only [writeArg, Arg.fault?, Arg.fd?, hnone, Arg.bytes, writeWord]
    | some s =>
      simp only [writeArg, Arg.fault?, writeString_eq hlimit]
      cases textFault? w.limit index s with
      | some e => rfl
      | none => simp only [Arg.fd?, hnone, Arg.bytes]
  | genericNewId interface version id =>
    simp only [writeArg, Arg.fault?, writeString_eq hlimit]
    cases textFault? w.limit index interface with
    | some e => rfl
    | none => simp only [Arg.fd?, hnone, Arg.bytes, writeWord, extend_extend]
  | array data =>
    simp only [writeArg, Arg.fault?, writeBlob_eq hlimit, Bool.toNat_false, Nat.add_zero,
      List.replicate_zero, List.append_nil]
    by_cases hlarge : w.limit < padded data.length
    · rw [if_pos hlarge, if_pos hlarge]
    · rw [if_neg hlarge, if_neg hlarge]
      simp only [Arg.fd?, hnone, Arg.bytes]
  | fd descriptor =>
    simp only [writeArg, Arg.fault?, Arg.fd?, Option.toList_some, Arg.bytes, extend_nil]
  | object id =>
    cases id with
    | none => simp only [writeArg, Arg.fault?, Arg.fd?, hnone, Arg.bytes, writeWord]
    | some id => simp only [writeArg, Arg.fault?, Arg.fd?, hnone, Arg.bytes, writeWord]
  | _ => simp only [writeArg, Arg.fault?, Arg.fd?, hnone, Arg.bytes, writeWord]

theorem writeArgs_of_sound {args : List Arg} : ∀ {w : Writer} {index : Nat} (fds : List Descriptor),
    w.limit ≤ maxMessageSize → argFaultFrom w.limit index args = none →
      w.writeArgs index fds args =
        (.ok (fds ++ args.filterMap Arg.fd?), w.extend (args.flatMap Arg.bytes)) := by
  induction args with
  | nil =>
    intro w index fds _ _
    simp only [writeArgs, List.filterMap_nil, List.append_nil, List.flatMap_nil, extend_nil]
  | cons a args ih =>
    intro w index fds hlimit h
    rw [argFaultFrom] at h
    split at h
    · cases h
    · rename_i ha
      have hfirst := writeArg_eq hlimit index fds a
      rw [ha] at hfirst
      have hrest := ih (w := w.extend a.bytes) (fds ++ a.fd?.toList) hlimit h
      have hfds : a.fd?.toList ++ args.filterMap Arg.fd? = (a :: args).filterMap Arg.fd? := by
        cases hfd : a.fd? with
        | none => rw [List.filterMap_cons_none hfd, Option.toList_none, List.nil_append]
        | some fd => rw [List.filterMap_cons_some hfd, Option.toList_some, List.singleton_append]
      rw [writeArgs, hfirst]
      dsimp only
      rw [hrest, extend_extend, List.append_assoc, hfds, List.flatMap_cons]

/-- The first argument at fault ends the writing, with whatever was written before it. -/
theorem writeArgs_of_fault {args : List Arg} {e : Error} : ∀ {w : Writer} {index : Nat}
    (fds : List Descriptor), w.limit ≤ maxMessageSize → argFaultFrom w.limit index args = some e →
      ∃ written, w.writeArgs index fds args = (.error e, w.extend written) := by
  induction args with
  | nil =>
    intro w index fds _ h
    cases h
  | cons a args ih =>
    intro w index fds hlimit h
    have hfirst := writeArg_eq hlimit index fds a
    rw [argFaultFrom] at h
    split at h
    · rename_i e' ha
      injection h with h
      subst h
      rw [ha] at hfirst
      refine ⟨[], ?_⟩
      rw [writeArgs, hfirst, extend_nil]
    · rename_i ha
      rw [ha] at hfirst
      obtain ⟨written, hrest⟩ := ih (w := w.extend a.bytes) (fds ++ a.fd?.toList) hlimit h
      refine ⟨a.bytes ++ written, ?_⟩
      rw [writeArgs, hfirst, ← extend_extend]
      exact hrest

/-! ### Whole messages -/

/-- The second word of a header, put together from its halves. -/
theorem shiftLeft_or_eq_headerWord {size : Nat} (h : size ≤ maxMessageSize) (opcode : UInt16) :
    UInt32.ofNat size <<< 16 ||| opcode.toUInt32 = headerWord size opcode := by
  have hop := opcode.toNat_lt
  unfold maxMessageSize at h
  have hsize : (UInt32.ofNat size).toNat = size := by
    rw [UInt32.toNat_ofNat', Nat.mod_eq_of_lt (by omega)]
  have hword : (headerWord size opcode).toNat = size * 0x10000 + opcode.toNat := by
    rw [headerWord, UInt32.toNat_ofNat', Nat.mod_eq_of_lt (by omega)]
  have h16 : UInt32.toNat 16 % 32 = 16 := rfl
  apply UInt32.toNat_inj.1
  rw [hword, UInt32.toNat_or, UInt32.toNat_shiftLeft, hsize, UInt16.toNat_toUInt32, h16, Nat.mod_eq_of_lt]
  · rw [← Nat.shiftLeft_add_eq_or_of_lt hop, Nat.shiftLeft_eq]
  · rw [Nat.shiftLeft_eq]
    omega

/-- What is written anew in the middle of bytes takes the place of as many. -/
theorem patch_append (before after : List UInt8) {old new : List UInt8} (h : old.length = new.length) :
    patch (before ++ old ++ after) before.length new = before ++ new ++ after := by
  unfold patch
  rw [← h, ← List.length_append, List.drop_left, List.append_assoc before, List.take_left]

/-- A message that nothing is wrong with is added whole, with its descriptors.  Otherwise the queue stays as it
was. -/
theorem encode_eq (hlimit : w.limit ≤ maxMessageSize) (m : Message) :
    w.encode m =
      match m.fault? w.limit with
      | some e => (.error e, w)
      | none => (.ok (), { w with buffer := w.buffer ++ m.frame, fds := w.fds ++ m.descriptors }) := by
  let header := Word.bytes m.object.raw ++ Word.bytes 0
  have hbegun : (w.writeWord m.object.raw).writeWord 0 = w.extend header := extend_extend ..
  have hsize : (w.extend (header ++ m.body)).buffer.length - w.buffer.length = m.size := by
    have hbody : m.body.length = argsSize m.args := length_flatMap_bytes m.args
    have hheader : header.length = headerSize := rfl
    unfold extend Message.size
    rw [List.length_append, List.length_append, hbody, hheader]
    omega
  unfold encode Message.fault?
  rw [hbegun]
  cases hargs : argFaultFrom w.limit 0 m.args with
  | some e =>
    obtain ⟨written, hwrite⟩ := writeArgs_of_fault (w := w.extend header) [] hlimit hargs
    dsimp only
    rw [hwrite]
    dsimp only
    rw [extend_extend, truncate_extend]
  | none =>
    have hwrite := writeArgs_of_sound (w := w.extend header) [] hlimit hargs
    rw [List.nil_append, extend_extend] at hwrite
    dsimp only
    rw [hwrite]
    dsimp only
    rw [limit_extend, ← Message.body, hsize]
    by_cases hlarge : w.limit < m.size
    · rw [if_pos hlarge, if_pos hlarge, truncate_extend]
    · rw [if_neg hlarge, if_neg hlarge, shiftLeft_or_eq_headerWord (by omega)]
      -- the word that was left out stands right after the object
      have hpatch : patch (w.buffer ++ (header ++ m.body)) (w.buffer.length + 4)
          (Word.bytes (headerWord m.size m.opcode)) = w.buffer ++ m.frame := by
        have hlength : (Word.bytes 0).length = (Word.bytes (headerWord m.size m.opcode)).length := rfl
        have hparts := patch_append (w.buffer ++ Word.bytes m.object.raw) m.body hlength
        rw [List.length_append, Word.length_bytes] at hparts
        simpa only [header, Message.frame, List.append_assoc] using hparts
      rw [← hpatch]
      rfl

end Writer

/-! ## Calls -/

/-- A call of a queue. -/
inductive Call where
  | encode (m : Message)
  | takeBytes
  | takeFds

/-- What a call gives. -/
inductive Reply where
  | encoded (result : Except Error Unit)
  | bytes (taken : List UInt8)
  | fds (taken : List Descriptor)

/-- The bytes that a call hands over. -/
def Reply.takenBytes : Reply → List UInt8
  | .bytes taken => taken
  | _ => []

/-- The descriptors that a call hands over. -/
def Reply.takenFds : Reply → List Descriptor
  | .fds taken => taken
  | _ => []

def Writer.call (w : Writer) : Call → Reply × Writer
  | .encode m => (.encoded (w.encode m).1, (w.encode m).2)
  | .takeBytes => (.bytes w.takeBytes.1, w.takeBytes.2)
  | .takeFds => (.fds w.takeFds.1, w.takeFds.2)

/-- A call of the queue of whole frames; a message that is refused leaves it as it is. -/
def Outbox.call (o : Outbox) : Call → Reply × Outbox
  | .encode m =>
    match o.push m with
    | .error e => (.encoded (.error e), o)
    | .ok p => (.encoded (.ok ()), p)
  | .takeBytes => (.bytes o.takeBytes.1, o.takeBytes.2)
  | .takeFds => (.fds o.takeFds.1, o.takeFds.2)

theorem Outbox.call_encode_of_fault {o : Outbox} {m : Message} {e : Error} (h : m.fault? o.limit = some e) :
    o.call (.encode m) = (.encoded (.error e), o) := by
  rw [call, (push_eq_error_iff o m e).2 h]

theorem Outbox.call_encode_of_sound {o : Outbox} {m : Message} (h : m.fault? o.limit = none) :
    o.call (.encode m) = (.encoded (.ok ()), o.append m) := by
  rw [call, (push_eq_ok_iff o _ m).2 ⟨h, rfl⟩]

/-- Makes calls one after the other. -/
def callAll {σ : Type} (call : σ → Call → Reply × σ) (s : σ) : List Call → List Reply × σ
  | [] => ([], s)
  | c :: cs => ((call s c).1 :: (callAll call (call s c).2 cs).1, (callAll call (call s c).2 cs).2)

/-- The message that a call has added. -/
def Call.added : Call → Reply → List Message
  | .encode m, .encoded (.ok ()) => [m]
  | _, _ => []

/-- The messages whose call has succeeded, in order. -/
def succeeded : List Call → List Reply → List Message
  | c :: cs, r :: rs => c.added r ++ succeeded cs rs
  | _, _ => []

/-- A writer holds the same as a queue of whole frames. -/
structure Mirrors (w : Writer) (o : Outbox) : Prop where
  limit_eq : w.limit = o.limit
  limit_le : o.limit ≤ maxMessageSize
  buffer_eq : w.buffer = o.bytes
  fds_eq : w.fds = o.fds

namespace Mirrors

variable {w : Writer} {o : Outbox}

theorem withLimit (limit : Nat) : Mirrors (Writer.withLimit limit) (Outbox.withLimit limit) :=
  ⟨rfl, Nat.min_le_right .., rfl, rfl⟩

/-- A call gives the same on both. -/
theorem call (h : Mirrors w o) (c : Call) :
    (w.call c).1 = (o.call c).1 ∧ Mirrors (w.call c).2 (o.call c).2 := by
  cases c with
  | encode m =>
    have hlimit : w.limit ≤ maxMessageSize := by
      rw [h.limit_eq]
      exact h.limit_le
    have hencode := Writer.encode_eq hlimit m
    rw [h.limit_eq] at hencode
    cases hfault : m.fault? o.limit with
    | some e =>
      rw [hfault] at hencode
      simp only [Writer.call, hencode, Outbox.call_encode_of_fault hfault]
      exact ⟨trivial, h⟩
    | none =>
      rw [hfault] at hencode
      simp only [Writer.call, hencode, Outbox.call_encode_of_sound hfault]
      refine ⟨trivial, rfl, h.limit_le, ?_, ?_⟩
      · rw [Outbox.bytes_append, h.buffer_eq]
      · rw [Outbox.fds_append, h.fds_eq]
  | takeBytes => exact ⟨congrArg Reply.bytes h.buffer_eq, h.limit_eq, h.limit_le, rfl, h.fds_eq⟩
  | takeFds => exact ⟨congrArg Reply.fds h.fds_eq, h.limit_eq, h.limit_le, h.buffer_eq, rfl⟩

theorem callAll (cs : List Call) : ∀ {w : Writer} {o : Outbox}, Mirrors w o →
    (Wire.callAll Writer.call w cs).1 = (Wire.callAll Outbox.call o cs).1 ∧
      Mirrors (Wire.callAll Writer.call w cs).2 (Wire.callAll Outbox.call o cs).2 := by
  induction cs with
  | nil =>
    intro w o h
    exact ⟨rfl, h⟩
  | cons c cs ih =>
    intro w o h
    obtain ⟨hreply, hnext⟩ := h.call c
    obtain ⟨hreplies, hlast⟩ := ih hnext
    refine ⟨?_, hlast⟩
    unfold Wire.callAll
    rw [hreply, hreplies]

end Mirrors

/-! ## Whole messages -/

/-- What a queue has handed over and what it holds are whole messages, those whose call has succeeded. -/
structure WholeMessages (cs : List Call) (replies : List Reply) (bytes : List UInt8)
    (fds : List Descriptor) : Prop where
  bytes_eq : replies.flatMap Reply.takenBytes ++ bytes = (succeeded cs replies).flatMap Message.frame
  fds_eq : replies.flatMap Reply.takenFds ++ fds = (succeeded cs replies).flatMap Message.descriptors
  /-- The header of each names its target and opcode, and declares its length. -/
  header : ∀ m ∈ succeeded cs replies, ∀ rest, ∃ header,
    peekHeader (m.frame ++ rest) = .ok (some header) ∧ header.object = m.object.raw ∧
      header.opcode = m.opcode ∧ header.byteLength = m.frame.length

/-- A call adds its message to what the queue holds, if it succeeds, or takes all that it holds. -/
structure Outbox.Conserves (o : Outbox) (ms : List Message) (bytes : List UInt8) (fds : List Descriptor)
    (o' : Outbox) : Prop where
  limit_eq : o'.limit = o.limit
  bytes_eq : bytes ++ o'.bytes = o.bytes ++ ms.flatMap Message.frame
  fds_eq : fds ++ o'.fds = o.fds ++ ms.flatMap Message.descriptors
  sound : ∀ m ∈ ms, m.fault? o.limit = none

theorem Outbox.conserves_call (o : Outbox) (c : Call) : o.Conserves (c.added (o.call c).1)
    (o.call c).1.takenBytes (o.call c).1.takenFds (o.call c).2 := by
  cases c with
  | encode m =>
    cases hfault : m.fault? o.limit with
    | some e =>
      rw [call_encode_of_fault hfault]
      exact ⟨rfl, (List.append_nil _).symm, (List.append_nil _).symm, nofun⟩
    | none =>
      rw [call_encode_of_sound hfault]
      refine ⟨rfl, ?_, ?_, fun x hx => ?_⟩
      · show (o.append m).bytes = o.bytes ++ (m.frame ++ [])
        rw [bytes_append, List.append_nil]
      · show (o.append m).fds = o.fds ++ (m.descriptors ++ [])
        rw [fds_append, List.append_nil]
      · rw [List.mem_singleton.1 hx]
        exact hfault
  | takeBytes => exact ⟨rfl, rfl, (List.append_nil _).symm, nofun⟩
  | takeFds => exact ⟨rfl, (List.append_nil _).symm, rfl, nofun⟩

theorem Outbox.Conserves.trans {o o' o'' : Outbox} {ms ms' : List Message} {bytes bytes' : List UInt8}
    {fds fds' : List Descriptor} (h : o.Conserves ms bytes fds o') (h' : o'.Conserves ms' bytes' fds' o'') :
    o.Conserves (ms ++ ms') (bytes ++ bytes') (fds ++ fds') o'' := by
  refine ⟨h'.limit_eq.trans h.limit_eq, ?_, ?_, fun m hm => ?_⟩
  · rw [List.append_assoc, h'.bytes_eq, ← List.append_assoc, h.bytes_eq, List.flatMap_append,
      List.append_assoc]
  · rw [List.append_assoc, h'.fds_eq, ← List.append_assoc, h.fds_eq, List.flatMap_append,
      List.append_assoc]
  · rcases List.mem_append.1 hm with hm | hm
    · exact h.sound m hm
    · rw [← h.limit_eq]
      exact h'.sound m hm

/-- So do calls one after the other. -/
theorem Outbox.conserves_callAll (cs : List Call) : ∀ (o : Outbox),
    o.Conserves (succeeded cs (callAll Outbox.call o cs).1)
      ((callAll Outbox.call o cs).1.flatMap Reply.takenBytes)
      ((callAll Outbox.call o cs).1.flatMap Reply.takenFds) (callAll Outbox.call o cs).2 := by
  induction cs with
  | nil =>
    intro o
    exact ⟨rfl, (List.append_nil _).symm, (List.append_nil _).symm, nofun⟩
  | cons c cs ih =>
    intro o
    exact (o.conserves_call c).trans (ih (o.call c).2)

/-- Whatever is called on a queue of any limit: what it has handed over and what it holds are the frames and the
descriptors of the messages that were taken, in order.  At any time it takes the messages that can be sent
within its limit and what a header can declare, and a message that is refused leaves it as it was.  A queue
that is written in place gives the same as one of whole frames. -/
theorem wholeMessages_of_calls (limit : Nat) (cs : List Call) :
    let w := callAll Writer.call (Writer.withLimit limit) cs
    let o := callAll Outbox.call (Outbox.withLimit limit) cs
    WholeMessages cs w.1 w.2.buffer w.2.fds ∧ WholeMessages cs o.1 o.2.bytes o.2.fds ∧ w.1 = o.1 ∧
      ∀ m : Message, ((w.2.encode m).1 = .ok () ↔ m.Sendable (min limit maxMessageSize)) ∧
        (∀ e, (w.2.encode m).1 = .error e → (w.2.encode m).2 = w.2) ∧
          ((∃ p, o.2.push m = .ok p) ↔ m.Sendable (min limit maxMessageSize)) := by
  intro w o
  obtain ⟨hreplies, hmirrors⟩ : w.1 = o.1 ∧ Mirrors w.2 o.2 := Mirrors.callAll cs (.withLimit limit)
  have hconserves := Outbox.conserves_callAll cs (Outbox.withLimit limit)
  have hlimit : o.2.limit = min limit maxMessageSize := hconserves.limit_eq
  have hlimit' : w.2.limit = min limit maxMessageSize := hmirrors.limit_eq.trans hlimit
  have hwhole : WholeMessages cs o.1 o.2.bytes o.2.fds := by
    refine ⟨hconserves.bytes_eq, hconserves.fds_eq, fun m hm rest => ?_⟩
    have hsize := Message.size_le_of_fault? (hconserves.sound m hm)
    rw [m.length_frame]
    exact exists_header_frame (Nat.le_trans hsize (Nat.min_le_right ..)) rest
  refine ⟨?_, hwhole, hreplies, fun m => ?_⟩
  · rw [hreplies, hmirrors.buffer_eq, hmirrors.fds_eq]
    exact hwhole
  · have hencode := Writer.encode_eq (w := w.2) (by rw [hlimit']; exact Nat.min_le_right ..) m
    have hpush : (∃ p, o.2.push m = .ok p) ↔ m.fault? o.2.limit = none := by
      simp only [Outbox.push_eq_ok_iff, exists_and_left, exists_eq, and_true]
    rw [hpush, hlimit, ← Message.fault?_eq_none_iff, hencode, hlimit']
    cases m.fault? (min limit maxMessageSize) with
    | some e => exact ⟨⟨nofun, nofun⟩, fun _ _ => rfl, Iff.rfl⟩
    | none => exact ⟨⟨fun _ => rfl, fun _ => rfl⟩, nofun, Iff.rfl⟩

end Compositor.Wire
