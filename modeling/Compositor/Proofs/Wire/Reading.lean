import Compositor.Proofs.Text.Encoding
import Compositor.Wire.Outbox
import Compositor.Wire.Reader

/-
  Reading back what was written.

  The reader has one function for each thing that the writer can write: words, blobs, texts, ids,
  arguments, headers.  Each lemma here says that the function gives back what was written, and stops
  exactly where the writing stopped, whatever follows.  `Cursor.args_written` does so for whole
  argument lists, by induction on the parameters; `decode_frame` for whole messages.

  Descriptors take no bytes: the reader keeps their places (`Arg.pending`) and fills them afterwards,
  which `claimFds_pending` undoes.
-/

namespace Compositor.Wire

/-- A text has a NUL exactly if its bytes have a zero. -/
theorem hasNul_iff (s : String) : hasNul s = true ↔ (0 : UInt8) ∈ Text.utf8 s := by
  rw [hasNul, List.contains_iff_mem, Text.utf8_eq_flatMap, List.mem_flatMap]
  constructor
  · intro h
    exact ⟨'\x00', h, (Text.zero_mem_utf8EncodeChar '\x00').2 rfl⟩
  · rintro ⟨c, hc, h0⟩
    rwa [(Text.zero_mem_utf8EncodeChar c).1 h0] at hc

/-! ## Steps that can fail -/

/-- After a success the next step runs on its result. -/
theorem ok_bind {ε α β : Type} (a : α) (f : α → Except ε β) : (Except.ok a >>= f) = f a := rfl

/-- Steps succeed together only if each of them does. -/
theorem exists_of_bind_eq_ok {ε α β : Type} {x : Except ε α} {f : α → Except ε β} {b : β}
    (h : (x >>= f) = .ok b) : ∃ a, x = .ok a ∧ f a = .ok b := by
  cases x with
  | error e => nomatch h
  | ok a => exact ⟨a, rfl, h⟩

/-! ## Words, blobs and texts -/

namespace Cursor

theorem word_written (declared : Nat) (w : UInt32) (rest : List UInt8) (position : Nat) :
    word declared ⟨Word.bytes w ++ rest, position⟩ = .ok (w, ⟨rest, position + 4⟩) := by
  show Except.ok (Word.ofBytes _ _ _ _, _) = _
  rw [Word.ofBytes_bytes]
  rfl

theorem blob_written (declared : Nat) (overrun : UInt32 → Error) (data rest : List UInt8)
    (position : Nat) (h : data.length < 0x100000000) :
    blob declared overrun ⟨Wire.blob data ++ rest, position⟩ =
      .ok (data, ⟨rest, position + (4 + padded data.length)⟩) := by
  have hlen : (UInt32.ofNat data.length).toNat = data.length := by
    rw [UInt32.toNat_ofNat', Nat.mod_eq_of_lt h]
  have hpad := add_padding data.length
  unfold blob Wire.blob
  rw [List.append_assoc, List.append_assoc, word_written]
  show (if padded (UInt32.ofNat data.length).toNat ≤ _ then _ else _) = _
  rw [hlen, if_pos]
  · -- the data is what was written, and after the padding the rest begins
    have htake : (data ++ (List.replicate (padding data.length) 0 ++ rest)).take data.length = data := by
      rw [List.take_left]
    have hdrop : (data ++ (List.replicate (padding data.length) 0 ++ rest)).drop
        (padded data.length) = rest := by
      rw [← List.append_assoc]
      exact List.drop_left' (by rw [List.length_append, List.length_replicate]; omega)
    rw [htake, hdrop, Nat.add_assoc]
  · simp only [List.length_append, List.length_replicate]
    omega

theorem textOf?_nulTerminated {s : String} (h : hasNul s = false) :
    textOf? (nulTerminated s) = some s := by
  have hz : (Text.utf8 s).contains 0 = false := by
    cases hc : (Text.utf8 s).contains 0 with
    | false => rfl
    | true =>
      have := (hasNul_iff s).2 (List.contains_iff_mem.1 hc)
      rw [h] at this
      nomatch this
  unfold textOf? nulTerminated
  simp only [List.getLast?_append, List.getLast?_singleton, Option.some_or, List.dropLast_concat, hz]
  exact Text.ofUtf8?_utf8 s

theorem string_written (declared index : Nat) (nullable : Bool) {s : String} (rest : List UInt8)
    (position : Nat) (hs : hasNul s = false) (h : s.utf8ByteSize + 1 < 0x100000000) :
    string declared index nullable ⟨Wire.blob (nulTerminated s) ++ rest, position⟩ =
      .ok (some s, ⟨rest, position + (4 + padded (s.utf8ByteSize + 1))⟩) := by
  have hlen := length_nulTerminated s
  have hne : (nulTerminated s).isEmpty = false := by
    cases hn : nulTerminated s with
    | nil => rw [hn] at hlen; nomatch hlen
    | cons => rfl
  unfold string
  rw [blob_written _ _ _ _ _ (by omega), hlen]
  show (if (nulTerminated s).isEmpty = true then _ else _) = _
  rw [hne, if_neg Bool.false_ne_true, textOf?_nulTerminated hs]

/-- The null text is a length of zero, and nothing more. -/
theorem string_null (declared index : Nat) (rest : List UInt8) (position : Nat) :
    string declared index true ⟨Word.bytes 0 ++ rest, position⟩ = .ok (none, ⟨rest, position + 4⟩) := by
  have h := blob_written declared (.stringOverrun index) [] rest position (by decide)
  unfold string
  rw [show Word.bytes 0 = Wire.blob [] from rfl, h]
  rfl

theorem newId_written (declared index : Nat) (id : ObjectId) (rest : List UInt8) (position : Nat) :
    newId declared index ⟨Word.bytes id.raw ++ rest, position⟩ = .ok (id, ⟨rest, position + 4⟩) := by
  unfold newId
  rw [word_written, ok_bind]
  dsimp only
  rw [ObjectId.ofRaw?_raw]

end Cursor

/-! ## Arguments -/

/-- An argument as the reader first has it: the place of a descriptor is kept by `none`. -/
def Arg.pending : Arg → Option Arg
  | .fd _ => none
  | arg => some arg

/-- Is this a new id whose interface travels with it? -/
def Arg.isGeneric : Arg → Bool
  | .genericNewId .. => true
  | _ => false

/-- An argument that fits is of the kind that is declared. -/
theorem Param.Accepts.kind_eq {p : Param} {a : Arg} (h : p.Accepts a) : p.kind = a.kind := by
  have hshape := h.shape
  cases a with
  | newId id => exact eq_of_beq (Bool.and_eq_true_iff.1 hshape).1
  | genericNewId interface version id => exact eq_of_beq (Bool.and_eq_true_iff.1 hshape).1
  | _ => exact eq_of_beq hshape

/-- Typed new ids answer typed parameters, generic ones generic parameters. -/
theorem Param.Accepts.isGeneric_eq {p : Param} {a : Arg} (h : p.Accepts a) :
    p.isGeneric = a.isGeneric := by
  have hk := h.kind_eq
  have hshape := h.shape
  unfold Param.isGeneric
  rw [hk]
  cases a with
  | newId id =>
    have hi := (Bool.and_eq_true_iff.1 hshape).2
    rw [← Option.not_isNone, Bool.not_eq_true'] at hi
    rw [hi]
    rfl
  | genericNewId interface version id =>
    rw [(Bool.and_eq_true_iff.1 hshape).2]
    rfl
  | _ => rfl

theorem textFault?_eq_none_iff (limit index : Nat) (s : String) :
    textFault? limit index s = none ↔ hasNul s = false ∧ padded (s.utf8ByteSize + 1) ≤ limit := by
  unfold textFault?
  split
  · rename_i h
    simp [h]
  · rename_i h
    split
    · rename_i hl
      simp only [reduceCtorEq, false_iff]
      rintro ⟨-, hl'⟩
      omega
    · rename_i hl
      refine ⟨fun _ => ⟨by simpa using h, by omega⟩, fun _ => rfl⟩

/-- The reader takes an argument from the bytes that the writer gave it. -/
theorem Cursor.arg_written (declared index : Nat) {p : Param} {a : Arg} {limit i : Nat}
    (rest : List UInt8) (position : Nat) (ha : p.Accepts a) (hf : a.fault? limit i = none)
    (hlimit : limit < 0x100000000) :
    arg declared index p ⟨a.bytes ++ rest, position⟩ =
      .ok (a.pending, ⟨rest, position + a.size⟩) := by
  have hk := ha.kind_eq
  cases a with
  | int v =>
    unfold arg
    rw [hk]
    simp only [Arg.kind, Arg.bytes]
    rw [word_written]
    show Except.ok (some (Arg.int v.toUInt32.toInt32), _) = _
    rw [Int32.toInt32_toUInt32]
    rfl
  | uint v =>
    unfold arg
    rw [hk]
    simp only [Arg.kind, Arg.bytes]
    rw [word_written]
    rfl
  | fixed v =>
    unfold arg
    rw [hk]
    simp only [Arg.kind, Arg.bytes]
    rw [word_written]
    show Except.ok (some (Arg.fixed ⟨v.raw.toUInt32.toInt32⟩), _) = _
    rw [Int32.toInt32_toUInt32]
    rfl
  | string v =>
    unfold arg
    rw [hk]
    cases v with
    | none =>
      have hn := ha.null rfl
      simp only [Arg.kind, Arg.bytes, hn]
      rw [string_null]
      rfl
    | some s =>
      obtain ⟨hs, hl⟩ := (textFault?_eq_none_iff limit i s).1 hf
      have := le_padded (s.utf8ByteSize + 1)
      simp only [Arg.kind, Arg.bytes]
      rw [string_written _ _ _ _ _ hs (by omega)]
      rfl
  | object v =>
    unfold arg
    rw [hk]
    cases v with
    | none =>
      have hn := ha.null rfl
      simp only [Arg.kind, Arg.bytes, hn]
      rw [word_written]
      rfl
    | some id =>
      simp only [Arg.kind, Arg.bytes]
      rw [word_written]
      show (if (ObjectId.ofRaw? id.raw).isNone && ! p.nullable then _ else
        Except.ok (some (Arg.object (ObjectId.ofRaw? id.raw)), _)) = _
      rw [ObjectId.ofRaw?_raw]
      rfl
  | newId id =>
    have hg : ¬ p.isGeneric = true := by rw [ha.isGeneric_eq]; exact Bool.false_ne_true
    unfold arg
    rw [hk]
    simp only [Arg.kind, Arg.bytes]
    rw [if_neg hg, newId_written]
    rfl
  | genericNewId interface version id =>
    have hg : p.isGeneric = true := ha.isGeneric_eq
    obtain ⟨hs, hl⟩ := (textFault?_eq_none_iff limit i interface).1 hf
    have := le_padded (interface.utf8ByteSize + 1)
    unfold arg
    rw [hk]
    simp only [Arg.kind, Arg.bytes]
    rw [if_pos hg, List.append_assoc, List.append_assoc, string_written _ _ _ _ _ hs (by omega)]
    rw [ok_bind]
    dsimp only
    rw [word_written, ok_bind]
    dsimp only
    rw [newId_written, ok_bind]
    have hsize : position + (Arg.genericNewId interface version id).size =
        position + (4 + padded (interface.utf8ByteSize + 1)) + 4 + 4 := by
      rw [Arg.size]; omega
    rw [hsize]
    rfl
  | array data =>
    have hl : ¬ limit < padded data.length := by
      intro h
      rw [Arg.fault?, if_pos h] at hf
      cases hf
    have := le_padded data.length
    unfold arg
    rw [hk]
    simp only [Arg.kind, Arg.bytes]
    rw [blob_written _ _ _ _ _ (by omega)]
    rfl
  | fd d =>
    unfold arg
    rw [hk]
    rfl

/-- The reader takes argument lists from the bytes that the writer gave them, argument by argument. -/
theorem Cursor.args_written (declared : Nat) {ps : List Param} {as : List Arg} {limit : Nat}
    (rest : List UInt8) (hlimit : limit < 0x100000000) (h : Signature.Fits ps as) :
    ∀ (index i position : Nat), argFaultFrom limit i as = none →
      args declared index ps ⟨as.flatMap Arg.bytes ++ rest, position⟩ =
        .ok (as.map Arg.pending, ⟨rest, position + argsSize as⟩) := by
  induction h with
  | nil =>
    intro index i position _
    rfl
  | @cons p ps a as ha _ ih =>
    intro index i position hf
    unfold argFaultFrom at hf
    split at hf
    · nomatch hf
    · rename_i hfa
      unfold args
      rw [List.flatMap_cons, List.append_assoc, arg_written _ _ _ _ ha hfa hlimit, ok_bind]
      dsimp only
      rw [ih (index + 1) (i + 1) (position + a.size) hf, ok_bind]
      rw [List.map_cons, argsSize, Nat.add_assoc]

/-! ## Descriptors -/

/-- Filling the kept places with the descriptors of the arguments gives the arguments back, and
leaves the descriptors that follow. -/
theorem claimFds_pending (as : List Arg) (g : List Descriptor) :
    claimFds (as.map Arg.pending) (as.filterMap Arg.fd? ++ g) = some (as, g) := by
  induction as with
  | nil => rfl
  | cons a as ih =>
    cases a with
    | fd d =>
      -- its place is the first one that is kept, so it gets its own descriptor back
      show (claimFds (as.map Arg.pending) (as.filterMap Arg.fd? ++ g)).map _ = _
      rw [ih]
      rfl
    | _ =>
      show (claimFds (as.map Arg.pending) (as.filterMap Arg.fd? ++ g)).map _ = _
      rw [ih]
      rfl

/-- Arguments that fit bring as many descriptors as the signature claims. -/
theorem Signature.Fits.fdCount_eq {ps : List Param} {as : List Arg} (h : Signature.Fits ps as) :
    ps.countP (·.kind == .fd) = (as.filterMap Arg.fd?).length := by
  induction h with
  | nil => rfl
  | @cons p ps a as ha _ ih =>
    rw [List.countP_cons, ih, ha.kind_eq]
    cases a with
    | fd d => rfl
    | _ => rfl

/-! ## Headers and messages -/

/-- The header in front of a message of an admissible size. -/
theorem peekHeader_frame {m : Message} (rest : List UInt8) (h : m.size ≤ maxMessageSize) :
    peekHeader (m.frame ++ rest) = .ok (some ⟨m.object.raw, m.opcode, UInt16.ofNat m.size⟩) := by
  have hop := m.opcode.toNat_lt
  have hsize : m.size < 0x10000 := by unfold maxMessageSize at h; omega
  have hword : (headerWord m.size m.opcode).toNat = m.size * 0x10000 + m.opcode.toNat := by
    rw [headerWord, UInt32.toNat_ofNat', Nat.mod_eq_of_lt (by omega)]
  have hhigh : (m.size * 0x10000 + m.opcode.toNat) / 0x10000 = m.size := by omega
  have hlow : UInt16.ofNat (m.size * 0x10000 + m.opcode.toNat) = m.opcode := by
    rw [← UInt16.toNat_inj, UInt16.toNat_ofNat']
    omega
  have hmod : m.size % 4 = 0 := by
    have := argsSize_mod m.args
    rw [Message.size, headerSize]
    omega
  have hnat : (UInt16.ofNat m.size).toNat = m.size := by
    rw [UInt16.toNat_ofNat', Nat.mod_eq_of_lt hsize]
  have hmin : 8 ≤ m.size := by rw [Message.size, headerSize]; omega
  unfold Message.frame
  rw [List.append_assoc, List.append_assoc]
  unfold peekHeader
  simp only [Word.bytes, List.cons_append, List.nil_append]
  rw [Word.ofBytes_bytes, Word.ofBytes_bytes, hword, hhigh, hlow, hnat, if_neg]
  unfold headerSize
  omega

/-- What the reader has seen when it gives a message: a header, the whole frame, the signature of its
target, enough descriptors, and a body that the arguments use up. -/
structure Reads (buffer : List UInt8) (fds : List Descriptor) (resolve : Resolver) (header : Header)
    (signature : Signature) (pending : List (Option Arg)) (position : Nat) (m : Message)
    (left : List Descriptor) : Prop where
  header_eq : peekHeader buffer = .ok (some header)
  complete : header.byteLength ≤ buffer.length
  object : ObjectId.ofRaw? header.object = some m.object
  opcode : header.opcode = m.opcode
  resolved : resolve m.object m.opcode = .ok signature
  enough : signature.fdCount ≤ fds.length
  body : Cursor.args header.byteLength 0 signature.params
    ⟨(buffer.take header.byteLength).drop headerSize, 0⟩ = .ok (pending, ⟨[], position⟩)
  claimed : claimFds pending fds = some (m.args, left)

/-- The one way in which a decode gives a message. -/
theorem decode_eq_message_iff {buffer : List UInt8} {fds left : List Descriptor} {resolve : Resolver}
    {m : Message} {consumed : Nat} : decode buffer fds resolve = .message m consumed left ↔
      ∃ header signature pending position,
        Reads buffer fds resolve header signature pending position m left ∧
          consumed = header.byteLength := by
  constructor
  · -- every check that fails gives another outcome, so all of them have passed
    intro h
    unfold decode at h
    split at h
    · nomatch h
    · nomatch h
    · rename_i header hh
      dsimp only at h
      split at h
      · nomatch h
      · rename_i hlen
        split at h
        · nomatch h
        · rename_i object ho
          split at h
          · nomatch h
          · rename_i signature hs
            split at h
            · nomatch h
            · rename_i hfd
              unfold decodeBody at h
              split at h
              · nomatch h
              · rename_i pending c hargs
                split at h
                · rename_i hrest
                  split at h
                  · nomatch h
                  · rename_i args left' hclaim
                    injection h with hm hc hl
                    subst hm hc hl
                    rw [List.length_take] at hlen
                    obtain ⟨rest, position⟩ := c
                    obtain rfl : rest = [] := List.isEmpty_iff.1 hrest
                    exact ⟨header, signature, pending, position,
                      ⟨hh, by omega, ho, rfl, hs, by omega, hargs, hclaim⟩, rfl⟩
                · nomatch h
  · rintro ⟨header, signature, pending, position, r, rfl⟩
    obtain ⟨object, opcode, args⟩ := m
    unfold decode
    rw [r.header_eq]
    dsimp only
    rw [if_neg (by rw [List.length_take]; have := r.complete; omega), r.object]
    dsimp only
    rw [r.opcode, r.resolved]
    dsimp only
    rw [if_neg (by have := r.enough; omega)]
    unfold decodeBody
    rw [r.body]
    dsimp only
    rw [if_pos List.isEmpty_nil, r.claimed]

/-- The reader gives back a message that was written within a limit and that fits the signature of
its target, whatever bytes and descriptors follow. -/
theorem decode_frame {m : Message} {limit : Nat} {resolve : Resolver} {s : Signature}
    (hlimit : limit ≤ maxMessageSize) (hm : m.fault? limit = none)
    (hs : resolve m.object m.opcode = .ok s) (ha : s.Accepts m.args) (rest : List UInt8)
    (g : List Descriptor) :
    decode (m.frame ++ rest) (m.descriptors ++ g) resolve = .message m m.size g := by
  have hmax : limit < 0x100000000 := by unfold maxMessageSize at hlimit; omega
  unfold Message.fault? at hm
  split at hm
  · nomatch hm
  · rename_i hargs
    split at hm
    · nomatch hm
    · rename_i hsize
      have hle : m.size ≤ maxMessageSize := by omega
      have hnat : (UInt16.ofNat m.size).toNat = m.size := by
        rw [UInt16.toNat_ofNat', Nat.mod_eq_of_lt]
        unfold maxMessageSize at hle
        omega
      have hframe : (m.frame ++ rest).take m.size = m.frame := List.take_left' m.length_frame
      have hbody : m.frame.drop headerSize = m.body := by
        unfold Message.frame
        exact List.drop_left' (by
          rw [List.length_append, Word.length_bytes, Word.length_bytes, headerSize])
      have hfds : s.fdCount = m.descriptors.length := ha.fdCount_eq
      have hread := Cursor.args_written m.size [] hmax ha 0 0 0 hargs
      rw [List.append_nil] at hread
      refine decode_eq_message_iff.2 ⟨_, s, _, 0 + argsSize m.args,
        ⟨peekHeader_frame rest hle, ?_, ObjectId.ofRaw?_raw _, rfl, hs, ?_, ?_,
          claimFds_pending m.args g⟩, hnat.symm⟩
      · rw [Header.byteLength, hnat, List.length_append, m.length_frame]
        omega
      · rw [List.length_append]
        omega
      · rw [Header.byteLength, hnat, hframe, hbody]
        exact hread

/-! ## Messages that nobody takes -/

theorem Message.size_le_of_fault? {m : Message} {limit : Nat} (h : m.fault? limit = none) :
    m.size ≤ limit := by
  unfold fault? at h
  split at h
  · nomatch h
  · split at h
    · nomatch h
    · omega

/-- The header in front of a message names its target and opcode, and declares its size. -/
theorem exists_header_frame {m : Message} (h : m.size ≤ maxMessageSize) (rest : List UInt8) :
    ∃ header, peekHeader (m.frame ++ rest) = .ok (some header) ∧ header.object = m.object.raw ∧
      header.opcode = m.opcode ∧ header.byteLength = m.size := by
  have hlt : m.size < 2 ^ 16 := by
    unfold maxMessageSize at h
    omega
  refine ⟨_, peekHeader_frame rest h, rfl, rfl, ?_⟩
  show (UInt16.ofNat m.size).toNat = m.size
  rw [UInt16.toNat_ofNat', Nat.mod_eq_of_lt hlt]

/-- A complete message fails where its target or its opcode is unknown, whatever its arguments are and however
few descriptors have come with it. -/
theorem decode_of_unresolved {buffer : List UInt8} {fds : List Descriptor} {resolve : Resolver}
    {header : Header} {object : ObjectId} {e : Error} (hpeek : peekHeader buffer = .ok (some header))
    (hcomplete : header.byteLength ≤ buffer.length) (hobject : ObjectId.ofRaw? header.object = some object)
    (hs : resolve object header.opcode = .error e) : decode buffer fds resolve = .failed e := by
  have hlength : ¬ (buffer.take header.byteLength).length < header.byteLength := by
    rw [List.length_take]
    omega
  unfold decode
  rw [hpeek]
  dsimp only
  rw [if_neg hlength, hobject]
  dsimp only
  rw [hs]

end Compositor.Wire
