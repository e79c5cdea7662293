import Compositor.Proofs.Wire.Reading

/-
  What the reader accepts, the writer writes.

  The reader, the check of a signature and the writer are three case analyses over the kinds of
  argument.  They agree: a message that was read fits the signature it was read by, it can be sent
  within any limit that its size meets, and sending it gives the bytes it was read from.  The bytes
  after a blob are the one exception, since the reader skips them and the writer fills them with zeros;
  `Message.paddingMask` says which these are, and `blank` sets them to zero.

  `Cursor.Took` says what one step of the reader took off the front of its input.  It composes
  (`Took.trans`), so that every function of the reader gets one lemma and `canonical_of_decode` is put
  together from them.
-/

namespace Compositor.Wire

/-! ## Padding -/

/-- Which bytes of a blob of `n` bytes are padding: not its length, not its data, but all after them. -/
def blobMask (n : Nat) : List Bool := List.replicate (4 + n) false ++ List.replicate (padding n) true

/-- The bytes of a word: none is padding. -/
def wordMask : List Bool := List.replicate 4 false

/-- Which bytes of an argument are padding. -/
def Arg.paddingMask : Arg → List Bool
  | .string (some s) => blobMask (s.utf8ByteSize + 1)
  | .genericNewId interface _ _ => blobMask (interface.utf8ByteSize + 1) ++ wordMask ++ wordMask
  | .array data => blobMask data.length
  | .fd _ => []
  | _ => wordMask

/-- Which bytes of a message are padding. -/
def Message.paddingMask (m : Message) : List Bool :=
  wordMask ++ wordMask ++ m.args.flatMap Arg.paddingMask

/-- Sets the bytes to zero that a mask marks. -/
def blank (mask : List Bool) (bytes : List UInt8) : List UInt8 :=
  List.zipWith (fun padding b => if padding then 0 else b) mask bytes

theorem blank_append {mask mask' : List Bool} {bytes bytes' : List UInt8}
    (h : bytes.length = mask.length) :
    blank (mask ++ mask') (bytes ++ bytes') = blank mask bytes ++ blank mask' bytes' :=
  List.zipWith_append h.symm

/-- What is no padding stays as it is. -/
theorem blank_data {n : Nat} {bytes : List UInt8} (h : bytes.length = n) :
    blank (List.replicate n false) bytes = bytes := by
  subst h
  induction bytes with
  | nil => rfl
  | cons b bytes ih =>
    show b :: blank (List.replicate bytes.length false) bytes = b :: bytes
    rw [ih]

/-- Padding becomes zero. -/
theorem blank_padding {n : Nat} {bytes : List UInt8} (h : bytes.length = n) :
    blank (List.replicate n true) bytes = List.replicate n 0 := by
  subst h
  induction bytes with
  | nil => rfl
  | cons b bytes ih =>
    show 0 :: blank (List.replicate bytes.length true) bytes = 0 :: List.replicate bytes.length 0
    rw [ih]

theorem length_blobMask (n : Nat) : (blobMask n).length = 4 + padded n := by
  have := add_padding n
  rw [blobMask, List.length_append, List.length_replicate, List.length_replicate]
  omega

theorem Arg.length_paddingMask (a : Arg) : a.paddingMask.length = a.size := by
  cases a with
  | string v =>
    cases v with
    | none => rfl
    | some s => exact length_blobMask _
  | genericNewId interface version id =>
    have := length_blobMask (interface.utf8ByteSize + 1)
    simp only [paddingMask, size, List.length_append, wordMask, List.length_replicate, this]
  | array data => exact length_blobMask _
  | _ => rfl

theorem Message.length_paddingMask (m : Message) : m.paddingMask.length = m.size := by
  have h : ∀ as : List Arg, (as.flatMap Arg.paddingMask).length = argsSize as := by
    intro as
    induction as with
    | nil => rfl
    | cons a as ih =>
      rw [List.flatMap_cons, List.length_append, a.length_paddingMask, ih, argsSize]
  rw [paddingMask, List.length_append, h, size]
  rfl

/-! ## What a step of the reader takes -/

/-- Between two places of the reader stand bytes that are `written` but for their padding. -/
def Cursor.Took (c c' : Cursor) (mask : List Bool) (written : List UInt8) : Prop :=
  ∃ bytes, c.rest = bytes ++ c'.rest ∧ c'.position = c.position + bytes.length ∧
    bytes.length = mask.length ∧ blank mask bytes = written

namespace Cursor

theorem Took.trans {c c' c'' : Cursor} {mask mask' : List Bool} {written written' : List UInt8}
    (h : Took c c' mask written) (h' : Took c' c'' mask' written') :
    Took c c'' (mask ++ mask') (written ++ written') := by
  obtain ⟨bytes, hrest, hpos, hlen, hw⟩ := h
  obtain ⟨bytes', hrest', hpos', hlen', hw'⟩ := h'
  refine ⟨bytes ++ bytes', ?_, ?_, ?_, ?_⟩
  · rw [hrest, hrest', List.append_assoc]
  · rw [hpos', hpos, List.length_append, Nat.add_assoc]
  · rw [List.length_append, List.length_append, hlen, hlen']
  · rw [blank_append hlen, hw, hw']

theorem Took.nothing (c : Cursor) : Took c c [] [] := ⟨[], rfl, rfl, rfl, rfl⟩

theorem took_of_word {declared : Nat} {c c' : Cursor} {w : UInt32}
    (h : c.word declared = .ok (w, c')) : Took c c' wordMask (Word.bytes w) := by
  unfold word at h
  split at h
  · rename_i b0 b1 b2 b3 rest hrest
    injection h with h
    injection h with hw hc
    subst hw hc
    refine ⟨[b0, b1, b2, b3], hrest, rfl, rfl, ?_⟩
    rw [Word.bytes_ofBytes]
    exact blank_data rfl
  · nomatch h

theorem took_of_blob {declared : Nat} {overrun : UInt32 → Error} {c c' : Cursor}
    {data : List UInt8} (h : c.blob declared overrun = .ok (data, c')) :
    Took c c' (blobMask data.length) (Wire.blob data) := by
  unfold blob at h
  obtain ⟨⟨len, c1⟩, hword, h⟩ := exists_of_bind_eq_ok h
  dsimp only at h
  split at h
  · rename_i hle
    injection h with h
    injection h with hdata hc
    subst hdata hc
    obtain ⟨bytes, hrest, hpos, hlen, hblank⟩ := took_of_word hword
    have hfit := le_padded len.toNat
    have htake : (c1.rest.take len.toNat).length = len.toNat := by
      rw [List.length_take]; omega
    have hpad : ((c1.rest.drop len.toNat).take (padding len.toNat)).length = padding len.toNat := by
      have := add_padding len.toNat
      rw [List.length_take, List.length_drop]; omega
    rw [htake]
    refine ⟨bytes ++ c1.rest.take len.toNat ++ (c1.rest.drop len.toNat).take (padding len.toNat),
      ?_, ?_, ?_, ?_⟩
    · -- the word, the data, the padding, and the rest
      rw [hrest, List.append_assoc, List.append_assoc]
      congr 1
      have hdrop : c1.rest.drop (padded len.toNat) =
          (c1.rest.drop len.toNat).drop (padding len.toNat) := by
        rw [List.drop_drop, add_padding]
      rw [hdrop, List.take_append_drop, List.take_append_drop]
    · have := add_padding len.toNat
      rw [List.length_append, List.length_append, htake, hpad, hpos]
      dsimp only
      omega
    · rw [List.length_append, List.length_append, htake, hpad, hlen, blobMask, List.length_append,
        List.length_replicate, List.length_replicate]
      rfl
    · -- the reader looks at no byte of the padding, so blanking is all that makes it zero
      have hlength : bytes = Word.bytes len := by
        rw [← hblank]
        have h4 : bytes.length = 4 := hlen
        exact (blank_data h4).symm
      have hof : UInt32.ofNat len.toNat = len := UInt32.ofNat_toNat
      rw [blobMask, blank_append, blank_data, blank_padding hpad, hlength, Wire.blob, htake, hof]
      · rw [List.length_append, htake, hlen]
        rfl
      · rw [List.length_append, List.length_replicate, htake, hlen]
        rfl
  · cases h

/-- A text that is read has no NUL, and its bytes end in one. -/
theorem eq_of_textOf? {raw : List UInt8} {s : String} (h : textOf? raw = some s) :
    raw = nulTerminated s ∧ hasNul s = false := by
  unfold textOf? at h
  split at h
  · rename_i hlast
    split at h
    · nomatch h
    · rename_i hz
      have hdrop := Text.eq_utf8_of_ofUtf8? h
      obtain ⟨front, rfl⟩ := List.getLast?_eq_some_iff.1 hlast
      rw [List.dropLast_concat] at hdrop hz
      subst hdrop
      refine ⟨rfl, ?_⟩
      cases hn : hasNul s with
      | false => rfl
      | true => exact absurd (List.contains_iff_mem.2 ((hasNul_iff s).1 hn)) hz
  · nomatch h

/-- A string is null, which takes a word, or a text, which takes a blob. -/
theorem took_of_string {declared index : Nat} {nullable : Bool} {c c' : Cursor} {v : Option String}
    (h : c.string declared index nullable = .ok (v, c')) :
    (v = none ∧ nullable = true ∧ Took c c' wordMask (Word.bytes 0)) ∨
      ∃ s, v = some s ∧ hasNul s = false ∧
        Took c c' (blobMask (s.utf8ByteSize + 1)) (Wire.blob (nulTerminated s)) := by
  unfold string at h
  obtain ⟨⟨raw, c1⟩, hblob, h⟩ := exists_of_bind_eq_ok h
  have htook := took_of_blob hblob
  dsimp only at h
  split at h
  · -- no bytes at all mean null; the empty text still has its NUL
    rename_i hempty
    obtain rfl : raw = [] := List.isEmpty_iff.1 hempty
    split at h
    · rename_i hnull
      injection h with h
      injection h with hv hc
      subst hv hc
      exact .inl ⟨rfl, hnull, htook⟩
    · nomatch h
  · split at h
    · rename_i s hs
      obtain ⟨rfl, hnul⟩ := eq_of_textOf? hs
      injection h with h
      injection h with hv hc
      subst hv hc
      rw [length_nulTerminated] at htook
      exact .inr ⟨s, rfl, hnul, htook⟩
    · nomatch h

theorem took_of_newId {declared index : Nat} {c c' : Cursor} {id : ObjectId}
    (h : c.newId declared index = .ok (id, c')) : Took c c' wordMask (Word.bytes id.raw) := by
  unfold newId at h
  obtain ⟨⟨raw, c1⟩, hword, h⟩ := exists_of_bind_eq_ok h
  dsimp only at h
  split at h
  · rename_i id' hid
    injection h with h
    injection h with hv hc
    subst hv hc
    rw [ObjectId.ofRaw?_eq_some_iff.1 hid]
    exact took_of_word hword
  · nomatch h

end Cursor

/-- An argument that is neither null nor carries a text fits as soon as its kind does. -/
theorem Param.accepts_of_shape {p : Param} {a : Arg} (h : p.shapeOk a = true) (hnull : a.isNull = false)
    (htext : a.text? = none) : p.Accepts a := by
  refine ⟨h, fun h' => ?_, fun s h' => ?_⟩
  · rw [hnull] at h'
    cases h'
  · rw [htext] at h'
    cases h'

/-- Null fits where it is welcome. -/
theorem Param.accepts_of_null {p : Param} {a : Arg} (h : p.shapeOk a = true) (hnull : p.nullable = true)
    (htext : a.text? = none) : p.Accepts a := by
  refine ⟨h, fun _ => hnull, fun s h' => ?_⟩
  rw [htext] at h'
  cases h'

/-- A text fits if it has no NUL. -/
theorem Param.accepts_of_text {p : Param} {a : Arg} {s : String} (h : p.shapeOk a = true)
    (hnull : a.isNull = false) (htext : a.text? = some s) (hnul : hasNul s = false) : p.Accepts a := by
  refine ⟨h, fun h' => ?_, fun s' h' => ?_⟩
  · rw [hnull] at h'
    cases h'
  · rw [htext] at h'
    injection h' with h'
    rw [← h']
    exact hnul

/-- A reader that only wraps what another one reads succeeds exactly where that one does. -/
theorem exists_of_wrap_eq_ok {α : Type} {x : Except Error (α × Cursor)} (f : α → Arg) {v : Option Arg}
    {c' : Cursor} (h : (x >>= fun (a, c) => .ok (some (f a), c)) = .ok (v, c')) :
    ∃ a, x = .ok (a, c') ∧ v = some (f a) := by
  obtain ⟨⟨a, c⟩, hx, h⟩ := exists_of_bind_eq_ok h
  injection h with h
  injection h with hv hc
  rw [← hc]
  exact ⟨a, hx, hv.symm⟩

/-- What is read for a parameter fits it, and stands in the bytes that were read.  Descriptors stand in
no bytes. -/
theorem Cursor.took_of_arg {declared index : Nat} {p : Param} {c c' : Cursor} {v : Option Arg}
    (h : c.arg declared index p = .ok (v, c')) :
    (v = none ∧ p.kind = .fd ∧ c' = c) ∨
      ∃ a, v = some a ∧ a.fd? = none ∧ p.Accepts a ∧ Took c c' a.paddingMask a.bytes := by
  unfold arg at h
  split at h
  · rename_i hk
    obtain ⟨w, hword, rfl⟩ := exists_of_wrap_eq_ok (fun w : UInt32 => .int w.toInt32) h
    refine .inr ⟨_, rfl, rfl, Param.accepts_of_shape (beq_iff_eq.2 hk) rfl rfl, ?_⟩
    rw [Arg.bytes, UInt32.toUInt32_toInt32]
    exact took_of_word hword
  · rename_i hk
    obtain ⟨w, hword, rfl⟩ := exists_of_wrap_eq_ok (fun w => .uint w) h
    exact .inr ⟨_, rfl, rfl, Param.accepts_of_shape (beq_iff_eq.2 hk) rfl rfl, took_of_word hword⟩
  · rename_i hk
    obtain ⟨w, hword, rfl⟩ := exists_of_wrap_eq_ok (fun w : UInt32 => .fixed ⟨w.toInt32⟩) h
    refine .inr ⟨_, rfl, rfl, Param.accepts_of_shape (beq_iff_eq.2 hk) rfl rfl, ?_⟩
    rw [Arg.bytes, UInt32.toUInt32_toInt32]
    exact took_of_word hword
  · rename_i hk
    obtain ⟨s, hstring, rfl⟩ := exists_of_wrap_eq_ok (fun s => .string s) h
    rcases took_of_string hstring with ⟨rfl, hnull, htook⟩ | ⟨s, rfl, hnul, htook⟩
    · exact .inr ⟨_, rfl, rfl, Param.accepts_of_null (beq_iff_eq.2 hk) hnull rfl, htook⟩
    · exact .inr ⟨_, rfl, rfl, Param.accepts_of_text (beq_iff_eq.2 hk) rfl rfl hnul, htook⟩
  · -- an object: the word zero is read as null, and only where that is welcome
    rename_i hk
    obtain ⟨⟨w, c1⟩, hword, h⟩ := exists_of_bind_eq_ok h
    have htook := took_of_word hword
    dsimp only at h
    split at h
    · cases h
    · rename_i hnull
      injection h with h
      injection h with hv hc
      subst hv hc
      cases hid : ObjectId.ofRaw? w with
      | none =>
        rw [hid] at hnull
        obtain rfl := ObjectId.ofRaw?_eq_none_iff.1 hid
        have hwelcome : p.nullable = true := by simpa using hnull
        exact .inr ⟨_, rfl, rfl, Param.accepts_of_null (beq_iff_eq.2 hk) hwelcome rfl, htook⟩
      | some id =>
        rw [← ObjectId.ofRaw?_eq_some_iff.1 hid] at htook
        exact .inr ⟨_, rfl, rfl, Param.accepts_of_shape (beq_iff_eq.2 hk) rfl rfl, htook⟩
  · rename_i hk
    split at h
    · -- a generic new id: a text, a word and the id
      rename_i hg
      obtain ⟨⟨s, c1⟩, hstring, h⟩ := exists_of_bind_eq_ok h
      dsimp only at h
      rcases took_of_string hstring with ⟨_, hnull, _⟩ | ⟨s, rfl, hnul, htook⟩
      · exact absurd hnull Bool.false_ne_true
      · dsimp only at h
        obtain ⟨⟨version, c2⟩, hversion, h⟩ := exists_of_bind_eq_ok h
        dsimp only at h
        obtain ⟨id, hid, rfl⟩ := exists_of_wrap_eq_ok (fun id => .genericNewId s version id) h
        exact .inr ⟨_, rfl, rfl, Param.accepts_of_text hg rfl rfl hnul,
          (htook.trans (took_of_word hversion)).trans (took_of_newId hid)⟩
    · rename_i hg
      obtain ⟨id, hid, rfl⟩ := exists_of_wrap_eq_ok (fun id => .newId id) h
      refine .inr ⟨_, rfl, rfl, Param.accepts_of_shape ?_ rfl rfl, took_of_newId hid⟩
      rw [Param.isGeneric, hk] at hg
      rw [Param.shapeOk, hk]
      cases hi : p.interface with
      | none => rw [hi] at hg; exact absurd rfl hg
      | some _ => rfl
  · rename_i hk
    obtain ⟨data, hblob, rfl⟩ := exists_of_wrap_eq_ok (fun data => .array data) h
    exact .inr ⟨_, rfl, rfl, Param.accepts_of_shape (beq_iff_eq.2 hk) rfl rfl, took_of_blob hblob⟩
  · rename_i hk
    injection h with h
    injection h with hv hc
    exact .inl ⟨hv.symm, hk, hc.symm⟩

/-- What is read for the parameters fits them one by one, stands in the bytes that were read, and has
its descriptors off the front of those that wait. -/
theorem Cursor.took_of_args {declared : Nat} {ps : List Param} : ∀ {index : Nat} {c c' : Cursor}
    {pending : List (Option Arg)} {as : List Arg} {fds left : List Descriptor},
    args declared index ps c = .ok (pending, c') → claimFds pending fds = some (as, left) →
      Signature.Fits ps as ∧ Took c c' (as.flatMap Arg.paddingMask) (as.flatMap Arg.bytes) ∧
        fds = as.filterMap Arg.fd? ++ left := by
  induction ps with
  | nil =>
    intro index c c' pending as fds left h hclaim
    injection h with h
    injection h with hp hc
    subst hp hc
    injection hclaim with hclaim
    injection hclaim with ha hl
    subst ha hl
    exact ⟨.nil, .nothing _, rfl⟩
  | cons p ps ih =>
    intro index c c' pending as fds left h hclaim
    unfold args at h
    obtain ⟨⟨v, c1⟩, harg, h⟩ := exists_of_bind_eq_ok h
    dsimp only at h
    obtain ⟨⟨vs, c2⟩, hargs, h⟩ := exists_of_bind_eq_ok h
    injection h with h
    injection h with hp hc
    subst hp hc
    rcases took_of_arg harg with ⟨rfl, hk, rfl⟩ | ⟨a, rfl, hfd, ha, htook⟩
    · -- a place that is kept takes the next descriptor
      cases fds with
      | nil => injection hclaim
      | cons d fds =>
        obtain ⟨⟨as', left'⟩, hrest, heq⟩ := Option.map_eq_some_iff.1 hclaim
        injection heq with ha hl
        subst ha hl
        obtain ⟨hfits, htook, hfds⟩ := ih hargs hrest
        refine ⟨.cons (Param.accepts_of_shape (beq_iff_eq.2 hk) rfl rfl) hfits, htook, ?_⟩
        rw [hfds]
        rfl
    · obtain ⟨⟨as', left'⟩, hrest, heq⟩ := Option.map_eq_some_iff.1 hclaim
      injection heq with ha' hl
      subst ha' hl
      obtain ⟨hfits, htook', hfds⟩ := ih hargs hrest
      refine ⟨.cons ha hfits, htook.trans htook', ?_⟩
      rw [List.filterMap_cons, hfd, hfds]

/-! ## Sending what was read -/

/-- Nothing stands in the way of an argument that fits, as long as its size is within the limit. -/
theorem Param.Accepts.fault?_eq_none {p : Param} {a : Arg} {limit : Nat} (ha : p.Accepts a)
    (h : a.size ≤ limit) (index : Nat) : a.fault? limit index = none := by
  cases a with
  | string v =>
    cases v with
    | none => rfl
    | some s =>
      rw [Arg.size] at h
      exact (textFault?_eq_none_iff limit index s).2 ⟨ha.text s rfl, by omega⟩
  | genericNewId interface version id =>
    rw [Arg.size] at h
    exact (textFault?_eq_none_iff limit index interface).2 ⟨ha.text interface rfl, by omega⟩
  | array data =>
    rw [Arg.size] at h
    rw [Arg.fault?, if_neg (by omega)]
  | _ => rfl

/-- The same for whole argument lists. -/
theorem Signature.Fits.argFaultFrom_eq_none {ps : List Param} {as : List Arg} {limit : Nat}
    (h : Fits ps as) (hsize : argsSize as ≤ limit) :
    ∀ index, argFaultFrom limit index as = none := by
  induction h with
  | nil =>
    intro index
    rfl
  | @cons p ps a as ha _ ih =>
    intro index
    rw [argsSize] at hsize
    rw [argFaultFrom, ha.fault?_eq_none (by omega)]
    exact ih (by omega) (index + 1)

/-- A header that is read stands at the front of the buffer, and declares no more than the writer can. -/
theorem bytes_of_peekHeader {buffer : List UInt8} {h : Header}
    (hh : peekHeader buffer = .ok (some h)) :
    buffer.take headerSize = Word.bytes h.object ++ Word.bytes (headerWord h.byteLength h.opcode) ∧
      h.byteLength ≤ maxMessageSize := by
  have hmod := (peekHeader_bounds hh).2
  unfold peekHeader at hh
  split at hh
  · rename_i b0 b1 b2 b3 b4 b5 b6 b7 rest
    dsimp only at hh
    split at hh
    · cases hh
    · injection hh with hh
      injection hh with hh
      subst hh
      have hlt := (Word.ofBytes b4 b5 b6 b7).toNat_lt
      have hsize : (UInt16.ofNat ((Word.ofBytes b4 b5 b6 b7).toNat / 0x10000)).toNat =
          (Word.ofBytes b4 b5 b6 b7).toNat / 0x10000 := by
        rw [UInt16.toNat_ofNat', Nat.mod_eq_of_lt (by omega)]
      have hword : headerWord (UInt16.ofNat ((Word.ofBytes b4 b5 b6 b7).toNat / 0x10000)).toNat
          (UInt16.ofNat (Word.ofBytes b4 b5 b6 b7).toNat) = Word.ofBytes b4 b5 b6 b7 := by
        apply UInt32.toNat_inj.1
        rw [headerWord, UInt32.toNat_ofNat', hsize, UInt16.toNat_ofNat']
        omega
      unfold Header.byteLength at hmod ⊢
      dsimp only at hmod ⊢
      rw [hword, Word.bytes_ofBytes, Word.bytes_ofBytes]
      rw [hsize] at hmod ⊢
      refine ⟨rfl, ?_⟩
      unfold maxMessageSize
      omega
  · cases hh

/-- A message as the reader gives it, with the bytes and descriptors that it used and those that are
left. -/
structure Canonical (buffer : List UInt8) (fds : List Descriptor) (resolve : Resolver) (m : Message)
    (consumed : Nat) (left : List Descriptor) : Prop where
  /-- The signature of the target accepts the arguments, and claims their descriptors. -/
  accepted : ∃ s, resolve m.object m.opcode = .ok s ∧ s.check m.args = .ok () ∧
    m.descriptors = fds.take s.fdCount
  /-- The descriptors that the message did not claim are left. -/
  fds_eq : fds = m.descriptors ++ left
  header_le : 8 ≤ consumed
  le_length : consumed ≤ buffer.length
  aligned : consumed % 4 = 0
  declared : ∃ h, peekHeader buffer = .ok (some h) ∧ h.byteLength = consumed
  /-- The mask of the message's padding has a place for each byte that was used. -/
  length_mask : m.paddingMask.length = consumed
  /-- Sending the message gives the bytes that were used, but for their padding. -/
  writes : ∀ limit, consumed ≤ limit → ∃ o, (Outbox.withLimit limit).push m = .ok o ∧
    o.bytes = blank m.paddingMask (buffer.take consumed) ∧ o.fds = m.descriptors

/-- Whatever the reader gives is canonical. -/
theorem canonical_of_decode {buffer : List UInt8} {fds left : List Descriptor} {resolve : Resolver}
    {m : Message} {consumed : Nat} (h : decode buffer fds resolve = .message m consumed left) :
    Canonical buffer fds resolve m consumed left := by
  have hbounds := decode_message_bounds h
  obtain ⟨header, s, pending, position, r, rfl⟩ := decode_eq_message_iff.1 h
  obtain ⟨hfits, ⟨bytes, hbody, -, hlen, hblank⟩, hfds⟩ := Cursor.took_of_args r.body r.claimed
  obtain ⟨hfront, hmax⟩ := bytes_of_peekHeader r.header_eq
  have hcomplete := r.complete
  rw [List.append_nil] at hbody
  dsimp only at hbody
  -- the frame is the header and what the arguments took
  have hframe : buffer.take header.byteLength =
      Word.bytes m.object.raw ++ Word.bytes (headerWord header.byteLength m.opcode) ++ bytes := by
    rw [← List.take_append_drop headerSize (buffer.take header.byteLength), hbody, List.take_take,
      Nat.min_eq_left (show headerSize ≤ header.byteLength from hbounds.1), hfront, r.opcode,
      ObjectId.ofRaw?_eq_some_iff.1 r.object]
  have hmask : m.paddingMask.length = header.byteLength := by
    have hl := congrArg List.length hframe
    rw [List.length_take, List.length_append, List.length_append, Word.length_bytes,
      Word.length_bytes, hlen] at hl
    rw [Message.paddingMask, List.length_append, List.length_append, wordMask, List.length_replicate]
    omega
  have hsize : m.size = header.byteLength := by rw [← m.length_paddingMask, hmask]
  have hblanked : blank m.paddingMask (buffer.take header.byteLength) = m.frame := by
    rw [hframe, Message.paddingMask, blank_append, blank_append, hblank, wordMask,
      blank_data (Word.length_bytes _), blank_data (Word.length_bytes _), Message.frame, hsize,
      Message.body]
    · rfl
    · rfl
  refine ⟨⟨s, r.resolved, (s.check_eq_ok_iff m.args).2 hfits, ?_⟩, hfds, hbounds.1, hbounds.2.1,
    hbounds.2.2, ⟨header, r.header_eq, rfl⟩, hmask, ?_⟩
  · have hcount : s.fdCount = m.descriptors.length := hfits.fdCount_eq
    rw [hcount, hfds]
    exact (List.take_left' rfl).symm
  · -- the frame has the size that was declared, so no limit above it is in the way
    intro limit hlimit
    have hmin : header.byteLength ≤ min limit maxMessageSize := by omega
    have hsum : argsSize m.args ≤ min limit maxMessageSize := by
      rw [← hsize, Message.size] at hmin
      omega
    refine ⟨(Outbox.withLimit limit).append m, (Outbox.push_eq_ok_iff _ _ _).2 ⟨?_, rfl⟩, ?_, ?_⟩
    · show m.fault? (min limit maxMessageSize) = none
      rw [Message.fault?, hfits.argFaultFrom_eq_none hsum, hsize, if_neg (by omega)]
    · rw [Outbox.bytes_append, hblanked]
      rfl
    · rw [Outbox.fds_append]
      rfl

/-! ## What the reader cannot complain of -/

/-- The complaint that arguments are too many, too few, or of another kind than declared.  A reader goes
by the signature, so it has nothing to compare. -/
def Error.isMisfit : Error → Bool
  | .argumentCount .. | .argumentType .. => true
  | _ => false

/-- Steps fail together only if one of them does. -/
theorem of_bind_eq_error {ε α β : Type} {x : Except ε α} {f : α → Except ε β} {e : ε}
    (h : (x >>= f) = .error e) : x = .error e ∨ ∃ a, x = .ok a ∧ f a = .error e := by
  cases x with
  | error e' =>
    have h : (Except.error e' : Except ε β) = .error e := h
    injection h with h
    exact .inl (congrArg Except.error h)
  | ok a => exact .inr ⟨a, rfl, h⟩

/-- A reader that only wraps what another one reads fails as that one does. -/
theorem eq_error_of_wrap {α : Type} {x : Except Error (α × Cursor)} (f : α → Arg) {e : Error}
    (h : (x >>= fun (a, c) => .ok (some (f a), c)) = .error e) : x = .error e := by
  rcases of_bind_eq_error h with hx | ⟨_, -, h⟩
  · exact hx
  · cases h

namespace Cursor

theorem not_isMisfit_of_word {declared : Nat} {c : Cursor} {e : Error}
    (h : c.word declared = .error e) : e.isMisfit = false := by
  unfold word at h
  split at h
  · nomatch h
  · injection h with h
    subst h
    rfl

theorem not_isMisfit_of_blob {declared : Nat} {overrun : UInt32 → Error} {c : Cursor} {e : Error}
    (hoverrun : ∀ len, (overrun len).isMisfit = false) (h : c.blob declared overrun = .error e) :
    e.isMisfit = false := by
  rcases of_bind_eq_error h with hword | ⟨⟨len, c1⟩, -, h⟩
  · exact not_isMisfit_of_word hword
  · dsimp only at h
    split at h
    · nomatch h
    · injection h with h
      subst h
      exact hoverrun len

theorem not_isMisfit_of_string {declared index : Nat} {nullable : Bool} {c : Cursor} {e : Error}
    (h : c.string declared index nullable = .error e) : e.isMisfit = false := by
  rcases of_bind_eq_error h with hblob | ⟨⟨raw, c1⟩, -, h⟩
  · exact not_isMisfit_of_blob (fun _ => rfl) hblob
  · dsimp only at h
    split at h
    · split at h
      · nomatch h
      · injection h with h
        subst h
        rfl
    · split at h
      · nomatch h
      · injection h with h
        subst h
        rfl

theorem not_isMisfit_of_newId {declared index : Nat} {c : Cursor} {e : Error}
    (h : c.newId declared index = .error e) : e.isMisfit = false := by
  rcases of_bind_eq_error h with hword | ⟨⟨raw, c1⟩, -, h⟩
  · exact not_isMisfit_of_word hword
  · dsimp only at h
    split at h
    · nomatch h
    · injection h with h
      subst h
      rfl

theorem not_isMisfit_of_arg {declared index : Nat} {p : Param} {c : Cursor} {e : Error}
    (h : c.arg declared index p = .error e) : e.isMisfit = false := by
  unfold arg at h
  split at h
  · exact not_isMisfit_of_word (eq_error_of_wrap (fun w : UInt32 => .int w.toInt32) h)
  · exact not_isMisfit_of_word (eq_error_of_wrap (fun w => .uint w) h)
  · exact not_isMisfit_of_word (eq_error_of_wrap (fun w : UInt32 => .fixed ⟨w.toInt32⟩) h)
  · exact not_isMisfit_of_string (eq_error_of_wrap (fun s => .string s) h)
  · rcases of_bind_eq_error h with hword | ⟨⟨w, c1⟩, -, h⟩
    · exact not_isMisfit_of_word hword
    · dsimp only at h
      split at h
      · injection h with h
        subst h
        rfl
      · cases h
  · split at h
    · rcases of_bind_eq_error h with hstring | ⟨⟨s, c1⟩, -, h⟩
      · exact not_isMisfit_of_string hstring
      · dsimp only at h
        split at h
        · injection h with h
          subst h
          rfl
        · rename_i interface
          rcases of_bind_eq_error h with hword | ⟨⟨version, c2⟩, -, h⟩
          · exact not_isMisfit_of_word hword
          · exact not_isMisfit_of_newId
              (eq_error_of_wrap (fun id => .genericNewId interface version id) h)
    · exact not_isMisfit_of_newId (eq_error_of_wrap (fun id => .newId id) h)
  · exact not_isMisfit_of_blob (fun _ => rfl) (eq_error_of_wrap (fun data => .array data) h)
  · cases h

theorem not_isMisfit_of_args {declared : Nat} {e : Error} {ps : List Param} : ∀ {index : Nat}
    {c : Cursor}, args declared index ps c = .error e → e.isMisfit = false := by
  induction ps with
  | nil =>
    intro index c h
    nomatch h
  | cons p ps ih =>
    intro index c h
    rcases of_bind_eq_error h with harg | ⟨⟨a, c1⟩, -, h⟩
    · exact not_isMisfit_of_arg harg
    · rcases of_bind_eq_error h with hargs | ⟨_, -, h⟩
      · exact ih hargs
      · nomatch h

end Cursor

theorem not_isMisfit_of_peekHeader {buffer : List UInt8} {e : Error}
    (h : peekHeader buffer = .error e) : e.isMisfit = false := by
  unfold peekHeader at h
  split at h
  · dsimp only at h
    split at h
    · injection h with h
      subst h
      rfl
    · nomatch h
  · nomatch h

/-- The reader never says that arguments do not fit, unless the lookup of the signature says so. -/
theorem not_isMisfit_of_decode {buffer : List UInt8} {fds : List Descriptor} {resolve : Resolver}
    {e : Error} (hresolve : ∀ id opcode e, resolve id opcode = .error e → e.isMisfit = false)
    (h : decode buffer fds resolve = .failed e) : e.isMisfit = false := by
  unfold decode at h
  split at h
  · rename_i e' hheader
    injection h with h
    subst h
    exact not_isMisfit_of_peekHeader hheader
  · nomatch h
  · dsimp only at h
    split at h
    · nomatch h
    · split at h
      · injection h with h
        subst h
        rfl
      · split at h
        · rename_i e' he
          injection h with h
          subst h
          exact hresolve _ _ _ he
        · split at h
          · nomatch h
          · unfold decodeBody at h
            split at h
            · rename_i e' hargs
              injection h with h
              subst h
              exact Cursor.not_isMisfit_of_args hargs
            · split at h
              · split at h
                · nomatch h
                · nomatch h
              · injection h with h
                subst h
                rfl

end Compositor.Wire
