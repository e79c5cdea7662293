import Compositor.Proofs.Wire.Reading

/-
  The body, step by step.

  What the reader does for a body is a chain of steps: it takes a word or a blob and goes on with what it got,
  until it has all arguments or finds fault with one (`Steps`).  The chain for a signature is
  `Signature.steps`, and running it is what the reader does (`Steps.run_steps`).

  The same chain can be run in place, by indices into the body, where a subtraction can fall below zero and a
  read or a slice can leave the body (`InPlace.outside`).  From a place that is whole words into the body and no
  further than its end (`Cursor.Inside`) each step goes to another such place, if the body consists of whole
  words.  So a run in place never leaves the body and does what the reader does (`Steps.inPlace_eq`).
-/

namespace Compositor.Wire

/-! ## Chains of steps -/

/-- What the reader does for a value. -/
inductive Steps (α : Type) where
  | done (a : α)
  /-- What was read is at fault. -/
  | fail (e : Error)
  | word (next : UInt32 → Steps α)
  /-- Takes a length and that many bytes, or fails with what `overrun` makes of the length. -/
  | blob (overrun : UInt32 → Error) (next : List UInt8 → Steps α)

namespace Steps

variable {α β : Type}

/-- Goes on with what the steps are for. -/
def bind (f : α → Steps β) : Steps α → Steps β
  | done a => f a
  | fail e => fail e
  | word next => word fun w => (next w).bind f
  | blob overrun next => blob overrun fun data => (next data).bind f

/-- Takes the steps from a place on. -/
def run (declared : Nat) : Steps α → Cursor → Except Error (α × Cursor)
  | done a, c => .ok (a, c)
  | fail e, _ => .error e
  | word next, c => c.word declared >>= fun (w, c) => (next w).run declared c
  | blob overrun next, c => c.blob declared overrun >>= fun (data, c) => (next data).run declared c

theorem run_bind (declared : Nat) (f : α → Steps β) (s : Steps α) : ∀ c : Cursor,
    (s.bind f).run declared c = s.run declared c >>= fun (a, c) => (f a).run declared c := by
  induction s with
  | done a => exact fun _ => rfl
  | fail e => exact fun _ => rfl
  | word next ih =>
    intro c
    show (c.word declared >>= _) = (c.word declared >>= _) >>= _
    cases c.word declared with
    | error e => rfl
    | ok r => exact ih r.1 r.2
  | blob overrun next ih =>
    intro c
    show (c.blob declared overrun >>= _) = (c.blob declared overrun >>= _) >>= _
    cases c.blob declared overrun with
    | error e => rfl
    | ok r => exact ih r.1 r.2

/-- The steps for a text. -/
def text (index : Nat) (nullable : Bool) : Steps (Option String) :=
  blob (.stringOverrun index) fun raw =>
    if raw.isEmpty then
      if nullable then done none else fail (.nullArgument index)
    else match Cursor.textOf? raw with
      | some s => done (some s)
      | none => fail (.invalidString index)

/-- The steps for the id of a new object. -/
def newId (index : Nat) : Steps ObjectId :=
  word fun raw =>
    match ObjectId.ofRaw? raw with
    | some id => done id
    | none => fail (.invalidNewId index)

end Steps

/-- The steps for an argument.  A descriptor takes none. -/
def Param.steps (index : Nat) (p : Param) : Steps (Option Arg) :=
  match p.kind with
  | .int => .word fun raw => .done (some (.int raw.toInt32))
  | .uint => .word fun raw => .done (some (.uint raw))
  | .fixed => .word fun raw => .done (some (.fixed ⟨raw.toInt32⟩))
  | .string => (Steps.text index p.nullable).bind fun s => .done (some (.string s))
  | .object => .word fun raw =>
    let id := ObjectId.ofRaw? raw
    if id.isNone && ! p.nullable then .fail (.nullArgument index) else .done (some (.object id))
  | .newId =>
    if p.isGeneric then
      (Steps.text index false).bind fun
        | none => .fail (.nullArgument index)
        | some interface => .word fun version =>
          (Steps.newId index).bind fun id => .done (some (.genericNewId interface version id))
    else (Steps.newId index).bind fun id => .done (some (.newId id))
  | .array => .blob (.arrayOverrun index) fun data => .done (some (.array data))
  | .fd => .done none

/-- The steps for arguments, the first of which stands at position `index`. -/
def Param.stepsFrom (index : Nat) : List Param → Steps (List (Option Arg))
  | [] => .done []
  | p :: ps => (p.steps index).bind fun a => (stepsFrom (index + 1) ps).bind fun as => .done (a :: as)

/-- The steps for the body of a message. -/
def Signature.steps (s : Signature) : Steps (List (Option Arg)) := Param.stepsFrom 0 s.params

/-! ## The reader takes these steps -/

namespace Steps

theorem run_text (declared index : Nat) (nullable : Bool) (c : Cursor) :
    (text index nullable).run declared c = c.string declared index nullable := by
  show (c.blob declared _ >>= _) = _
  unfold Cursor.string
  congr 1
  funext r
  obtain ⟨raw, c'⟩ := r
  dsimp only
  split
  · cases nullable with
    | true => rfl
    | false => rfl
  · cases Cursor.textOf? raw with
    | some s => rfl
    | none => rfl

theorem run_newId (declared index : Nat) (c : Cursor) :
    (newId index).run declared c = c.newId declared index := by
  show (c.word declared >>= _) = _
  unfold Cursor.newId
  congr 1
  funext r
  obtain ⟨raw, c'⟩ := r
  dsimp only
  cases ObjectId.ofRaw? raw with
  | some id => rfl
  | none => rfl

theorem run_param (declared index : Nat) (p : Param) (c : Cursor) :
    (p.steps index).run declared c = c.arg declared index p := by
  unfold Param.steps Cursor.arg
  cases p.kind with
  | int => rfl
  | uint => rfl
  | fixed => rfl
  | string =>
    dsimp only
    rw [run_bind, run_text]
    rfl
  | object =>
    show (c.word declared >>= _) = _
    dsimp only
    congr 1
    funext r
    obtain ⟨raw, c'⟩ := r
    dsimp only
    split
    · rfl
    · rfl
  | newId =>
    dsimp only
    split
    · rw [run_bind, run_text]
      congr 1
      funext r
      obtain ⟨interface?, c1⟩ := r
      cases interface? with
      | none => rfl
      | some interface =>
        show (c1.word declared >>= _) = _
        dsimp only
        congr 1
        funext r
        obtain ⟨version, c2⟩ := r
        dsimp only
        rw [run_bind, run_newId]
        rfl
    · rw [run_bind, run_newId]
      rfl
  | array => rfl
  | fd => rfl

theorem run_stepsFrom (declared : Nat) (ps : List Param) : ∀ (index : Nat) (c : Cursor),
    (Param.stepsFrom index ps).run declared c = Cursor.args declared index ps c := by
  induction ps with
  | nil => exact fun _ _ => rfl
  | cons p ps ih =>
    intro index c
    unfold Param.stepsFrom Cursor.args
    rw [run_bind, run_param]
    congr 1
    funext r
    obtain ⟨a, c1⟩ := r
    dsimp only
    rw [run_bind, ih]
    rfl

/-- What the reader does for a body. -/
theorem run_steps (declared : Nat) (s : Signature) (c : Cursor) :
    s.steps.run declared c = Cursor.args declared 0 s.params c := run_stepsFrom declared s.params 0 c

end Steps

/-! ## Places of a body -/

/-- A place that is whole words into a body, and no further than its end. -/
structure Cursor.Inside (body : List UInt8) (c : Cursor) : Prop where
  rest_eq : c.rest = body.drop c.position
  position_le : c.position ≤ body.length
  aligned : c.position % 4 = 0

namespace Cursor.Inside

variable {body : List UInt8} {c c' : Cursor}

theorem start (body : List UInt8) : Inside body ⟨body, 0⟩ := ⟨rfl, Nat.zero_le _, rfl⟩

theorem length_rest (h : Inside body c) : c.rest.length = body.length - c.position := by
  rw [h.rest_eq, List.length_drop]

/-- A body of whole words has whole words left. -/
theorem length_rest_mod (h : Inside body c) (hbody : body.length % 4 = 0) : c.rest.length % 4 = 0 := by
  have hlength := h.length_rest
  have hle := h.position_le
  have haligned := h.aligned
  omega

/-- Whole words further on is another such place, if that much is left. -/
theorem advance (h : Inside body c) {n : Nat} (hn : n % 4 = 0) (hle : n ≤ c.rest.length) :
    Inside body ⟨c.rest.drop n, c.position + n⟩ := by
  have hlength := h.length_rest
  have hposition := h.position_le
  have haligned := h.aligned
  refine ⟨?_, ?_, ?_⟩
  · show c.rest.drop n = body.drop (c.position + n)
    rw [h.rest_eq, List.drop_drop]
  · show c.position + n ≤ body.length
    omega
  · show (c.position + n) % 4 = 0
    omega

/-- There is a word, or the body is at its end. -/
theorem word_cases (h : Inside body c) (hbody : body.length % 4 = 0) (declared : Nat) :
    (∃ b0 b1 b2 b3 rest, c.rest = b0 :: b1 :: b2 :: b3 :: rest ∧
      c.word declared = .ok (Word.ofBytes b0 b1 b2 b3, ⟨rest, c.position + 4⟩) ∧
        Inside body ⟨rest, c.position + 4⟩) ∨
      c.rest = [] ∧ c.position = body.length ∧
        c.word declared = .error (.sizeMismatch declared (headerSize + body.length + 4)) := by
  have hlength := h.length_rest
  have hmod := h.length_rest_mod hbody
  have hle := h.position_le
  match hrest : c.rest with
  | [] =>
    rw [hrest, List.length_nil] at hlength
    have hend : c.position = body.length := by omega
    refine .inr ⟨rfl, hend, ?_⟩
    unfold word
    rw [hrest, hend]
  | [_] | [_, _] | [_, _, _] =>
    rw [hrest] at hmod
    cases hmod
  | b0 :: b1 :: b2 :: b3 :: rest =>
    have hadvance := h.advance (n := 4) rfl (by rw [hrest, List.length_cons]; simp)
    rw [hrest] at hadvance
    refine .inl ⟨b0, b1, b2, b3, rest, rfl, ?_, hadvance⟩
    unfold word
    rw [hrest]

/-- Less than a word is nothing, and where a word should be that is reported. -/
theorem word_of_short (h : Inside body c) (hbody : body.length % 4 = 0) (declared : Nat)
    (hshort : c.rest.length < 4) :
    c.rest = [] ∧ c.word declared = .error (.sizeMismatch declared (headerSize + body.length + 4)) := by
  rcases h.word_cases hbody declared with ⟨b0, b1, b2, b3, rest, hrest, -⟩ | ⟨hrest, -, hword⟩
  · rw [hrest] at hshort
    simp only [List.length_cons] at hshort
    omega
  · exact ⟨hrest, hword⟩

/-- A blob is read if the bytes after its length are as many as it says; its padding is there then too. -/
theorem blob_cases (h : Inside body c) (hbody : body.length % 4 = 0) (declared : Nat)
    (overrun : UInt32 → Error) :
    (∃ len c', c.word declared = .ok (len, c') ∧ Inside body c' ∧ len.toNat ≤ c'.rest.length ∧
      padded len.toNat ≤ c'.rest.length ∧ c.blob declared overrun = .ok (c'.rest.take len.toNat,
        ⟨c'.rest.drop (padded len.toNat), c'.position + padded len.toNat⟩)) ∨
      (∃ len c', c.word declared = .ok (len, c') ∧ Inside body c' ∧ c'.rest.length < len.toNat ∧
        c.blob declared overrun = .error (overrun len)) ∨
      c.rest = [] ∧
        c.blob declared overrun = .error (.sizeMismatch declared (headerSize + body.length + 4)) := by
  rcases h.word_cases hbody declared with ⟨b0, b1, b2, b3, rest, -, hword, hinside⟩ | ⟨hrest, -, hword⟩
  · have hblob : ∀ len c', c.word declared = .ok (len, c') → c.blob declared overrun =
        if padded len.toNat ≤ c'.rest.length then .ok (c'.rest.take len.toNat,
          ⟨c'.rest.drop (padded len.toNat), c'.position + padded len.toNat⟩)
        else .error (overrun len) := by
      intro len c' hlen
      unfold blob
      rw [hlen]
      rfl
    rcases Nat.lt_or_ge rest.length (Word.ofBytes b0 b1 b2 b3).toNat with hshort | hlong
    · have hle := le_padded (Word.ofBytes b0 b1 b2 b3).toNat
      refine .inr (.inl ⟨_, _, hword, hinside, hshort, ?_⟩)
      rw [hblob _ _ hword, if_neg (by dsimp only; omega)]
    · -- what is left is whole words, so it has room for the padding as well
      have hpadded : padded (Word.ofBytes b0 b1 b2 b3).toNat ≤ rest.length :=
        padded_le_of_le (hinside.length_rest_mod hbody) hlong
      refine .inl ⟨_, _, hword, hinside, hlong, hpadded, ?_⟩
      rw [hblob _ _ hword, if_pos hpadded]
  · refine .inr (.inr ⟨hrest, ?_⟩)
    unfold blob
    rw [hword]
    rfl

end Cursor.Inside

/-! ## Reading in place -/

/-- The outcome of reading in place. -/
inductive InPlace (α : Type) where
  /-- A read or a slice leaves the body, or there are fewer than no bytes left. -/
  | outside
  | failed (e : Error)
  | read (a : α) (position : Nat)

namespace InPlace

variable {α β : Type}

def bind (f : α → Nat → InPlace β) : InPlace α → InPlace β
  | outside => outside
  | failed e => failed e
  | read a position => f a position

/-- What is there, or a read outside. -/
def ofOption (position : Nat) : Option α → InPlace α
  | some a => read a position
  | none => outside

/-- The number of bytes from a place on. -/
def remaining (body : List UInt8) (position : Nat) : InPlace Nat :=
  if position ≤ body.length then read (body.length - position) position else outside

/-- The bytes from `start` to `stop`. -/
def slice (body : List UInt8) (start stop : Nat) : InPlace (List UInt8) :=
  if start ≤ stop ∧ stop ≤ body.length then read ((body.take stop).drop start) stop else outside

/-- The word at a place, byte by byte. -/
def wordAt (body : List UInt8) (position : Nat) : InPlace UInt32 :=
  (ofOption position body[position]?).bind fun b0 _ =>
    (ofOption position body[position + 1]?).bind fun b1 _ =>
      (ofOption position body[position + 2]?).bind fun b2 _ =>
        (ofOption position body[position + 3]?).bind fun b3 _ => read (Word.ofBytes b0 b1 b2 b3) (position + 4)

def word (body : List UInt8) (position : Nat) : InPlace UInt32 :=
  (remaining body position).bind fun n _ =>
    if n < 4 then failed (.sizeMismatch (headerSize + body.length) (headerSize + position + 4))
    else wordAt body position

def blob (body : List UInt8) (overrun : UInt32 → Error) (position : Nat) : InPlace (List UInt8) :=
  (word body position).bind fun len position =>
    (remaining body position).bind fun n _ =>
      match (padded64? len.toNat).filter (· ≤ n) with
      | none => failed (overrun len)
      | some padded =>
        (slice body position (position + len.toNat)).bind fun data _ => read data (position + padded)

/-- An outcome of the reader, as one of reading in place. -/
def ofRun : Except Error (α × Cursor) → InPlace α
  | .ok (a, c) => read a c.position
  | .error e => failed e

variable {body : List UInt8} {c c' : Cursor}

theorem remaining_eq (h : c.Inside body) :
    remaining body c.position = read c.rest.length c.position := by
  rw [remaining, if_pos h.position_le, h.length_rest]

theorem word_eq (h : c.Inside body) (hbody : body.length % 4 = 0) :
    word body c.position = ofRun (c.word (headerSize + body.length)) := by
  unfold word
  rw [remaining_eq h]
  rcases h.word_cases hbody (headerSize + body.length) with
    ⟨b0, b1, b2, b3, rest, hrest, hword, -⟩ | ⟨hrest, hend, hword⟩
  · have hat : ∀ i, body[c.position + i]? = (b0 :: b1 :: b2 :: b3 :: rest)[i]? := by
      intro i
      rw [← hrest, h.rest_eq, List.getElem?_drop]
    show (if c.rest.length < 4 then _ else wordAt body c.position) = _
    rw [hrest, if_neg (by simp), hword]
    have hfirst : body[c.position]? = some b0 := hat 0
    unfold wordAt
    rw [hfirst, hat, hat, hat]
    rfl
  · show (if c.rest.length < 4 then _ else wordAt body c.position) = _
    rw [hrest, if_pos (by simp), hword, hend]
    rfl

/-- The padded length of a blob fits 64 bits, so only the bytes that are left limit it. -/
theorem filter_padded64?_toNat (len : UInt32) (n : Nat) : (padded64? len.toNat).filter (· ≤ n) =
    if padded len.toNat ≤ n then some (padded len.toNat) else none := by
  have hlen := len.toNat_lt
  rw [padded64?, if_pos (by omega), Option.filter_some]
  simp only [decide_eq_true_eq]

theorem blob_eq (h : c.Inside body) (hbody : body.length % 4 = 0) (overrun : UInt32 → Error) :
    blob body overrun c.position = ofRun (c.blob (headerSize + body.length) overrun) := by
  -- behind the length the padded length is looked at, and only then the bytes
  have hbehind : ∀ len c', c.word (headerSize + body.length) = .ok (len, c') → c'.Inside body →
      blob body overrun c.position =
        match if padded len.toNat ≤ c'.rest.length then some (padded len.toNat) else none with
        | none => failed (overrun len)
        | some padded => (slice body c'.position (c'.position + len.toNat)).bind fun data _ =>
            read data (c'.position + padded) := by
    intro len c' hword hinside
    unfold blob
    rw [word_eq h hbody, hword]
    show (remaining body c'.position).bind _ = _
    rw [remaining_eq hinside]
    show (match (padded64? len.toNat).filter (· ≤ c'.rest.length) with
      | none => failed (overrun len)
      | some padded => (slice body c'.position (c'.position + len.toNat)).bind fun data _ =>
          read data (c'.position + padded)) = _
    rw [filter_padded64?_toNat]
  rcases h.blob_cases hbody (headerSize + body.length) overrun with
    ⟨len, c', hword, hinside, hlong, hpadded, hblob⟩ | ⟨len, c', hword, hinside, hshort, hblob⟩ | ⟨hrest, hblob⟩
  · have hlength := hinside.length_rest
    have hle := hinside.position_le
    have hfit : c'.position + len.toNat ≤ body.length := by omega
    have hdata : (body.take (c'.position + len.toNat)).drop c'.position = c'.rest.take len.toNat := by
      rw [List.drop_take, Nat.add_sub_cancel_left, hinside.rest_eq]
    rw [hbehind len c' hword hinside, if_pos hpadded, hblob, slice, if_pos ⟨Nat.le_add_right _ _, hfit⟩, hdata]
    rfl
  · have hle := le_padded len.toNat
    rw [hbehind len c' hword hinside, if_neg (by omega), hblob]
    rfl
  · obtain ⟨-, hword⟩ := h.word_of_short hbody (headerSize + body.length) (by rw [hrest]; decide)
    unfold blob
    rw [word_eq h hbody, hword, hblob]
    rfl

end InPlace

namespace Steps

variable {α : Type} {body : List UInt8}

/-- Takes the steps in place. -/
def inPlace (body : List UInt8) : Steps α → Nat → InPlace α
  | done a, position => .read a position
  | fail e, _ => .failed e
  | word next, position => (InPlace.word body position).bind fun w position => (next w).inPlace body position
  | blob overrun next, position =>
    (InPlace.blob body overrun position).bind fun data position => (next data).inPlace body position

/-- In place the steps go as in the reader, to another place inside of the body or to the same error. -/
theorem inPlace_eq (hbody : body.length % 4 = 0) (s : Steps α) : ∀ {c : Cursor}, c.Inside body →
    s.inPlace body c.position = InPlace.ofRun (s.run (headerSize + body.length) c) ∧
      ∀ a c', s.run (headerSize + body.length) c = .ok (a, c') → c'.Inside body := by
  induction s with
  | done a =>
    intro c h
    refine ⟨rfl, fun a' c' heq => ?_⟩
    injection heq with heq
    injection heq with _ hc
    exact hc ▸ h
  | fail e =>
    intro c _
    exact ⟨rfl, nofun⟩
  | word next ih =>
    intro c h
    have hplace : (word next).inPlace body c.position =
        (InPlace.ofRun (c.word (headerSize + body.length))).bind fun w position =>
          (next w).inPlace body position := by
      rw [← InPlace.word_eq h hbody]
      rfl
    have hrun : (word next).run (headerSize + body.length) c =
        c.word (headerSize + body.length) >>= fun (w, c) => (next w).run (headerSize + body.length) c := rfl
    rw [hplace, hrun]
    rcases h.word_cases hbody (headerSize + body.length) with
      ⟨b0, b1, b2, b3, rest, -, hword, hinside⟩ | ⟨-, -, hword⟩
    · rw [hword]
      exact ih _ hinside
    · rw [hword]
      exact ⟨rfl, nofun⟩
  | blob overrun next ih =>
    intro c h
    have hplace : (blob overrun next).inPlace body c.position =
        (InPlace.ofRun (c.blob (headerSize + body.length) overrun)).bind fun data position =>
          (next data).inPlace body position := by
      rw [← InPlace.blob_eq h hbody]
      rfl
    have hrun : (blob overrun next).run (headerSize + body.length) c =
        c.blob (headerSize + body.length) overrun >>= fun (data, c) =>
          (next data).run (headerSize + body.length) c := rfl
    rw [hplace, hrun]
    rcases h.blob_cases hbody (headerSize + body.length) overrun with
      ⟨len, c', -, hinside, -, hpadded, hblob⟩ | ⟨len, c', -, -, -, hblob⟩ | ⟨-, hblob⟩
    · rw [hblob]
      exact ih _ (hinside.advance (padded_mod _) hpadded)
    · rw [hblob]
      exact ⟨rfl, nofun⟩
    · rw [hblob]
      exact ⟨rfl, nofun⟩

end Steps

end Compositor.Wire
