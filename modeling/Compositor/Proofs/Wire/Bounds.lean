import Compositor.Proofs.Wire.Steps
import Compositor.Proofs.Wire.Waiting

/-
  What is wrong with a body.

  The reader fails where it comes to a step that cannot be taken (`Steps.exists_fails_of_run`), and there are few
  such steps.  A word is missing: a body consists of whole words, so it is at its very end there, and the error
  says that it is one word too short.  Or a blob is longer than what is left of the body, its padding not counted.
  Or the value that was read is at fault.  The steps for a signature report nothing else
  (`Steps.BlamesValues`), so each error about the number of bytes has one cause.

  `bounded_of_opens` says so for whole frames: no read leaves the body, and every wrong number of bytes is
  reported as what it is.
-/

namespace Compositor.Wire

namespace Steps

variable {α : Type} {body : List UInt8}

/-! ## Steps that cannot be taken -/

/-- The reader comes from a place to a step, by taking all steps before it. -/
inductive Comes (declared : Nat) : Steps α → Cursor → Steps α → Cursor → Prop
  | here (s : Steps α) (c : Cursor) : Comes declared s c s c
  | word {next : UInt32 → Steps α} {w : UInt32} {c c₁ c' : Cursor} {t : Steps α} :
    c.word declared = .ok (w, c₁) → Comes declared (next w) c₁ t c' → Comes declared (.word next) c t c'
  | blob {overrun : UInt32 → Error} {next : List UInt8 → Steps α} {data : List UInt8} {c c₁ c' : Cursor}
    {t : Steps α} : c.blob declared overrun = .ok (data, c₁) → Comes declared (next data) c₁ t c' →
      Comes declared (.blob overrun next) c t c'

/-- A word is taken next: a number, an id, or the length of a blob. -/
def takesWord : Steps α → Bool
  | word _ | blob .. => true
  | done _ | fail _ => false

variable {s t : Steps α} {c c' : Cursor} {declared : Nat}

/-- What the reader does from the beginning is what it does from any step that it comes to. -/
theorem Comes.run_eq (h : Comes declared s c t c') : s.run declared c = t.run declared c' := by
  induction h with
  | here => rfl
  | @word next w c c₁ c' t hword _ ih =>
    show (c.word declared >>= _) = _
    rw [hword]
    exact ih
  | @blob overrun next data c c₁ c' t hblob _ ih =>
    show (c.blob declared overrun >>= _) = _
    rw [hblob]
    exact ih

theorem Comes.inside (h : Comes declared s c t c') (hbody : body.length % 4 = 0) (hc : c.Inside body) :
    c'.Inside body := by
  induction h with
  | here => exact hc
  | @word next w c c₁ c' t hword _ ih =>
    rcases hc.word_cases hbody declared with ⟨b0, b1, b2, b3, rest, -, hok, hinside⟩ | ⟨-, -, herror⟩
    · rw [hword] at hok
      injection hok with hok
      injection hok with _ hc₁
      exact ih (hc₁ ▸ hinside)
    · rw [hword] at herror
      cases herror
  | @blob overrun next data c c₁ c' t hblob _ ih =>
    rcases hc.blob_cases hbody declared overrun with
      ⟨len, c₂, -, hinside, -, hpadded, hok⟩ | ⟨len, c₂, -, -, -, herror⟩ | ⟨-, herror⟩
    · rw [hblob] at hok
      injection hok with hok
      injection hok with _ hc₁
      exact ih (hc₁ ▸ hinside.advance (padded_mod _) hpadded)
    · rw [hblob] at herror
      cases herror
    · rw [hblob] at herror
      cases herror

/-- Where a word is missing, the body is reported as one word too short. -/
theorem Comes.run_of_missing (h : Comes declared s c t c') (hc : c'.Inside body) (hbody : body.length % 4 = 0)
    (ht : t.takesWord) (hshort : c'.rest.length < 4) :
    s.run declared c = .error (.sizeMismatch declared (headerSize + body.length + 4)) := by
  obtain ⟨-, hword⟩ := hc.word_of_short hbody declared hshort
  rw [h.run_eq]
  cases t with
  | word next =>
    show (c'.word declared >>= _) = _
    rw [hword]
    rfl
  | blob overrun next =>
    show (c'.blob declared overrun >>= _) = _
    unfold Cursor.blob
    rw [hword]
    rfl
  | done a => cases ht
  | fail e => cases ht

/-- Where a blob is longer than what is left, its length is reported. -/
theorem Comes.run_of_overrun {overrun : UInt32 → Error} {next : List UInt8 → Steps α} {len : UInt32}
    {c₁ : Cursor} (h : Comes declared s c (.blob overrun next) c') (hc : c'.Inside body)
    (hbody : body.length % 4 = 0) (hword : c'.word declared = .ok (len, c₁))
    (hshort : c₁.rest.length < len.toNat) : s.run declared c = .error (overrun len) := by
  rw [h.run_eq]
  show (c'.blob declared overrun >>= _) = _
  rcases hc.blob_cases hbody declared overrun with
    ⟨len', c₂, hword', -, hlong, -⟩ | ⟨len', c₂, hword', -, -, hblob⟩ | ⟨hrest, -⟩
  · rw [hword] at hword'
    injection hword' with hword'
    injection hword' with hlen hc₂
    rw [hlen, hc₂] at hshort
    omega
  · rw [hword] at hword'
    injection hword' with hword'
    injection hword' with hlen _
    rw [hblob, hlen]
    rfl
  · obtain ⟨-, hmissing⟩ := hc.word_of_short hbody declared (by rw [hrest]; decide)
    rw [hword] at hmissing
    cases hmissing

/-- Why a step cannot be taken. -/
inductive Fails (body : List UInt8) (declared : Nat) : Steps α → Cursor → Error → Prop
  | value (e : Error) (c : Cursor) : Fails body declared (.fail e) c e
  | missing {t : Steps α} {c : Cursor} (ht : t.takesWord) (hshort : c.rest.length < 4) :
    Fails body declared t c (.sizeMismatch declared (headerSize + body.length + 4))
  | overrun {overrun : UInt32 → Error} {next : List UInt8 → Steps α} {len : UInt32} {c c' : Cursor}
    (hword : c.word declared = .ok (len, c')) (hshort : c'.rest.length < len.toNat) :
    Fails body declared (.blob overrun next) c (overrun len)

/-- If the reader fails, it has come to a step that cannot be taken. -/
theorem exists_fails_of_run (hbody : body.length % 4 = 0) {e : Error} (s : Steps α) : ∀ {c : Cursor},
    c.Inside body → s.run declared c = .error e →
      ∃ t c', Comes declared s c t c' ∧ Fails body declared t c' e := by
  induction s with
  | done a =>
    intro c _ h
    cases h
  | fail e' =>
    intro c _ h
    injection h with h
    exact ⟨_, c, .here _ c, h ▸ .value e' c⟩
  | word next ih =>
    intro c hc h
    change (c.word declared >>= _) = _ at h
    rcases hc.word_cases hbody declared with ⟨b0, b1, b2, b3, rest, -, hword, hinside⟩ | ⟨hrest, -, hword⟩
    · rw [hword] at h
      obtain ⟨t, c', hcomes, hfails⟩ := ih _ hinside h
      exact ⟨t, c', .word hword hcomes, hfails⟩
    · rw [hword] at h
      injection h with h
      exact ⟨_, c, .here _ c, h ▸ .missing rfl (by rw [hrest]; decide)⟩
  | blob overrun next ih =>
    intro c hc h
    change (c.blob declared overrun >>= _) = _ at h
    rcases hc.blob_cases hbody declared overrun with
      ⟨len, c', -, hinside, -, hpadded, hblob⟩ | ⟨len, c', hword, -, hshort, hblob⟩ | ⟨hrest, hblob⟩
    · rw [hblob] at h
      obtain ⟨t, c'', hcomes, hfails⟩ := ih _ (hinside.advance (padded_mod _) hpadded) h
      exact ⟨t, c'', .blob hblob hcomes, hfails⟩
    · rw [hblob] at h
      injection h with h
      exact ⟨_, c, .here _ c, h ▸ .overrun hword hshort⟩
    · rw [hblob] at h
      injection h with h
      exact ⟨_, c, .here _ c, h ▸ .missing rfl (by rw [hrest]; decide)⟩

end Steps

/-! ## Which errors there are -/

/-- Errors about the value of an argument, whose bytes are all there. -/
def Error.isValue : Error → Bool
  | .nullArgument _ | .invalidNewId _ | .invalidString _ => true
  | _ => false

namespace Steps

variable {α β : Type}

/-- The steps find fault with nothing but values, and their blobs overrun as strings or as arrays. -/
def BlamesValues : Steps α → Prop
  | done _ => True
  | fail e => e.isValue = true
  | word next => ∀ w, (next w).BlamesValues
  | blob overrun next =>
    (∃ index, overrun = .stringOverrun index ∨ overrun = .arrayOverrun index) ∧ ∀ data, (next data).BlamesValues

theorem BlamesValues.bind {f : α → Steps β} (hf : ∀ a, (f a).BlamesValues) {s : Steps α} :
    s.BlamesValues → (s.bind f).BlamesValues := by
  induction s with
  | done a => exact fun _ => hf a
  | fail e => exact fun h => h
  | word next ih => exact fun h w => ih w (h w)
  | blob overrun next ih => exact fun h => ⟨h.1, fun data => ih data (h.2 data)⟩

theorem blamesValues_text (index : Nat) (nullable : Bool) : (text index nullable).BlamesValues := by
  refine ⟨⟨index, .inl rfl⟩, fun raw => ?_⟩
  dsimp only
  split
  · cases nullable with
    | true => trivial
    | false => rfl
  · cases Cursor.textOf? raw with
    | some s => trivial
    | none => rfl

theorem blamesValues_newId (index : Nat) : (newId index).BlamesValues := by
  intro raw
  dsimp only
  cases ObjectId.ofRaw? raw with
  | some id => trivial
  | none => rfl

theorem blamesValues_param (index : Nat) (p : Param) : (p.steps index).BlamesValues := by
  unfold Param.steps
  cases p.kind with
  | int => exact fun _ => trivial
  | uint => exact fun _ => trivial
  | fixed => exact fun _ => trivial
  | string =>
    refine .bind ?_ (blamesValues_text index p.nullable)
    exact fun _ => trivial
  | object =>
    intro raw
    dsimp only
    split
    · rfl
    · trivial
  | newId =>
    dsimp only
    split
    · refine .bind (fun interface? => ?_) (blamesValues_text index false)
      cases interface? with
      | none => rfl
      | some interface =>
        intro version
        refine .bind ?_ (blamesValues_newId index)
        exact fun _ => trivial
    · refine .bind ?_ (blamesValues_newId index)
      exact fun _ => trivial
  | array => exact ⟨⟨index, .inr rfl⟩, fun _ => trivial⟩
  | fd => trivial

theorem blamesValues_stepsFrom (ps : List Param) : ∀ index, (Param.stepsFrom index ps).BlamesValues := by
  induction ps with
  | nil => exact fun _ => trivial
  | cons p ps ih =>
    intro index
    refine .bind (fun a => .bind ?_ (ih (index + 1))) (blamesValues_param index p)
    exact fun _ => trivial

theorem Comes.blamesValues {s t : Steps α} {c c' : Cursor} {declared : Nat} (h : Comes declared s c t c') :
    s.BlamesValues → t.BlamesValues := by
  induction h with
  | here => exact fun hs => hs
  | word _ _ ih => exact fun hs => ih (hs _)
  | blob _ _ ih => exact fun hs => ih (hs.2 _)

/-- Steps that blame values report no wrong number of bytes unless a word is missing. -/
theorem Fails.of_sizeMismatch {body : List UInt8} {t : Steps α} {c : Cursor} {declared d n : Nat}
    (h : Fails body declared t c (.sizeMismatch d n)) (ht : t.BlamesValues) :
    d = declared ∧ n = headerSize + body.length + 4 ∧ t.takesWord ∧ c.rest.length < 4 := by
  generalize he : Error.sizeMismatch d n = e at h
  cases h with
  | value e' _ =>
    subst he
    cases ht
  | missing htakes hshort =>
    injection he with hd hn
    exact ⟨hd, hn, htakes, hshort⟩
  | overrun _ _ =>
    obtain ⟨⟨index, hstring | harray⟩, -⟩ := ht
    · rw [hstring] at he
      cases he
    · rw [harray] at he
      cases he

/-- Nor do they report an overrun unless a blob is longer than what is left. -/
theorem Fails.of_overrun {body : List UInt8} {t : Steps α} {c : Cursor} {declared : Nat} {e : Error}
    (h : Fails body declared t c e) (ht : t.BlamesValues) {index : Nat} {len : UInt32} :
    (e = .stringOverrun index len → ∃ next c', t = .blob (.stringOverrun index) next ∧
      c.word declared = .ok (len, c') ∧ c'.rest.length < len.toNat) ∧
    (e = .arrayOverrun index len → ∃ next c', t = .blob (.arrayOverrun index) next ∧
      c.word declared = .ok (len, c') ∧ c'.rest.length < len.toNat) := by
  cases h with
  | value e' _ =>
    refine ⟨?_, ?_⟩
    · rintro rfl
      cases ht
    · rintro rfl
      cases ht
  | missing => exact ⟨nofun, nofun⟩
  | @overrun overrun next len' _ c' hword hshort =>
    obtain ⟨⟨index', rfl | rfl⟩, -⟩ := ht
    · refine ⟨fun heq => ?_, nofun⟩
      injection heq with hindex hlen
      subst hindex hlen
      exact ⟨next, c', rfl, hword, hshort⟩
    · refine ⟨nofun, fun heq => ?_⟩
      injection heq with hindex hlen
      subst hindex hlen
      exact ⟨next, c', rfl, hword, hshort⟩

end Steps

/-! ## Whole frames -/

/-- A frame whose body is read: it is there as a whole, its target and request are known, and there are enough
descriptors. -/
structure Opens (buffer : List UInt8) (fds : List Descriptor) (resolve : Resolver) (header : Header)
    (target : ObjectId) (signature : Signature) (body : List UInt8) : Prop where
  header_eq : peekHeader buffer = .ok (some header)
  complete : header.byteLength ≤ buffer.length
  target_eq : ObjectId.ofRaw? header.object = some target
  resolved : resolve target header.opcode = .ok signature
  enough : signature.fdCount ≤ fds.length
  body_eq : body = (buffer.take header.byteLength).drop headerSize

/-- Reads a body in place to its end. -/
def Signature.readInPlace (s : Signature) (body : List UInt8) : InPlace (List (Option Arg)) :=
  (s.steps.inPlace body 0).bind fun as position =>
    (InPlace.remaining body position).bind fun n _ =>
      if n = 0 then .read as position
      else .failed (.sizeMismatch (headerSize + body.length) (headerSize + position))

/-- The reader comes to where a word should be, and there is none. -/
def Signature.Misses (s : Signature) (body : List UInt8) : Prop :=
  ∃ t c, Steps.Comes (headerSize + body.length) s.steps ⟨body, 0⟩ t c ∧ t.takesWord ∧ c.rest.length < 4

/-- The reader has all arguments at `position`, and the body goes on. -/
def Signature.Leaves (s : Signature) (body : List UInt8) (position : Nat) : Prop :=
  ∃ as c, Cursor.args (headerSize + body.length) 0 s.params ⟨body, 0⟩ = .ok (as, c) ∧ c.position = position ∧
    position < body.length

/-- The reader comes to a blob whose length is `len`, and fewer bytes follow. -/
def Signature.Overruns (s : Signature) (body : List UInt8) (overrun : UInt32 → Error) (len : UInt32) : Prop :=
  ∃ next c c', Steps.Comes (headerSize + body.length) s.steps ⟨body, 0⟩ (.blob overrun next) c ∧
    c.word (headerSize + body.length) = .ok (len, c') ∧ c'.rest.length < len.toNat

/-- How the body of a frame is read. -/
structure Bounded (signature : Signature) (size : Nat) (body : List UInt8) (decoded : Decoded) : Prop where
  size_eq : size = headerSize + body.length
  /-- After each argument the reader is whole words into the body, and no further than its end. -/
  inside : ∀ ps as c, ps <+: signature.params → Cursor.args size 0 ps ⟨body, 0⟩ = .ok (as, c) →
    c.position % 4 = 0 ∧ c.position ≤ body.length ∧ c.rest = body.drop c.position
  /-- In place, no read and no slice leaves the body, and the same goes wrong. -/
  not_outside : signature.readInPlace body ≠ .outside
  failed_iff : ∀ e, decoded = .failed e ↔ signature.readInPlace body = .failed e
  /-- The body is one word too short, or it is longer than its arguments. -/
  sizeMismatch_iff : ∀ d n, decoded = .failed (.sizeMismatch d n) ↔ d = size ∧
    (n = d + 4 ∧ signature.Misses body ∨ ∃ position, signature.Leaves body position ∧
      n = headerSize + position ∧ n < d)
  stringOverrun_iff : ∀ index len, decoded = .failed (.stringOverrun index len) ↔
    signature.Overruns body (.stringOverrun index) len
  arrayOverrun_iff : ∀ index len, decoded = .failed (.arrayOverrun index len) ↔
    signature.Overruns body (.arrayOverrun index) len

section
variable {s : Signature} {body : List UInt8}

/-- A body is read in place as the reader reads it. -/
theorem Signature.readInPlace_eq (s : Signature) (hbody : body.length % 4 = 0) : s.readInPlace body =
    match Cursor.args (headerSize + body.length) 0 s.params ⟨body, 0⟩ with
    | .error e => .failed e
    | .ok (as, c) =>
      if c.rest = [] then .read as c.position
      else .failed (.sizeMismatch (headerSize + body.length) (headerSize + c.position)) := by
  have hstart := Cursor.Inside.start body
  obtain ⟨hplace, hinside⟩ := s.steps.inPlace_eq hbody hstart
  rw [Steps.run_steps] at hplace hinside
  unfold readInPlace
  rw [show s.steps.inPlace body 0 = _ from hplace]
  cases hargs : Cursor.args (headerSize + body.length) 0 s.params ⟨body, 0⟩ with
  | error e => rfl
  | ok r =>
    obtain ⟨as, c⟩ := r
    show (InPlace.remaining body c.position).bind _ = _
    rw [InPlace.remaining_eq (hinside as c hargs)]
    show (if c.rest.length = 0 then _ else _) = _
    simp only [List.length_eq_zero_iff]

/-- The steps of a signature that come to an error. -/
theorem Signature.args_eq_error_iff (hbody : body.length % 4 = 0) (e : Error) :
    Cursor.args (headerSize + body.length) 0 s.params ⟨body, 0⟩ = .error e ↔
      ∃ t c, Steps.Comes (headerSize + body.length) s.steps ⟨body, 0⟩ t c ∧ c.Inside body ∧ t.BlamesValues ∧
        Steps.Fails body (headerSize + body.length) t c e := by
  have hstart := Cursor.Inside.start body
  rw [← Steps.run_steps]
  constructor
  · intro h
    obtain ⟨t, c, hcomes, hfails⟩ := Steps.exists_fails_of_run hbody s.steps hstart h
    exact ⟨t, c, hcomes, hcomes.inside hbody hstart,
      hcomes.blamesValues (Steps.blamesValues_stepsFrom s.params 0), hfails⟩
  · rintro ⟨t, c, hcomes, hc, -, hfails⟩
    cases hfails with
    | value e _ => exact hcomes.run_eq
    | missing ht hshort => exact hcomes.run_of_missing hc hbody ht hshort
    | overrun hword hshort => exact hcomes.run_of_overrun hc hbody hword hshort

/-- A body fails on an argument, or on what its arguments leave. -/
theorem decodeBody_eq_failed_iff {object : ObjectId} {opcode : UInt16} {size : Nat} {fds : List Descriptor}
    {e : Error} : decodeBody s object opcode size body fds = .failed e ↔
      Cursor.args size 0 s.params ⟨body, 0⟩ = .error e ∨
        ∃ as c, Cursor.args size 0 s.params ⟨body, 0⟩ = .ok (as, c) ∧ c.rest ≠ [] ∧
          e = .sizeMismatch size (headerSize + c.position) := by
  unfold decodeBody
  cases hargs : Cursor.args size 0 s.params ⟨body, 0⟩ with
  | error e' =>
    dsimp only
    constructor
    · intro h
      injection h with h
      exact .inl (congrArg Except.error h)
    · rintro (h | ⟨as, c, h, -⟩)
      · injection h with h
        exact congrArg Decoded.failed h
      · cases h
  | ok r =>
    obtain ⟨as, c⟩ := r
    dsimp only
    constructor
    · intro h
      split at h
      · split at h
        · cases h
        · cases h
      · rename_i hrest
        injection h with h
        exact .inr ⟨as, c, rfl, fun hnil => hrest (List.isEmpty_iff.2 hnil), h.symm⟩
    · rintro (h | ⟨as', c', h, hrest, rfl⟩)
      · cases h
      · injection h with h
        injection h with _ hc
        subst hc
        rw [if_neg fun hempty => hrest (List.isEmpty_iff.1 hempty)]

/-- The reader has bytes left where it is not at the end. -/
theorem Cursor.Inside.rest_ne_nil_iff {c : Cursor} (h : c.Inside body) :
    c.rest ≠ [] ↔ c.position < body.length := by
  have hlength := h.length_rest
  rw [← List.length_pos_iff]
  omega

/-- The arguments need another number of bytes if a word is missing. -/
theorem Signature.args_eq_sizeMismatch_iff (hbody : body.length % 4 = 0) (d n : Nat) :
    Cursor.args (headerSize + body.length) 0 s.params ⟨body, 0⟩ = .error (.sizeMismatch d n) ↔
      d = headerSize + body.length ∧ n = d + 4 ∧ s.Misses body := by
  rw [args_eq_error_iff hbody]
  constructor
  · rintro ⟨t, c, hcomes, -, hblames, hfails⟩
    obtain ⟨rfl, rfl, ht, hshort⟩ := hfails.of_sizeMismatch hblames
    exact ⟨rfl, rfl, t, c, hcomes, ht, hshort⟩
  · rintro ⟨rfl, rfl, t, c, hcomes, ht, hshort⟩
    exact ⟨t, c, hcomes, hcomes.inside hbody (.start body),
      hcomes.blamesValues (Steps.blamesValues_stepsFrom s.params 0), .missing ht hshort⟩

/-- A blob that is too long is what an overrun reports. -/
theorem Signature.args_of_overruns (hbody : body.length % 4 = 0) {overrun : UInt32 → Error} {len : UInt32}
    (h : s.Overruns body overrun len) :
    Cursor.args (headerSize + body.length) 0 s.params ⟨body, 0⟩ = .error (overrun len) := by
  obtain ⟨next, c, c', hcomes, hword, hshort⟩ := h
  rw [← Steps.run_steps]
  exact hcomes.run_of_overrun (hcomes.inside hbody (.start body)) hbody hword hshort

theorem Signature.args_eq_overrun_iff (hbody : body.length % 4 = 0) (index : Nat) (len : UInt32) :
    (Cursor.args (headerSize + body.length) 0 s.params ⟨body, 0⟩ = .error (.stringOverrun index len) ↔
      s.Overruns body (.stringOverrun index) len) ∧
    (Cursor.args (headerSize + body.length) 0 s.params ⟨body, 0⟩ = .error (.arrayOverrun index len) ↔
      s.Overruns body (.arrayOverrun index) len) := by
  refine ⟨⟨fun h => ?_, args_of_overruns hbody⟩, ⟨fun h => ?_, args_of_overruns hbody⟩⟩
  · obtain ⟨t, c, hcomes, -, hblames, hfails⟩ := (args_eq_error_iff hbody _).1 h
    obtain ⟨next, c', rfl, hword, hshort⟩ := (hfails.of_overrun hblames).1 rfl
    exact ⟨next, c, c', hcomes, hword, hshort⟩
  · obtain ⟨t, c, hcomes, -, hblames, hfails⟩ := (args_eq_error_iff hbody _).1 h
    obtain ⟨next, c', rfl, hword, hshort⟩ := (hfails.of_overrun hblames).2 rfl
    exact ⟨next, c, c', hcomes, hword, hshort⟩

/-- Reading in place fails as the body does. -/
theorem Signature.readInPlace_eq_failed_iff (hbody : body.length % 4 = 0) (object : ObjectId)
    (opcode : UInt16) (fds : List Descriptor) (e : Error) :
    decodeBody s object opcode (headerSize + body.length) body fds = .failed e ↔
      s.readInPlace body = .failed e := by
  rw [decodeBody_eq_failed_iff, s.readInPlace_eq hbody]
  cases hargs : Cursor.args (headerSize + body.length) 0 s.params ⟨body, 0⟩ with
  | error e' =>
    dsimp only
    constructor
    · rintro (h | ⟨as, c, h, -⟩)
      · injection h with h
        exact congrArg InPlace.failed h
      · cases h
    · intro h
      injection h with h
      exact .inl (congrArg Except.error h)
  | ok r =>
    obtain ⟨as, c⟩ := r
    dsimp only
    constructor
    · rintro (h | ⟨as', c', h, hrest, rfl⟩)
      · cases h
      · injection h with h
        injection h with _ hc
        subst hc
        rw [if_neg hrest]
    · intro h
      split at h
      · cases h
      · rename_i hrest
        injection h with h
        exact .inr ⟨as, c, rfl, hrest, h.symm⟩

/-- What is wrong with a body of whole words, in numbers. -/
theorem bounded_decodeBody (hbody : body.length % 4 = 0) (object : ObjectId) (opcode : UInt16)
    (fds : List Descriptor) : Bounded s (headerSize + body.length) body
      (decodeBody s object opcode (headerSize + body.length) body fds) := by
  have hinside : ∀ ps as c, Cursor.args (headerSize + body.length) 0 ps ⟨body, 0⟩ = .ok (as, c) →
      c.Inside body := by
    intro ps as c hargs
    rw [← Steps.run_stepsFrom] at hargs
    exact ((Param.stepsFrom 0 ps).inPlace_eq hbody (.start body)).2 as c hargs
  -- what is left over is no overrun
  have hoverrun : ∀ e, (∀ d n, e ≠ .sizeMismatch d n) →
      (decodeBody s object opcode (headerSize + body.length) body fds = .failed e ↔
        Cursor.args (headerSize + body.length) 0 s.params ⟨body, 0⟩ = .error e) := by
    intro e he
    rw [decodeBody_eq_failed_iff, or_iff_left]
    rintro ⟨as, c, -, -, heq⟩
    exact he _ _ heq
  refine ⟨rfl, fun ps as c _ hargs => ?_, ?_, fun e => s.readInPlace_eq_failed_iff hbody object opcode fds e,
    fun d n => ?_, fun index len => ?_, fun index len => ?_⟩
  · obtain ⟨hrest, hle, haligned⟩ := hinside ps as c hargs
    exact ⟨haligned, hle, hrest⟩
  · rw [s.readInPlace_eq hbody]
    split
    · exact nofun
    · split
      · exact nofun
      · exact nofun
  · rw [decodeBody_eq_failed_iff, s.args_eq_sizeMismatch_iff hbody]
    constructor
    · rintro (⟨hd, hn, hmisses⟩ | ⟨as, c, hargs, hrest, heq⟩)
      · exact ⟨hd, .inl ⟨hn, hmisses⟩⟩
      · injection heq with hd hn
        have hlt := (hinside s.params as c hargs).rest_ne_nil_iff.1 hrest
        exact ⟨hd, .inr ⟨c.position, ⟨as, c, hargs, rfl, hlt⟩, hn, by omega⟩⟩
    · rintro ⟨hd, ⟨hn, hmisses⟩ | ⟨position, ⟨as, c, hargs, rfl, hlt⟩, hn, -⟩⟩
      · exact .inl ⟨hd, hn, hmisses⟩
      · exact .inr ⟨as, c, hargs, (hinside s.params as c hargs).rest_ne_nil_iff.2 hlt, by rw [hd, hn]⟩
  · rw [hoverrun _ fun d n heq => by cases heq]
    exact (s.args_eq_overrun_iff hbody index len).1
  · rw [hoverrun _ fun d n heq => by cases heq]
    exact (s.args_eq_overrun_iff hbody index len).2

end

section
variable {buffer : List UInt8} {fds : List Descriptor} {resolve : Resolver} {header : Header} {target : ObjectId}
  {signature : Signature} {body : List UInt8}

/-- The body of a frame is what is declared less the header, and whole words. -/
theorem Opens.size_eq (h : Opens buffer fds resolve header target signature body) :
    header.byteLength = headerSize + body.length ∧ body.length % 4 = 0 := by
  obtain ⟨hmin, hmod⟩ := peekHeader_bounds h.header_eq
  have hcomplete := h.complete
  have hlength : body.length = header.byteLength - headerSize := by
    rw [h.body_eq, List.length_drop, List.length_take, Nat.min_eq_left hcomplete]
  have hheader : headerSize = 8 := rfl
  exact ⟨by omega, by omega⟩

theorem Opens.decode_eq (h : Opens buffer fds resolve header target signature body) :
    decode buffer fds resolve =
      decodeBody signature target header.opcode header.byteLength body fds := by
  have hcomplete := h.complete
  have henough := h.enough
  unfold decode
  rw [h.header_eq]
  dsimp only
  rw [if_neg (by rw [List.length_take]; omega), h.target_eq]
  dsimp only
  rw [h.resolved]
  dsimp only
  rw [if_neg (by omega), h.body_eq]

/-- The reader stays within the body of every frame, and reports a wrong number of bytes as what it is. -/
theorem bounded_of_opens (h : Opens buffer fds resolve header target signature body) :
    Bounded signature header.byteLength body (decode buffer fds resolve) := by
  obtain ⟨hsize, hbody⟩ := h.size_eq
  rw [h.decode_eq, hsize]
  exact bounded_decodeBody hbody target header.opcode fds

end

/-- A request for a number, a text and an array. -/
def mixedSignature : Signature :=
  ⟨[{ name := "serial", kind := .uint }, { name := "title", kind := .string }, { name := "keys", kind := .array }]⟩

/-- A frame with the number 7, the text "hi", and an array that claims five bytes where four follow. -/
def overlongFrame : List UInt8 :=
  [1, 0, 0, 0, 0, 0, 28, 0, 7, 0, 0, 0, 3, 0, 0, 0, 104, 105, 0, 0, 5, 0, 0, 0, 1, 2, 3, 4]

theorem opens_overlongFrame : Opens overlongFrame [] (fun _ _ => .ok mixedSignature) ⟨1, 0, 28⟩ .display
    mixedSignature (overlongFrame.drop 8) := by
  refine ⟨rfl, by decide, by decide, rfl, by decide, by decide⟩

theorem bounded_of_opens_sample :
    Opens overlongFrame [] (fun _ _ => .ok mixedSignature) ⟨1, 0, 28⟩ .display mixedSignature
        (overlongFrame.drop 8) ∧
      decode overlongFrame [] (fun _ _ => .ok mixedSignature) = .failed (.arrayOverrun 2 5) ∧
        Bounded mixedSignature 28 (overlongFrame.drop 8)
          (decode overlongFrame [] fun _ _ => .ok mixedSignature) :=
  ⟨opens_overlongFrame, by decide +kernel, bounded_of_opens opens_overlongFrame⟩

end Compositor.Wire
