import Compositor.Wire.Error

/-
  Signatures: what a method's arguments must look like.

  The wire carries no type tags, so both ends read a message by its signature.  `Param.Accepts` says
  which arguments fit one parameter, `Signature.Accepts` that a list of arguments fits parameter by
  parameter, and `Signature.check` finds the first thing that does not fit.  `check_eq_ok_iff` joins
  the two.
-/

namespace Compositor.Wire

/-- A declared argument.  For objects and new ids `interface` is the interface they must have; a new
id without one is generic: its interface and version travel with it. -/
structure Param where
  name : String
  kind : Kind
  interface : Option String := none
  nullable : Bool := false
deriving DecidableEq, Repr

/-- A new id whose interface and version travel with it. -/
def Param.isGeneric (p : Param) : Bool := p.kind == .newId && p.interface.isNone

/-- The declared arguments of a method, in order. -/
structure Signature where
  params : List Param
deriving DecidableEq, Repr

namespace Signature

/-- The number of descriptors that a message of this signature claims. -/
def fdCount (s : Signature) : Nat := s.params.countP (·.kind == .fd)

/-- The number of objects that a message of this signature creates. -/
def newIdCount (s : Signature) : Nat := s.params.countP (·.kind == .newId)

/-- The position and parameter of the first new id at or after position `index`. -/
def newIdFrom (index : Nat) : List Param → Option (Nat × Param)
  | [] => none
  | p :: ps => if p.kind = .newId then some (index, p) else newIdFrom (index + 1) ps

/-- The position and parameter of the new id, if the method creates an object. -/
def newId? (s : Signature) : Option (Nat × Param) := newIdFrom 0 s.params

end Signature

/-! ## Which arguments fit -/

/-- Does an argument have the shape that a parameter asks for?  A typed new id answers only a typed
parameter, and a generic one only a generic parameter. -/
def Param.shapeOk (p : Param) : Arg → Bool
  | .newId _ => p.kind == .newId && p.interface.isSome
  | .genericNewId .. => p.kind == .newId && p.interface.isNone
  | arg => p.kind == arg.kind

/-- What is wrong with the argument at position `index`, if anything. -/
def Param.fault? (p : Param) (index : Nat) (arg : Arg) : Option Error :=
  if ! p.shapeOk arg then some (.argumentType index p.kind arg.kind)
  else if arg.isNull && ! p.nullable then some (.nullArgument index)
  else if arg.text?.any hasNul then some (.invalidString index)
  else none

/-- An argument fits: the right shape, null only where null is welcome, no NUL in its text. -/
structure Param.Accepts (p : Param) (arg : Arg) : Prop where
  shape : p.shapeOk arg = true
  null : arg.isNull = true → p.nullable = true
  text : ∀ s, arg.text? = some s → hasNul s = false

theorem Param.fault?_eq_none_iff (p : Param) (index : Nat) (arg : Arg) :
    p.fault? index arg = none ↔ p.Accepts arg := by
  unfold Param.fault?
  constructor
  · intro h
    split at h
    · nomatch h
    · split at h
      · nomatch h
      · split at h
        · nomatch h
        · rename_i hs hn ht
          refine ⟨by simpa using hs, fun hnull => ?_, fun s hs => ?_⟩
          · simpa [hnull] using hn
          · simpa [hs] using ht
  · rintro ⟨hs, hn, ht⟩
    rw [if_neg (by simp [hs]), if_neg (by
      cases h : arg.isNull
      · simp
      · simp [hn h]), if_neg]
    cases h : arg.text? with
    | none => simp
    | some s => simp [ht s h]

namespace Signature

/-- The first fault of arguments against parameters, the first of which stands at `index`. -/
def faultFrom (index : Nat) : List Param → List Arg → Option Error
  | p :: ps, arg :: args =>
    match p.fault? index arg with
    | some e => some e
    | none => faultFrom (index + 1) ps args
  | _, _ => none

/-- Checks arguments: their number first, then each of them in order. -/
def check (s : Signature) (args : List Arg) : Except Error Unit :=
  if args.length ≠ s.params.length then .error (.argumentCount s.params.length args.length)
  else match faultFrom 0 s.params args with
    | some e => .error e
    | none => .ok ()

/-- Arguments fit a signature when they fit it parameter by parameter. -/
inductive Fits : List Param → List Arg → Prop
  | nil : Fits [] []
  | cons {p ps arg args} : p.Accepts arg → Fits ps args → Fits (p :: ps) (arg :: args)

/-- The arguments that a signature accepts. -/
def Accepts (s : Signature) (args : List Arg) : Prop := Fits s.params args

theorem Fits.length_eq {ps : List Param} {args : List Arg} (h : Fits ps args) :
    args.length = ps.length := by
  induction h with
  | nil => rfl
  | cons _ _ ih => simp [ih]

theorem faultFrom_eq_none_iff (index : Nat) (ps : List Param) (args : List Arg)
    (hlen : args.length = ps.length) : faultFrom index ps args = none ↔ Fits ps args := by
  induction ps generalizing index args with
  | nil =>
    cases args with
    | nil => exact ⟨fun _ => .nil, fun _ => rfl⟩
    | cons => simp at hlen
  | cons p ps ih =>
    cases args with
    | nil => simp at hlen
    | cons arg args =>
      have hlen' : args.length = ps.length := by simpa using hlen
      unfold faultFrom
      split
      · rename_i e he
        refine ⟨fun h => (nomatch h), fun h => ?_⟩
        cases h with
        | cons ha _ => rw [(p.fault?_eq_none_iff index arg).2 ha] at he; nomatch he
      · rename_i he
        rw [ih (index + 1) args hlen']
        refine ⟨fun h => .cons ((p.fault?_eq_none_iff index arg).1 he) h, fun h => ?_⟩
        cases h with
        | cons _ hr => exact hr

theorem check_eq_ok_iff (s : Signature) (args : List Arg) : s.check args = .ok () ↔ s.Accepts args := by
  unfold check Accepts
  constructor
  · intro h
    split at h
    · nomatch h
    · rename_i hlen
      split at h
      · nomatch h
      · rename_i hf
        exact (faultFrom_eq_none_iff 0 s.params args (by simpa using hlen)).1 hf
  · intro h
    rw [if_neg (by simp [h.length_eq]), (faultFrom_eq_none_iff 0 _ _ h.length_eq).2 h]

end Signature

end Compositor.Wire
