import Compositor.Wire.Signature

/-
  Interfaces: named and versioned sets of methods.

  Requests travel to the server and events to the client; the number of a method in its list is its
  opcode on the wire.  `Interface.flaw?` finds the first reason why nothing can be dispatched against
  a definition, and `flaw?_eq_none_iff` says which definitions are free of flaws.
-/

namespace Compositor.Protocol

open Compositor.Wire (Kind Param Signature)

/-- The way a method travels. -/
inductive Direction where
  /-- From the client to the server. -/
  | request
  /-- From the server to the client. -/
  | event
deriving DecidableEq, Repr

/-- The name of a direction. -/
def Direction.name : Direction → String
  | .request => "request"
  | .event => "event"

/-- A request or an event. -/
structure Method where
  name : String
  signature : Signature := ⟨[]⟩
  /-- The first version of the interface that has this method. -/
  since : UInt32 := 1
  /-- Does the method end the life of its object? -/
  destructor : Bool := false
deriving DecidableEq, Repr

/-- A named set of requests and events.  The version is the highest one that is provided. -/
structure Interface where
  name : String
  version : UInt32
  requests : List Method := []
  events : List Method := []
deriving DecidableEq, Repr

/-- The number of opcodes that there are. -/
def maxMethods : Nat := 0x10000

namespace Interface

/-- The methods of one direction, in the order of their opcodes. -/
def methods (i : Interface) : Direction → List Method
  | .request => i.requests
  | .event => i.events

/-- The method behind an opcode. -/
def method? (i : Interface) (d : Direction) (opcode : UInt16) : Option Method :=
  (i.methods d)[opcode.toNat]?

/-- The opcode of the first method with a given name, unless it lies beyond the last opcode. -/
def opcode? (i : Interface) (d : Direction) (name : String) : Option UInt16 :=
  match (i.methods d).findIdx? (·.name == name) with
  | some index => if index < maxMethods then some (UInt16.ofNat index) else none
  | none => none

/-- A mention of an interface by a parameter of a method. -/
structure Reference where
  method : String
  param : String
  target : String
deriving DecidableEq, Repr

/-- The interfaces that a method's parameters mention, in order. -/
def methodReferences (m : Method) : List Reference :=
  m.signature.params.filterMap fun p => p.interface.map (⟨m.name, p.name, ·⟩)

/-- The interfaces that the definition mentions: those of requests, then those of events. -/
def references (i : Interface) : List Reference := (i.requests ++ i.events).flatMap methodReferences

end Interface

/-! ## Flaws -/

/-- Why nothing can be dispatched against a definition. -/
inductive Flaw where
  | versionZero
  | tooManyMethods (direction : Direction)
  /-- A method is there from a version on that the interface does not have. -/
  | sinceOutside (direction : Direction) (method : String) (since version : UInt32)
  /-- A method creates more than one object. -/
  | createsMany (direction : Direction) (method : String) (count : Nat)
deriving DecidableEq

/-- The text of a flaw. -/
def Flaw.message : Flaw → String
  | .versionZero => "version must be at least 1"
  | .tooManyMethods direction => s!"too many {direction.name}s"
  | .sinceOutside direction method since version =>
    s!"{direction.name} {method} has since {Text.decimal since.toNat} outside 1..={Text.decimal version.toNat}"
  | .createsMany direction method count =>
    s!"{direction.name} {method} creates {Text.decimal count} objects"

/-- The flaw of a method in an interface of a given version. -/
def Method.flaw? (m : Method) (direction : Direction) (version : UInt32) : Option Flaw :=
  if m.since = 0 ∨ version < m.since then some (.sinceOutside direction m.name m.since version)
  else if 1 < m.signature.newIdCount then
    some (.createsMany direction m.name m.signature.newIdCount)
  else none

/-- The first flaw of the methods of one direction. -/
def Interface.methodsFlaw? (i : Interface) (d : Direction) : Option Flaw :=
  if maxMethods < (i.methods d).length then some (.tooManyMethods d)
  else (i.methods d).findSome? (·.flaw? d i.version)

/-- The first flaw of a definition, requests before events. -/
def Interface.flaw? (i : Interface) : Option Flaw :=
  if i.version = 0 then some .versionZero
  else (i.methodsFlaw? .request).or (i.methodsFlaw? .event)

/-- A method that can be dispatched in an interface of a given version. -/
structure Method.Sound (m : Method) (version : UInt32) : Prop where
  since_pos : 1 ≤ m.since
  since_le : m.since ≤ version
  newIds : m.signature.newIdCount ≤ 1

/-- A definition that can be dispatched against. -/
structure Interface.Sound (i : Interface) : Prop where
  version_pos : 1 ≤ i.version
  count : ∀ d, (i.methods d).length ≤ maxMethods
  sound : ∀ d, ∀ m ∈ i.methods d, m.Sound i.version

theorem Method.flaw?_eq_none_iff (m : Method) (d : Direction) (version : UInt32) :
    m.flaw? d version = none ↔ m.Sound version := by
  have hz : m.since = 0 ↔ m.since.toNat = 0 := by
    rw [← UInt32.toNat_inj]; rfl
  have h1 : (1 : UInt32).toNat = 1 := rfl
  unfold Method.flaw?
  constructor
  · intro h
    split at h
    · nomatch h
    · rename_i hs
      split at h
      · nomatch h
      · rename_i hn
        refine ⟨?_, ?_, by omega⟩
        · rw [UInt32.le_iff_toNat_le]; rw [hz] at hs; omega
        · rw [UInt32.le_iff_toNat_le]; rw [UInt32.lt_iff_toNat_lt] at hs; omega
  · rintro ⟨hp, hl, hn⟩
    rw [UInt32.le_iff_toNat_le] at hp hl
    rw [if_neg, if_neg (by omega)]
    rw [hz, UInt32.lt_iff_toNat_lt]
    omega

theorem Interface.methodsFlaw?_eq_none_iff (i : Interface) (d : Direction) :
    i.methodsFlaw? d = none ↔
      (i.methods d).length ≤ maxMethods ∧ ∀ m ∈ i.methods d, m.Sound i.version := by
  unfold Interface.methodsFlaw?
  split
  · simp only [reduceCtorEq, false_iff]; omega
  · simp only [List.findSome?_eq_none_iff, Method.flaw?_eq_none_iff]
    constructor
    · intro h; exact ⟨by omega, h⟩
    · intro h; exact h.2

theorem Interface.flaw?_eq_none_iff (i : Interface) : i.flaw? = none ↔ i.Sound := by
  have hz : i.version = 0 ↔ ¬ 1 ≤ i.version := by
    rw [← UInt32.toNat_inj, UInt32.le_iff_toNat_le]
    change i.version.toNat = 0 ↔ ¬ 1 ≤ i.version.toNat
    omega
  unfold Interface.flaw?
  split
  · rename_i h
    simp only [reduceCtorEq, false_iff]
    exact fun hs => hz.1 h hs.version_pos
  · rename_i h
    rw [Option.or_eq_none_iff, methodsFlaw?_eq_none_iff, methodsFlaw?_eq_none_iff]
    constructor
    · rintro ⟨⟨hr, hr'⟩, he, he'⟩
      refine ⟨Decidable.not_not.1 (fun hn => h (hz.2 hn)), fun d => ?_, fun d => ?_⟩
      · cases d
        · exact hr
        · exact he
      · cases d
        · exact hr'
        · exact he'
    · rintro ⟨_, hc, hs⟩
      exact ⟨⟨hc .request, hs .request⟩, hc .event, hs .event⟩

end Compositor.Protocol
