import Compositor.Protocol.Error

/-
  Protocol descriptions: interfaces as a document lists them.

  The entries hold what the elements of a description say, in document order and uninterpreted;
  `Description.interfaces` gives them their meaning.  Methods keep their order, which fixes their
  opcodes.  The first entry that means nothing decides the error: requests before events, and of a
  method first its type, then its arguments one by one, of each its type and then its nullability.
-/

namespace Compositor.Protocol

open Compositor.Wire (Kind Param Signature)

/-- An argument as described. -/
structure ArgEntry where
  name : String
  type : String
  interface : Option String := none
  allowNull : Option String := none
deriving DecidableEq, Repr

/-- A request or an event as described. -/
structure MethodEntry where
  name : String
  type : Option String := none
  since : Option UInt32 := none
  args : List ArgEntry := []
deriving DecidableEq, Repr

/-- An interface as described. -/
structure InterfaceEntry where
  name : String
  version : UInt32
  requests : List MethodEntry := []
  events : List MethodEntry := []
deriving DecidableEq, Repr

/-- A protocol as described. -/
structure Description where
  name : String
  entries : List InterfaceEntry := []
deriving DecidableEq, Repr

/-- The results of a step on every element, or the first error. -/
def collect {α β ε : Type} (step : α → Except ε β) : List α → Except ε (List β)
  | [] => .ok []
  | a :: as =>
    match step a with
    | .error e => .error e
    | .ok b =>
      match collect step as with
      | .error e => .error e
      | .ok bs => .ok (b :: bs)

theorem length_of_collect {α β ε : Type} {step : α → Except ε β} {as : List α} {bs : List β}
    (h : collect step as = .ok bs) : bs.length = as.length := by
  induction as generalizing bs with
  | nil => cases h; rfl
  | cons a as ih =>
    unfold collect at h
    split at h
    · nomatch h
    · split at h
      · nomatch h
      · rename_i hs
        cases h
        simp [ih hs]

/-- The nullability that a description gives, no by default. -/
def nullable? : Option String → Option Bool
  | none => some false
  | some value => if value = "true" then some true else if value = "false" then some false else none

/-- The parameter that an entry declares. -/
def ArgEntry.param (interface method : String) (a : ArgEntry) : Except DescriptionError Param :=
  match Kind.ofName? a.type with
  | none => .error (.unknownArgumentType interface method a.name a.type)
  | some kind =>
    match nullable? a.allowNull with
    | none => .error (.invalidAllowNull interface method a.name (a.allowNull.getD ""))
    | some nullable => .ok ⟨a.name, kind, a.interface, nullable⟩

/-- Is a method of this type a destructor?  The only type is that of destructors. -/
def destructor? : Option String → Option Bool
  | none => some false
  | some type => if type = "destructor" then some true else none

/-- The method that an entry declares. -/
def MethodEntry.method (interface : String) (m : MethodEntry) : Except DescriptionError Method :=
  match destructor? m.type with
  | none => .error (.unknownMethodType interface m.name (m.type.getD ""))
  | some destructor =>
    match collect (·.param interface m.name) m.args with
    | .error e => .error e
    | .ok params => .ok ⟨m.name, ⟨params⟩, m.since.getD 1, destructor⟩

/-- The interface that an entry declares. -/
def InterfaceEntry.interface (i : InterfaceEntry) : Except DescriptionError Interface :=
  match collect (·.method i.name) i.requests with
  | .error e => .error e
  | .ok requests =>
    match collect (·.method i.name) i.events with
    | .error e => .error e
    | .ok events => .ok ⟨i.name, i.version, requests, events⟩

/-- The interfaces that a description declares, in order. -/
def Description.interfaces (d : Description) : Except DescriptionError (List Interface) :=
  collect InterfaceEntry.interface d.entries

end Compositor.Protocol
