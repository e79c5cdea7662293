import Compositor.Protocol.Core
import Compositor.Protocol.Error

/-
  The registry: every interface that a server speaks, by name.

  `Registry.build` admits a list of definitions if each is sound, no two share a name, and every
  interface that is mentioned is among them.  A built registry never changes.
-/

namespace Compositor.Protocol

/-- The registered interfaces, in the order in which they were defined. -/
structure Registry where
  interfaces : List Interface := []
deriving DecidableEq

namespace Registry

/-- The interface with a given name. -/
def get? (r : Registry) (name : String) : Option Interface := r.interfaces.find? (·.name == name)

def contains (r : Registry) (name : String) : Bool := (r.get? name).isSome

/-- The names of all interfaces. -/
def names (r : Registry) : List String := r.interfaces.map (·.name)

def size (r : Registry) : Nat := r.interfaces.length

/-- The interface with a given name, if it is provided at a given version. -/
def lookup (r : Registry) (name : String) (version : UInt32) : Except Error Interface :=
  match r.get? name with
  | none => .error (.interfaceNotFound name)
  | some i =>
    if version = 0 ∨ i.version < version then .error (.versionUnsupported name version i.version)
    else .ok i

/-- The method behind an opcode of an interface. -/
def method (r : Registry) (name : String) (opcode : UInt16) (d : Direction) : Except Error Method :=
  match r.get? name with
  | none => .error (.interfaceNotFound name)
  | some i =>
    match i.method? d opcode with
    | none => .error (.opcodeNotFound name d opcode)
    | some m => .ok m

/-! ## Building a registry -/

/-- The registry of the core interfaces. -/
def core : Registry := ⟨Core.interfaces⟩

/-- Adds a definition that is free of flaws and whose name is new. -/
def add (r : Registry) (i : Interface) : Except Error Registry :=
  match i.flaw? with
  | some flaw => .error (.invalidInterface i.name flaw)
  | none => if r.contains i.name then .error (.duplicateInterface i.name) else .ok ⟨r.interfaces ++ [i]⟩

/-- Adds definitions in order, up to the first that cannot be added. -/
def addAll (r : Registry) : List Interface → Except Error Registry
  | [] => .ok r
  | i :: is =>
    match r.add i with
    | .error e => .error e
    | .ok r => r.addAll is

/-- The first mention of an interface that is not registered. -/
def danglingReference? (r : Registry) : Option Error :=
  r.interfaces.findSome? fun i =>
    (i.references.find? fun ref => ! r.contains ref.target).map (.unknownReference i.name ·)

/-- Builds a registry from definitions. -/
def build (is : List Interface) : Except Error Registry :=
  match addAll {} is with
  | .error e => .error e
  | .ok r =>
    match r.danglingReference? with
    | some e => .error e
    | none => .ok r

theorem contains_iff_mem_names (r : Registry) (name : String) :
    r.contains name = true ↔ name ∈ r.names := by
  simp [contains, get?, names, List.find?_isSome]

/-- Definitions are added exactly when each is sound and no name occurs twice. -/
theorem addAll_eq_ok_iff (r s : Registry) (is : List Interface) : r.addAll is = .ok s ↔
    s = ⟨r.interfaces ++ is⟩ ∧ (∀ i ∈ is, i.Sound) ∧ (is.map (·.name)).Nodup ∧
      ∀ i ∈ is, i.name ∉ r.names := by
  induction is generalizing r with
  | nil => simp [addAll, eq_comm]
  | cons i is ih =>
    unfold addAll add
    cases hf : i.flaw? with
    | some flaw =>
      have hn : ¬ i.Sound := fun h => by rw [(i.flaw?_eq_none_iff).2 h] at hf; nomatch hf
      simp [hn]
    | none =>
      have hs := (i.flaw?_eq_none_iff).1 hf
      by_cases hc : r.contains i.name = true
      · have hm := (contains_iff_mem_names r i.name).1 hc
        simp [hc, hm]
      · have hm : i.name ∉ r.names := fun h => hc ((contains_iff_mem_names r i.name).2 h)
        have hnames : (Registry.mk (r.interfaces ++ [i])).names = r.names ++ [i.name] := by simp [names]
        simp only [hc, Bool.false_eq_true, if_false, ih, hnames, List.append_assoc,
          List.singleton_append, List.forall_mem_cons, List.map_cons, List.nodup_cons, List.mem_append,
          List.mem_singleton, not_or]
        constructor
        · rintro ⟨h1, h2, h3, h4⟩
          refine ⟨h1, ⟨hs, h2⟩, ⟨?_, h3⟩, hm, fun j hj => (h4 j hj).1⟩
          intro hmem
          obtain ⟨j, hj, hj'⟩ := List.mem_map.1 hmem
          exact (h4 j hj).2 hj'
        · rintro ⟨h1, ⟨_, h2⟩, ⟨h5, h3⟩, _, h4⟩
          refine ⟨h1, h2, h3, fun j hj => ⟨h4 j hj, fun hj' => h5 ?_⟩⟩
          exact List.mem_map.2 ⟨j, hj, hj'⟩

end Registry

end Compositor.Protocol
