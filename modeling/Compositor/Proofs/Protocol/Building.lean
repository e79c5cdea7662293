import Mathlib.Data.List.Nodup
import Compositor.Proofs.Protocol.Declarations
import Compositor.Proofs.Protocol.Registry

/-
  Which definitions make a registry.

  Definitions come from several sources, and three passes have a say in whether they make a registry: each is
  checked by itself, then its name must be new, and at last every interface that is named must be there.  What they
  ask for is one condition on the definitions as a whole, in which their order has no part (`Coherent`).

  The last pass asks for more than that.  Parameters that stand for objects name interfaces, and those have to be
  there, but a description may name one in any argument, where it says nothing.  It is looked up all the same:
  coherent definitions are refused if a parameter of another kind names a stranger (`Strays`).

  `builds_ofSources` says what comes of every list of sources, and what is found in the registry then.
-/

namespace Compositor.Protocol

open Compositor.Wire (Param)

/-! ## Definitions as a whole -/

/-- One of some definitions has a method with a parameter that names an interface. -/
def Mentions (is : List Interface) (p : Param) (name : String) : Prop :=
  ∃ i ∈ is, ∃ direction, ∃ m ∈ i.methods direction, p ∈ m.signature.params ∧ p.interface = some name

/-- A parameter for an object, one that is there or a new one. -/
def StandsForObject (p : Param) : Prop := p.kind = .object ∨ p.kind = .newId

/-- Definitions that belong together: each of them is sound, their names tell them apart, and the interfaces of
objects are among them. -/
structure Coherent (is : List Interface) : Prop where
  sound : ∀ i ∈ is, i.Sound
  nodup : (is.map (·.name)).Nodup
  closed : ∀ p name, Mentions is p name → StandsForObject p → name ∈ is.map (·.name)

/-- A parameter that stands for no object names an interface that is not among the definitions. -/
def Strays (is : List Interface) : Prop :=
  ∃ p name, Mentions is p name ∧ ¬ StandsForObject p ∧ name ∉ is.map (·.name)

/-- The references of definitions are the interfaces that their parameters name. -/
theorem exists_reference_iff {is : List Interface} {name : String} :
    (∃ i ∈ is, ∃ ref ∈ i.references, ref.target = name) ↔ ∃ p, Mentions is p name := by
  constructor
  · rintro ⟨i, hi, ref, href, rfl⟩
    obtain ⟨direction, m, hm, p, hp, hname⟩ := Registry.exists_of_mem_references href
    exact ⟨p, i, hi, direction, m, hm, hp, hname⟩
  · rintro ⟨p, i, hi, direction, m, hm, hp, hname⟩
    exact ⟨i, hi, ⟨m.name, p.name, name⟩, Registry.mem_references hm hp hname, rfl⟩

/-! ## Building -/

namespace Registry

/-- A registry from coherent definitions is consistent unless one of them strays. -/
theorem consistent_iff {is : List Interface} : Consistent ⟨is⟩ ↔ Coherent is ∧ ¬ Strays is := by
  have hnames : ∀ name, contains ⟨is⟩ name = true ↔ name ∈ is.map (·.name) := contains_iff_mem_names ⟨is⟩
  constructor
  · intro h
    have hclosed : ∀ p name, Mentions is p name → name ∈ is.map (·.name) := by
      intro p name hmention
      obtain ⟨i, hi, ref, href, rfl⟩ := exists_reference_iff.2 ⟨p, hmention⟩
      exact (hnames _).1 (h.closed i hi ref href)
    refine ⟨⟨h.sound, h.nodup, fun p name hmention _ => hclosed p name hmention⟩, ?_⟩
    rintro ⟨p, name, hmention, -, hstranger⟩
    exact hstranger (hclosed p name hmention)
  · rintro ⟨h, hstrays⟩
    refine ⟨h.sound, h.nodup, fun i hi ref href => (hnames _).2 ?_⟩
    obtain ⟨p, hmention⟩ := exists_reference_iff.1 ⟨i, hi, ref, href, rfl⟩
    by_cases hobject : StandsForObject p
    · exact h.closed p _ hmention hobject
    · by_contra hstranger
      exact hstrays ⟨p, _, hmention, hobject, hstranger⟩

/-- Coherent definitions of which one strays are refused at last, for a name that is not there. -/
theorem build_of_strays {is : List Interface} (h : Coherent is) (hstrays : Strays is) :
    ∃ i ∈ is, ∃ ref ∈ i.references, ref.target ∉ is.map (·.name) ∧
      build is = .error (.unknownReference i.name ref) := by
  have hadd : addAll {} is = .ok ⟨is⟩ :=
    (addAll_eq_ok_iff {} ⟨is⟩ is).2 ⟨rfl, h.sound, h.nodup, fun i _ => List.not_mem_nil⟩
  cases hdangling : danglingReference? ⟨is⟩ with
  | none =>
    have hconsistent : Consistent ⟨is⟩ := ⟨h.sound, h.nodup, (danglingReference?_eq_none_iff _).1 hdangling⟩
    exact absurd hstrays (consistent_iff.1 hconsistent).2
  | some e =>
    obtain ⟨i, hi, hfirst⟩ := List.exists_of_findSome?_eq_some hdangling
    obtain ⟨ref, hfind, rfl⟩ := Option.map_eq_some_iff.1 hfirst
    refine ⟨i, hi, ref, List.mem_of_find?_eq_some hfind, fun hmem => ?_, ?_⟩
    · have hstranger := List.find?_some hfind
      rw [(contains_iff_mem_names ⟨is⟩ _).2 hmem] at hstranger
      cases hstranger
    · rw [build, hadd]
      dsimp only
      rw [hdangling]

/-- A registry with distinct names has under each name the definition with that name. -/
theorem get?_eq_some_iff {r : Registry} (hnodup : r.names.Nodup) {name : String} {i : Interface} :
    r.get? name = some i ↔ i ∈ r.interfaces ∧ i.name = name := by
  constructor
  · exact fun h => ⟨mem_of_get? h, name_of_get? h⟩
  · rintro ⟨hi, rfl⟩
    have hfound : r.contains i.name = true :=
      (contains_iff_mem_names r i.name).2 (List.mem_map_of_mem hi)
    obtain ⟨j, hget⟩ := Option.isSome_iff_exists.1 hfound
    rw [hget, List.inj_on_of_nodup_map hnodup (mem_of_get? hget) hi (name_of_get? hget)]

end Registry

/-! ## Sources -/

/-- Building reads all sources and joins what they define. -/
theorem Registry.ofSources_of_definitions {sources : List Source} {iss : List (List Interface)}
    (hread : List.Forall₂ (fun source is => source.definitions = .ok is) sources iss) :
    ofSources sources = build iss.flatten := by
  rw [ofSources, collect_eq_ok_iff.2 hread]

/-- What comes of building a registry from the definitions `is`. -/
structure Builds (is : List Interface) (result : Except Error Registry) : Prop where
  /-- Only coherent definitions make a registry. -/
  coherent : ∀ r, result = .ok r → Coherent is
  /-- They do if none of them strays. -/
  built : Coherent is → ¬ Strays is → ∃ r, result = .ok r
  /-- If one strays, what it names is reported as unknown. -/
  refused : Coherent is → Strays is → ∃ i ∈ is, ∃ ref ∈ i.references, ref.target ∉ is.map (·.name) ∧
    result = .error (.unknownReference i.name ref)
  /-- A registry has under each name the definition that was added under it. -/
  get : ∀ r, result = .ok r → ∀ name i, r.get? name = some i ↔ i ∈ is ∧ i.name = name
  /-- It is found at the versions that it provides. -/
  lookup : ∀ r, result = .ok r → ∀ name version i,
    r.lookup name version = .ok i ↔ (i ∈ is ∧ i.name = name) ∧ 1 ≤ version ∧ version ≤ i.version

theorem Registry.builds_build (is : List Interface) : Builds is (build is) := by
  have hget : ∀ r, build is = .ok r → ∀ name i, r.get? name = some i ↔ i ∈ is ∧ i.name = name := by
    intro r hr name i
    obtain ⟨rfl, hconsistent⟩ := build_eq_ok_iff.1 hr
    exact get?_eq_some_iff hconsistent.nodup
  refine ⟨fun r hr => ?_, fun h hstrays => ?_, build_of_strays, hget, fun r hr name version i => ?_⟩
  · obtain ⟨rfl, hconsistent⟩ := build_eq_ok_iff.1 hr
    exact (consistent_iff.1 hconsistent).1
  · exact ⟨⟨is⟩, build_eq_ok_iff.2 ⟨rfl, consistent_iff.2 ⟨h, hstrays⟩⟩⟩
  · rw [lookup_eq_ok_iff]
    constructor
    · rintro ⟨rfl, hprovides⟩
      exact ⟨(hget r hr _ _).1 hprovides.defined, hprovides.version_pos, hprovides.version_le⟩
    · rintro ⟨⟨hi, rfl⟩, hpos, hle⟩
      exact ⟨rfl, (hget r hr _ _).2 ⟨hi, rfl⟩, hpos, hle⟩

/-- What comes of building a registry from sources of any kind, in any order, that define `iss`. -/
theorem Registry.builds_ofSources {sources : List Source} {iss : List (List Interface)}
    (hread : List.Forall₂ (fun source is => source.definitions = .ok is) sources iss) :
    Builds iss.flatten (ofSources sources) := by
  rw [ofSources_of_definitions hread]
  exact builds_build iss.flatten

/-! ## A stray mention -/

/-- A description in which a number is said to have an interface, which nobody defines. -/
def strayText : String :=
  "<protocol name=\"p\"><interface name=\"a\" version=\"1\"><request name=\"r\">" ++
    "<arg name=\"x\" type=\"uint\" interface=\"nowhere\"/></request></interface></protocol>"

def strayDefinitions : List Interface :=
  [⟨"a", 1, [⟨"r", ⟨[⟨"x", .uint, some "nowhere", false⟩]⟩, 1, false⟩], []⟩]

theorem coherent_strayDefinitions : Coherent strayDefinitions := by
  refine ⟨?_, by decide, ?_⟩
  · intro i hi
    rw [List.mem_singleton.1 hi]
    exact (Interface.flaw?_eq_none_iff _).1 (by decide)
  · rintro p name ⟨i, hi, direction, m, hm, hp, hname⟩ hobject
    rw [List.mem_singleton.1 hi] at hm
    cases direction with
    | request =>
      rw [List.mem_singleton.1 hm] at hp
      rw [List.mem_singleton.1 hp] at hobject
      rcases hobject with hkind | hkind
      · cases hkind
      · cases hkind
    | event => cases hm

theorem definitions_strayText : (Source.description strayText).definitions = .ok strayDefinitions := by
  decide +kernel

/-- Nothing is built from it, although its only definition is coherent. -/
theorem stray_sample : (Source.description strayText).definitions = .ok strayDefinitions ∧
    Coherent strayDefinitions ∧
      Registry.ofSources [.description strayText] = .error (.unknownReference "a" ⟨"r", "x", "nowhere"⟩) := by
  refine ⟨definitions_strayText, coherent_strayDefinitions, ?_⟩
  rw [Registry.ofSources_of_definitions (.cons definitions_strayText .nil)]
  decide

/-- The core interfaces with that description, and by themselves. -/
theorem builds_ofSources_sample :
    Builds [Core.interfaces, strayDefinitions].flatten (Registry.ofSources [.core, .description strayText]) ∧
      Builds [Core.interfaces].flatten (Registry.ofSources [.core]) :=
  ⟨Registry.builds_ofSources (.cons rfl (.cons definitions_strayText .nil)),
    Registry.builds_ofSources (.cons rfl .nil)⟩

end Compositor.Protocol
