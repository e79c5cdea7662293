import Compositor.Protocol.Registry

/-
  What a built registry is good for.

  A definition is admitted to a registry once and for all, so what `Registry.build` has checked holds of
  every lookup later on: `build_eq_ok_iff` says what it has checked (`Registry.Consistent`), and
  `lookup_eq_ok_iff` what a lookup gives.  The two meet in `Consistent.exists_provides`: an interface that a
  registered request mentions can be looked up at every version that it has.
-/

namespace Compositor.Protocol.Registry

/-! ## Finding -/

theorem name_of_get? {r : Registry} {name : String} {i : Interface} (h : r.get? name = some i) :
    i.name = name := by
  have hname := List.find?_some h
  exact eq_of_beq hname

theorem mem_of_get? {r : Registry} {name : String} {i : Interface} (h : r.get? name = some i) :
    i ∈ r.interfaces := List.mem_of_find?_eq_some h

/-- The interface is the registry's own, and the version is one that it provides. -/
structure Provides (r : Registry) (i : Interface) (version : UInt32) : Prop where
  defined : r.get? i.name = some i
  version_pos : 1 ≤ version
  version_le : version ≤ i.version

/-- A lookup gives exactly what the registry provides. -/
theorem lookup_eq_ok_iff {r : Registry} {name : String} {version : UInt32} {i : Interface} :
    r.lookup name version = .ok i ↔ i.name = name ∧ r.Provides i version := by
  have hzero : version = 0 ↔ ¬ 1 ≤ version := by
    rw [← UInt32.toNat_inj, UInt32.le_iff_toNat_le]
    change version.toNat = 0 ↔ ¬ 1 ≤ version.toNat
    omega
  unfold lookup
  constructor
  · intro h
    split at h
    · cases h
    · rename_i i' hget
      split at h
      · cases h
      · rename_i hversion
        injection h with h
        subst h
        rw [not_or, hzero, Decidable.not_not, UInt32.not_lt] at hversion
        have hname := name_of_get? hget
        exact ⟨hname, by rw [hname, hget], hversion.1, hversion.2⟩
  · rintro ⟨rfl, hget, hpos, hle⟩
    rw [hget]
    dsimp only
    rw [if_neg]
    rw [not_or, hzero, Decidable.not_not, UInt32.not_lt]
    exact ⟨hpos, hle⟩

/-! ## Building -/

/-- What makes a registry fit for use: its definitions are sound, their names tell them apart, and every
interface that one of them mentions is among them. -/
structure Consistent (r : Registry) : Prop where
  sound : ∀ i ∈ r.interfaces, i.Sound
  nodup : r.names.Nodup
  closed : ∀ i ∈ r.interfaces, ∀ ref ∈ i.references, r.contains ref.target = true

theorem danglingReference?_eq_none_iff (r : Registry) : r.danglingReference? = none ↔
    ∀ i ∈ r.interfaces, ∀ ref ∈ i.references, r.contains ref.target = true := by
  unfold danglingReference?
  simp only [List.findSome?_eq_none_iff, Option.map_eq_none_iff, List.find?_eq_none, Bool.not_eq_true,
    Bool.not_eq_false']

/-- Building admits exactly the definitions that make a consistent registry. -/
theorem build_eq_ok_iff {is : List Interface} {r : Registry} :
    build is = .ok r ↔ r = ⟨is⟩ ∧ r.Consistent := by
  have hadd := addAll_eq_ok_iff {} ⟨is⟩ is
  unfold build
  constructor
  · intro h
    split at h
    · cases h
    · rename_i r' hall
      split at h
      · cases h
      · rename_i hclosed
        injection h with h
        subst h
        obtain ⟨rfl, hsound, hnodup, -⟩ := (addAll_eq_ok_iff {} r' is).1 hall
        exact ⟨rfl, hsound, hnodup, (danglingReference?_eq_none_iff _).1 hclosed⟩
  · rintro ⟨rfl, hr⟩
    rw [hadd.2 ⟨rfl, hr.sound, hr.nodup, fun i _ => List.not_mem_nil⟩]
    dsimp only
    rw [(danglingReference?_eq_none_iff _).2 hr.closed]

/-- The registry of the core interfaces is one that can be built. -/
theorem build_core : build Core.interfaces = .ok core := rfl

/-- Where a registry comes from: it was built, or holds the core interfaces only. -/
def IsBuilt (r : Registry) : Prop := r = core ∨ ∃ is, build is = .ok r

theorem IsBuilt.consistent {r : Registry} (h : r.IsBuilt) : r.Consistent := by
  rcases h with rfl | ⟨is, h⟩
  · exact (build_eq_ok_iff.1 build_core).2
  · exact (build_eq_ok_iff.1 h).2

/-! ## Mentions -/

/-- A parameter of a method that names an interface mentions it. -/
theorem mem_references {i : Interface} {direction : Direction} {m : Method} (hm : m ∈ i.methods direction)
    {p : Wire.Param} (hp : p ∈ m.signature.params) {name : String} (hname : p.interface = some name) :
    ⟨m.name, p.name, name⟩ ∈ i.references := by
  have hmem : m ∈ i.requests ++ i.events := by
    cases direction with
    | request => exact List.mem_append_left _ hm
    | event => exact List.mem_append_right _ hm
  refine List.mem_flatMap.2 ⟨m, hmem, List.mem_filterMap.2 ⟨p, hp, ?_⟩⟩
  rw [hname]
  rfl

/-- Every mention is by a parameter of a method. -/
theorem exists_of_mem_references {i : Interface} {ref : Interface.Reference} (h : ref ∈ i.references) :
    ∃ direction, ∃ m ∈ i.methods direction, ∃ p ∈ m.signature.params, p.interface = some ref.target := by
  obtain ⟨m, hm, hmethod⟩ := List.mem_flatMap.1 h
  obtain ⟨p, hp, href⟩ := List.mem_filterMap.1 hmethod
  obtain ⟨name, hname, rfl⟩ := Option.map_eq_some_iff.1 href
  rcases List.mem_append.1 hm with hm | hm
  · exact ⟨.request, m, hm, p, hp, hname⟩
  · exact ⟨.event, m, hm, p, hp, hname⟩

/-- The interface that a registered request mentions is provided at every version up to its own. -/
theorem Consistent.exists_provides {r : Registry} (hr : r.Consistent) {i : Interface}
    (hi : i ∈ r.interfaces) {m : Method} (hm : m ∈ i.requests) {p : Wire.Param}
    (hp : p ∈ m.signature.params) {name : String} (hname : p.interface = some name) :
    ∃ j, r.get? name = some j ∧ 1 ≤ j.version ∧
      ∀ version, 1 ≤ version → version ≤ j.version → r.lookup name version = .ok j := by
  obtain ⟨j, hget⟩ := Option.isSome_iff_exists.1 (hr.closed i hi _ (mem_references (show m ∈ i.methods .request from hm) hp hname))
  have hj := name_of_get? hget
  refine ⟨j, hget, (hr.sound j (mem_of_get? hget)).version_pos, fun version hpos hle => ?_⟩
  exact lookup_eq_ok_iff.2 ⟨hj, by rw [hj]; exact hget, hpos, hle⟩

end Compositor.Protocol.Registry
