import Mathlib.Data.List.Forall2
import Compositor.Protocol.Source

/-
  What a description declares.

  A description lists interfaces, these list requests and events, and these list arguments; the place of a method
  in its list is its opcode.  At each of these levels the entries are given their meaning one by one, up to the
  first that has none, and `collect_eq_ok_iff` and `collect_eq_error_iff` say what that comes to at any level.

  Two things are said of each kind of entry.  `Declares` is its meaning, field by field.  `faults` lists all that
  is wrong in it, in the order in which a reader meets it.  A description declares what its entries do
  (`Description.interfaces_eq_ok_iff`), or its error is the first of its faults
  (`Description.interfaces_eq_error_iff`).
-/

namespace Compositor.Protocol

open Compositor.Wire (Kind Param)

/-! ## Entries one by one -/

section
variable {α β ε : Type} {step : α → Except ε β}

/-- All entries mean something if each does by itself. -/
theorem collect_eq_ok_iff {as : List α} : ∀ {bs : List β},
    collect step as = .ok bs ↔ List.Forall₂ (fun a b => step a = .ok b) as bs := by
  induction as with
  | nil =>
    intro bs
    rw [collect, List.forall₂_nil_left_iff, Except.ok.injEq, eq_comm]
  | cons a as ih =>
    intro bs
    rw [List.forall₂_cons_left_iff]
    constructor
    · intro h
      unfold collect at h
      split at h
      · cases h
      · rename_i b ha
        split at h
        · cases h
        · rename_i bs' hrest
          cases h
          exact ⟨b, bs', ha, ih.1 hrest, rfl⟩
    · rintro ⟨b, bs', ha, hrest, rfl⟩
      rw [collect, ha]
      dsimp only
      rw [ih.2 hrest]

/-- Where the error is the first fault, a result comes with none. -/
theorem head?_eq_none_of_ok {result : Except ε β} {faults : List ε}
    (herror : ∀ e, result = .error e ↔ faults.head? = some e) {b : β} (hok : result = .ok b) :
    faults.head? = none := by
  rw [Option.eq_none_iff_forall_ne_some]
  intro e he
  rw [(herror e).2 he] at hok
  cases hok

/-- The error of a list is the first fault in it, if the error of each entry is its first fault. -/
theorem collect_eq_error_iff {faults : α → List ε}
    (hstep : ∀ a e, step a = .error e ↔ (faults a).head? = some e) {as : List α} {e : ε} :
    collect step as = .error e ↔ (as.flatMap faults).head? = some e := by
  induction as with
  | nil => simp [collect]
  | cons a as ih =>
    rw [List.flatMap_cons, List.head?_append, collect]
    cases ha : step a with
    | error e' => rw [(hstep a e').1 ha, Option.some_or, Except.error.injEq, Option.some.injEq]
    | ok b =>
      rw [head?_eq_none_of_ok (hstep a) ha, Option.none_or, ← ih]
      cases collect step as with
      | error e' => exact Iff.rfl
      | ok bs => simp

end

/-! ## Words with a meaning -/

/-- The names that the types of arguments can have. -/
def kindNames : List String := Kind.all.map (·.name)

example : kindNames = ["int", "uint", "fixed", "string", "object", "new_id", "array", "fd"] := rfl

theorem ofName?_eq_some_iff {name : String} {kind : Kind} : Kind.ofName? name = some kind ↔ kind.name = name :=
  ⟨Kind.name_of_ofName?, fun h => h ▸ Kind.ofName?_name kind⟩

theorem ofName?_eq_none_iff {name : String} : Kind.ofName? name = none ↔ name ∉ kindNames := by
  simp only [Kind.ofName?, kindNames, List.find?_eq_none, List.mem_map, not_exists, not_and, beq_iff_eq]

/-- What a description can say about null. -/
inductive SaysNullable : Option String → Bool → Prop where
  | absent : SaysNullable none false
  | yes : SaysNullable (some "true") true
  | no : SaysNullable (some "false") false

theorem nullable?_eq_some_iff {value : Option String} {nullable : Bool} :
    nullable? value = some nullable ↔ SaysNullable value nullable := by
  constructor
  · intro h
    unfold nullable? at h
    split at h
    · cases h
      exact .absent
    · split at h
      · rename_i htrue
        cases h
        rw [htrue]
        exact .yes
      · split at h
        · rename_i hfalse
          cases h
          rw [hfalse]
          exact .no
        · cases h
  · intro h
    cases h with
    | absent | yes | no => rfl

/-- What a description can say about the end of an object. -/
inductive SaysDestructor : Option String → Bool → Prop where
  | absent : SaysDestructor none false
  | destructor : SaysDestructor (some "destructor") true

theorem destructor?_eq_some_iff {type : Option String} {destructor : Bool} :
    destructor? type = some destructor ↔ SaysDestructor type destructor := by
  constructor
  · intro h
    unfold destructor? at h
    split at h
    · cases h
      exact .absent
    · split at h
      · rename_i htype
        cases h
        rw [htype]
        exact .destructor
      · cases h
  · intro h
    cases h with
    | absent | destructor => rfl

/-! ## Faults -/

/-- The methods of one direction that an entry lists. -/
def InterfaceEntry.methods (i : InterfaceEntry) : Direction → List MethodEntry
  | .request => i.requests
  | .event => i.events

/-- A fault, unless all is well. -/
def faultUnless (p : Prop) [Decidable p] (fault : DescriptionError) : List DescriptionError :=
  if p then [] else [fault]

/-- What is wrong with an argument: its type, and then its nullability. -/
def ArgEntry.faults (interface method : String) (a : ArgEntry) : List DescriptionError :=
  faultUnless (a.type ∈ kindNames) (.unknownArgumentType interface method a.name a.type) ++
    a.allowNull.toList.flatMap fun value =>
      faultUnless (value = "true" ∨ value = "false") (.invalidAllowNull interface method a.name value)

/-- What is wrong with a method: its type, and then its arguments. -/
def MethodEntry.faults (interface : String) (m : MethodEntry) : List DescriptionError :=
  (m.type.toList.flatMap fun type =>
      faultUnless (type = "destructor") (.unknownMethodType interface m.name type)) ++
    m.args.flatMap (·.faults interface m.name)

/-- What is wrong with an interface: its requests, and then its events. -/
def InterfaceEntry.faults (i : InterfaceEntry) : List DescriptionError :=
  (i.requests ++ i.events).flatMap (·.faults i.name)

/-- What is wrong with a description, interface by interface. -/
def Description.faults (d : Description) : List DescriptionError := d.entries.flatMap (·.faults)

/-- An argument that means something. -/
structure ArgEntry.WellFormed (a : ArgEntry) : Prop where
  type : a.type ∈ kindNames
  allowNull : ∀ value, a.allowNull = some value → value = "true" ∨ value = "false"

/-- A method that means something. -/
structure MethodEntry.WellFormed (m : MethodEntry) : Prop where
  type : ∀ type, m.type = some type → type = "destructor"
  args : ∀ a ∈ m.args, a.WellFormed

/-- A description in which everything means something. -/
def Description.WellFormed (d : Description) : Prop :=
  ∀ i ∈ d.entries, ∀ direction, ∀ m ∈ i.methods direction, m.WellFormed

section
variable {p : Prop} [Decidable p] {fault : DescriptionError}

@[simp]
theorem faultUnless_of (h : p) : faultUnless p fault = [] := if_pos h

@[simp]
theorem faultUnless_of_not (h : ¬ p) : faultUnless p fault = [fault] := if_neg h

theorem faultUnless_eq_nil_iff : faultUnless p fault = [] ↔ p := by
  by_cases h : p
  · simp [h]
  · simp [h]

end

theorem ArgEntry.faults_eq_nil_iff {interface method : String} {a : ArgEntry} :
    a.faults interface method = [] ↔ a.WellFormed := by
  unfold faults
  simp only [List.append_eq_nil_iff, List.flatMap_eq_nil_iff, faultUnless_eq_nil_iff, Option.mem_toList]
  exact ⟨fun h => ⟨h.1, h.2⟩, fun h => ⟨h.type, h.allowNull⟩⟩

theorem MethodEntry.faults_eq_nil_iff {interface : String} {m : MethodEntry} :
    m.faults interface = [] ↔ m.WellFormed := by
  unfold faults
  simp only [List.append_eq_nil_iff, List.flatMap_eq_nil_iff, faultUnless_eq_nil_iff, Option.mem_toList,
    ArgEntry.faults_eq_nil_iff]
  exact ⟨fun h => ⟨h.1, h.2⟩, fun h => ⟨h.type, h.args⟩⟩

theorem Description.faults_eq_nil_iff {d : Description} : d.faults = [] ↔ d.WellFormed := by
  unfold faults InterfaceEntry.faults WellFormed
  simp only [List.flatMap_eq_nil_iff, MethodEntry.faults_eq_nil_iff]
  refine forall₂_congr fun i _ => ⟨fun h direction m hm => ?_, fun h m hm => ?_⟩
  · cases direction with
    | request => exact h m (List.mem_append_left _ hm)
    | event => exact h m (List.mem_append_right _ hm)
  · rcases List.mem_append.1 hm with hm | hm
    · exact h .request m hm
    · exact h .event m hm

/-! ## Declarations -/

/-- An argument declares a parameter. -/
structure ArgEntry.Declares (a : ArgEntry) (p : Param) : Prop where
  name_eq : p.name = a.name
  kind_eq : p.kind.name = a.type
  interface_eq : p.interface = a.interface
  nullable : SaysNullable a.allowNull p.nullable

/-- A request or an event declares a method.  Where nothing is said it is there from the first version on. -/
structure MethodEntry.Declares (m : MethodEntry) (method : Method) : Prop where
  name_eq : method.name = m.name
  params : List.Forall₂ ArgEntry.Declares m.args method.signature.params
  since_eq : method.since = m.since.getD 1
  destructor : SaysDestructor m.type method.destructor

/-- An entry declares an interface. -/
structure InterfaceEntry.Declares (e : InterfaceEntry) (i : Interface) : Prop where
  name_eq : i.name = e.name
  version_eq : i.version = e.version
  methods : ∀ direction, List.Forall₂ MethodEntry.Declares (e.methods direction) (i.methods direction)

theorem ArgEntry.param_eq_ok_iff {interface method : String} {a : ArgEntry} {p : Param} :
    a.param interface method = .ok p ↔ a.Declares p := by
  unfold param
  constructor
  · intro h
    split at h
    · cases h
    · rename_i kind hkind
      split at h
      · cases h
      · rename_i nullable hnullable
        cases h
        exact ⟨rfl, ofName?_eq_some_iff.1 hkind, rfl, nullable?_eq_some_iff.1 hnullable⟩
  · intro h
    rw [ofName?_eq_some_iff.2 h.kind_eq]
    dsimp only
    rw [nullable?_eq_some_iff.2 h.nullable, ← h.name_eq, ← h.interface_eq]

theorem ArgEntry.param_eq_error_iff {interface method : String} (a : ArgEntry) (e : DescriptionError) :
    a.param interface method = .error e ↔ (a.faults interface method).head? = some e := by
  unfold param faults
  cases hkind : Kind.ofName? a.type with
  | none =>
    rw [faultUnless_of_not (ofName?_eq_none_iff.1 hkind)]
    simp
  | some kind =>
    have hmem : a.type ∈ kindNames := by
      by_contra hnot
      rw [ofName?_eq_none_iff.2 hnot] at hkind
      cases hkind
    rw [faultUnless_of hmem, List.nil_append]
    cases a.allowNull with
    | none => simp [nullable?]
    | some value =>
      by_cases htrue : value = "true"
      · simp [nullable?, htrue]
      · by_cases hfalse : value = "false"
        · simp [nullable?, hfalse]
        · simp [nullable?, htrue, hfalse]

theorem MethodEntry.method_eq_ok_iff {interface : String} {m : MethodEntry} {method : Method} :
    m.method interface = .ok method ↔ m.Declares method := by
  unfold MethodEntry.method
  constructor
  · intro h
    split at h
    · cases h
    · rename_i destructor hdestructor
      split at h
      · cases h
      · rename_i params hparams
        cases h
        have hdeclared := collect_eq_ok_iff.1 hparams
        simp only [ArgEntry.param_eq_ok_iff] at hdeclared
        exact ⟨rfl, hdeclared, rfl, destructor?_eq_some_iff.1 hdestructor⟩
  · intro h
    have hparams : collect (·.param interface m.name) m.args = .ok method.signature.params := by
      rw [collect_eq_ok_iff]
      simp only [ArgEntry.param_eq_ok_iff]
      exact h.params
    rw [destructor?_eq_some_iff.2 h.destructor]
    dsimp only
    rw [hparams, ← h.name_eq, ← h.since_eq]

theorem MethodEntry.method_eq_error_iff {interface : String} (m : MethodEntry) (e : DescriptionError) :
    m.method interface = .error e ↔ (m.faults interface).head? = some e := by
  have hargs : collect (·.param interface m.name) m.args = .error e ↔
      (m.args.flatMap (·.faults interface m.name)).head? = some e :=
    collect_eq_error_iff ArgEntry.param_eq_error_iff
  -- once the type means something, the error is that of the arguments
  have hrest : ∀ destructor, destructor? m.type = some destructor →
      (m.method interface = .error e ↔ (m.args.flatMap (·.faults interface m.name)).head? = some e) := by
    intro destructor htype
    unfold MethodEntry.method
    rw [htype, ← hargs]
    dsimp only
    cases collect (·.param interface m.name) m.args with
    | error e' =>
      dsimp only
      rw [Except.error.injEq, Except.error.injEq]
    | ok params => simp
  unfold faults
  cases htype : m.type with
  | none =>
    rw [Option.toList_none, List.flatMap_nil, List.nil_append]
    exact hrest false (by rw [htype]; rfl)
  | some type =>
    rw [Option.toList_some, List.flatMap_singleton]
    by_cases hdestructor : type = "destructor"
    · rw [faultUnless_of hdestructor, List.nil_append]
      exact hrest true (by rw [htype, hdestructor]; rfl)
    · rw [faultUnless_of_not hdestructor]
      unfold MethodEntry.method
      simp [htype, destructor?, hdestructor]

theorem InterfaceEntry.interface_eq_ok_iff {e : InterfaceEntry} {i : Interface} :
    e.interface = .ok i ↔ e.Declares i := by
  have hmethods : ∀ {ms : List MethodEntry} {methods : List Method},
      collect (·.method e.name) ms = .ok methods ↔ List.Forall₂ MethodEntry.Declares ms methods := by
    intro ms methods
    rw [collect_eq_ok_iff]
    simp only [MethodEntry.method_eq_ok_iff]
  unfold InterfaceEntry.interface
  constructor
  · intro h
    split at h
    · cases h
    · rename_i requests hrequests
      split at h
      · cases h
      · rename_i events hevents
        cases h
        refine ⟨rfl, rfl, fun direction => ?_⟩
        cases direction with
        | request => exact hmethods.1 hrequests
        | event => exact hmethods.1 hevents
  · intro h
    have hrequests := hmethods.2 (h.methods .request)
    have hevents := hmethods.2 (h.methods .event)
    unfold InterfaceEntry.methods Interface.methods at hrequests hevents
    rw [hrequests, hevents, ← h.name_eq, ← h.version_eq]

theorem InterfaceEntry.interface_eq_error_iff (i : InterfaceEntry) (e : DescriptionError) :
    i.interface = .error e ↔ i.faults.head? = some e := by
  have hmethods : ∀ {ms : List MethodEntry} {e : DescriptionError},
      collect (·.method i.name) ms = .error e ↔ (ms.flatMap (·.faults i.name)).head? = some e :=
    collect_eq_error_iff MethodEntry.method_eq_error_iff
  unfold InterfaceEntry.interface faults
  rw [List.flatMap_append, List.head?_append]
  cases hrequests : collect (·.method i.name) i.requests with
  | error e' =>
    rw [hmethods.1 hrequests, Option.some_or, Except.error.injEq, Option.some.injEq]
  | ok requests =>
    rw [head?_eq_none_of_ok (fun _ => hmethods) hrequests, Option.none_or, ← hmethods]
    dsimp only
    cases collect (·.method i.name) i.events with
    | error e' =>
      dsimp only
      rw [Except.error.injEq, Except.error.injEq]
    | ok events => simp

theorem Description.interfaces_eq_ok_iff {d : Description} {is : List Interface} :
    d.interfaces = .ok is ↔ List.Forall₂ InterfaceEntry.Declares d.entries is := by
  unfold interfaces
  rw [collect_eq_ok_iff]
  simp only [InterfaceEntry.interface_eq_ok_iff]

theorem Description.interfaces_eq_error_iff {d : Description} {e : DescriptionError} :
    d.interfaces = .error e ↔ d.faults.head? = some e :=
  collect_eq_error_iff InterfaceEntry.interface_eq_error_iff

theorem Description.exists_interfaces_iff {d : Description} : (∃ is, d.interfaces = .ok is) ↔ d.WellFormed := by
  rw [← faults_eq_nil_iff, ← List.head?_eq_none_iff]
  cases h : d.interfaces with
  | error e => simp [interfaces_eq_error_iff.1 h]
  | ok is =>
    exact ⟨fun _ => head?_eq_none_of_ok (fun _ => interfaces_eq_error_iff) h, fun _ => ⟨is, rfl⟩⟩

end Compositor.Protocol
