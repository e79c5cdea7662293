import Compositor.Proofs.Object.Consistency
import Compositor.Proofs.Session.Orderly

/-
  Valid requests, and the faults of the others.

  A request is checked step by step, and the first step that finds something wrong decides how it is refused.
  Here the steps are stated without the code: `Valid` is what all of them ask for, and `FirstFault` what one
  of them finds while those before it find nothing.  Every request is valid or has a first fault
  (`valid_or_firstFault`), it is accepted in the one case (`exists_prepared`), and refused for that fault in
  the other (`accept_of_firstFault`); so the code checks this, in this order, and nothing else.

  One fault is found only when a valid request is about to be handled: its target has no implementation, and
  the request is no destructor.
-/

namespace Compositor.Sessions

open Compositor.Wire (Arg Message ObjectId Param)
open Compositor.Objects (Handle Object Table TableError)
open Compositor.Protocol

namespace Connection

/-! ## Objects that arguments name -/

section
variable {α : Type} {table : Table α} {index : Nat} {p : Param} {arg : Arg} {v : Violation}

/-- The violation of using an id that is not live; the table may know that it was. -/
def absence (table : Table α) (id : ObjectId) : Violation :=
  if table.isStale id then .wire (.staleObject id.raw) else .wire (.unknownObject id.raw)

theorem get_of_not_contains {id : ObjectId} (h : table.contains id = false) :
    table.get id = .error (table.missing id) := by
  unfold Table.get
  rw [Table.contains_eq_false_iff.1 h]

theorem ofLookup_missing (table : Table α) (id : ObjectId) :
    Violation.ofLookup (table.missing id) = absence table id := by
  unfold Table.missing absence
  split
  · rfl
  · rfl

/-- An id is live or not. -/
theorem exists_get_or_not_contains (table : Table α) (id : ObjectId) :
    (∃ o, table.get id = .ok o) ∨ table.contains id = false := by
  unfold Table.get Table.contains
  cases table.objects.get? id with
  | some o => exact .inl ⟨o, rfl⟩
  | none => exact .inr rfl

/-- If the argument names an object, it is live, and of the interface that the parameter declares, if it
declares one. -/
def Names (table : Table α) (p : Param) (arg : Arg) : Prop :=
  ∀ id, arg = .object (some id) → ∃ o, table.get id = .ok o ∧
    ∀ expected, p.interface = some expected → o.interface.name = expected

/-- The argument at a position names an object that is not there, or not of the declared interface. -/
inductive Misnames (table : Table α) (index : Nat) (p : Param) : Arg → Violation → Prop where
  | missing {id : ObjectId} : table.contains id = false →
      Misnames table index p (.object (some id)) (absence table id)
  | other {id : ObjectId} {o : Object α} {expected : String} : table.get id = .ok o →
      p.interface = some expected → o.interface.name ≠ expected →
        Misnames table index p (.object (some id)) (.interfaceMismatch index expected o.interface.name)

theorem names_or_misnames (table : Table α) (index : Nat) (p : Param) (arg : Arg) :
    Names table p arg ∨ ∃ v, Misnames table index p arg v := by
  by_cases hobject : ∃ id, arg = .object (some id)
  · obtain ⟨id, rfl⟩ := hobject
    rcases exists_get_or_not_contains table id with ⟨o, hget⟩ | hgone
    · by_cases hinterface : ∀ expected, p.interface = some expected → o.interface.name = expected
      · left
        intro id' heq
        cases heq
        exact ⟨o, hget, hinterface⟩
      · right
        obtain ⟨expected, hother⟩ := Classical.not_forall.1 hinterface
        obtain ⟨hp, hne⟩ := Classical.not_imp.1 hother
        exact ⟨_, .other hget hp hne⟩
    · exact .inr ⟨_, .missing hgone⟩
  · exact .inl fun id heq => absurd ⟨id, heq⟩ hobject

/-- The first argument is passed over if it names what it should. -/
theorem objectFault?_cons_of_names (h : Names table p arg) (index : Nat) (ps : List Param) (as : List Arg) :
    objectFault? table index (p :: ps) (arg :: as) = objectFault? table (index + 1) ps as := by
  cases arg with
  | object id =>
    cases id with
    | none => rfl
    | some id =>
      obtain ⟨o, hget, hinterface⟩ := h id rfl
      rw [objectFault?, hget]
      dsimp only
      cases hp : p.interface with
      | none => rfl
      | some expected => exact if_pos (hinterface expected hp)
  | _ => rfl

/-- The first argument decides if it does not. -/
theorem objectFault?_cons_of_misnames (h : Misnames table index p arg v) (ps : List Param) (as : List Arg) :
    objectFault? table index (p :: ps) (arg :: as) = some v := by
  cases h with
  | @missing id hgone =>
    rw [objectFault?, get_of_not_contains hgone]
    exact congrArg some (ofLookup_missing table id)
  | other hget hp hne =>
    rw [objectFault?, hget]
    dsimp only
    rw [hp]
    exact if_neg hne

/-- Some argument is the first to name a wrong object. -/
def FirstMisnamed (table : Table α) (index : Nat) (params : List Param) (args : List Arg)
    (v : Violation) : Prop :=
  ∃ before p arg after, params.zip args = before ++ (p, arg) :: after ∧
    (∀ e ∈ before, Names table e.1 e.2) ∧ Misnames table (index + before.length) p arg v

theorem objectFault?_of_names {ps : List Param} : ∀ {as : List Arg} {index : Nat},
    (∀ e ∈ ps.zip as, Names table e.1 e.2) → objectFault? table index ps as = none := by
  induction ps with
  | nil =>
    intro as index _
    rfl
  | cons q qs ih =>
    intro as index h
    cases as with
    | nil => rfl
    | cons a as =>
      rw [List.zip_cons_cons, List.forall_mem_cons] at h
      rw [objectFault?_cons_of_names h.1]
      exact ih h.2

theorem objectFault?_of_firstMisnamed {ps : List Param} : ∀ {as : List Arg} {index : Nat},
    FirstMisnamed table index ps as v → objectFault? table index ps as = some v := by
  induction ps with
  | nil =>
    rintro as index ⟨before, p, arg, after, hzip, -⟩
    exact absurd hzip.symm (List.append_ne_nil_of_right_ne_nil _ (List.cons_ne_nil _ _))
  | cons q qs ih =>
    rintro as index ⟨before, p, arg, after, hzip, hbefore, hmisnames⟩
    cases as with
    | nil => exact absurd hzip.symm (List.append_ne_nil_of_right_ne_nil _ (List.cons_ne_nil _ _))
    | cons a as =>
      rw [List.zip_cons_cons] at hzip
      cases before with
      | nil =>
        rw [List.nil_append, List.cons.injEq, Prod.mk.injEq] at hzip
        obtain ⟨⟨rfl, rfl⟩, -⟩ := hzip
        exact objectFault?_cons_of_misnames hmisnames qs as
      | cons e before =>
        -- what is found further on is found at the same position of the whole
        rw [List.cons_append, List.cons.injEq] at hzip
        obtain ⟨rfl, hzip⟩ := hzip
        rw [List.forall_mem_cons] at hbefore
        rw [objectFault?_cons_of_names hbefore.1]
        refine ih ⟨before, p, arg, after, hzip, hbefore.2, ?_⟩
        rw [Nat.add_assoc, Nat.add_comm 1]
        exact hmisnames

theorem names_or_firstMisnamed {ps : List Param} : ∀ {as : List Arg} {index : Nat},
    (∀ e ∈ ps.zip as, Names table e.1 e.2) ∨ ∃ v, FirstMisnamed table index ps as v := by
  induction ps with
  | nil =>
    intro as index
    exact .inl (List.forall_mem_nil _)
  | cons q qs ih =>
    intro as index
    cases as with
    | nil => exact .inl (List.forall_mem_nil _)
    | cons a as =>
      rcases names_or_misnames table index q a with hnames | ⟨v, hmisnames⟩
      · rcases @ih as (index + 1) with hall | ⟨v, before, p, arg, after, hzip, hbefore, hfirst⟩
        · exact .inl (List.forall_mem_cons.2 ⟨hnames, hall⟩)
        · refine .inr ⟨v, (q, a) :: before, p, arg, after, congrArg _ hzip,
            List.forall_mem_cons.2 ⟨hnames, hbefore⟩, ?_⟩
          rw [List.length_cons, Nat.add_comm before.length, ← Nat.add_assoc]
          exact hfirst
      · exact .inr ⟨v, [], q, a, qs.zip as, rfl, List.forall_mem_nil _, hmisnames⟩

end

/-! ## The object that a request creates -/

/-- The first new id of a signature, and its argument. -/
def NewIdOf (params : List Param) (args : List Arg) (p : Param) (arg : Arg) : Prop :=
  ∃ before after, params.zip args = before ++ (p, arg) :: after ∧ (∀ e ∈ before, e.1.kind ≠ .newId) ∧
    p.kind = .newId

theorem newIdOf_iff {ps : List Param} {p : Param} {arg : Arg} : ∀ {as : List Arg} (index : Nat),
    NewIdOf ps as p arg ↔ ∃ i, creation? index ps as = some (i, p, arg) := by
  have hnil : ∀ {before after : List (Param × Arg)} {e}, [] ≠ before ++ e :: after := fun h =>
    absurd h.symm (List.append_ne_nil_of_right_ne_nil _ (List.cons_ne_nil _ _))
  induction ps with
  | nil =>
    intro as index
    constructor
    · rintro ⟨before, after, hzip, -⟩
      exact absurd hzip hnil
    · rintro ⟨i, h⟩
      cases h
  | cons q qs ih =>
    intro as index
    cases as with
    | nil =>
      constructor
      · rintro ⟨before, after, hzip, -⟩
        exact absurd hzip hnil
      · rintro ⟨i, h⟩
        cases h
    | cons a as =>
      unfold NewIdOf creation?
      rw [List.zip_cons_cons]
      by_cases hq : q.kind = .newId
      · -- the first parameter is the one
        rw [if_pos hq]
        constructor
        · rintro ⟨before, after, hzip, hbefore, -⟩
          cases before with
          | nil =>
            rw [List.nil_append, List.cons.injEq, Prod.mk.injEq] at hzip
            obtain ⟨⟨rfl, rfl⟩, -⟩ := hzip
            exact ⟨index, rfl⟩
          | cons e before =>
            rw [List.cons_append, List.cons.injEq] at hzip
            obtain ⟨rfl, -⟩ := hzip
            exact absurd hq (hbefore _ (List.mem_cons_self ..))
        · rintro ⟨i, h⟩
          injection h with h
          injection h with _ h
          injection h with hp harg
          subst hp harg
          exact ⟨[], qs.zip as, rfl, List.forall_mem_nil _, hq⟩
      · rw [if_neg hq, ← ih (index + 1)]
        constructor
        · rintro ⟨before, after, hzip, hbefore, hp⟩
          cases before with
          | nil =>
            rw [List.nil_append, List.cons.injEq, Prod.mk.injEq] at hzip
            obtain ⟨⟨rfl, -⟩, -⟩ := hzip
            exact absurd hp hq
          | cons e before =>
            rw [List.cons_append, List.cons.injEq] at hzip
            exact ⟨before, after, hzip.2, (List.forall_mem_cons.1 hbefore).2, hp⟩
        · rintro ⟨before, after, hzip, hbefore, hp⟩
          exact ⟨(q, a) :: before, after, congrArg _ hzip, List.forall_mem_cons.2 ⟨hq, hbefore⟩, hp⟩

theorem newIdOf_unique {params : List Param} {args : List Arg} {p p' : Param} {arg arg' : Arg}
    (h : NewIdOf params args p arg) (h' : NewIdOf params args p' arg') : p' = p ∧ arg' = arg := by
  obtain ⟨i, hcreation⟩ := (newIdOf_iff 0).1 h
  obtain ⟨i', hcreation'⟩ := (newIdOf_iff 0).1 h'
  rw [hcreation] at hcreation'
  cases hcreation'
  exact ⟨rfl, rfl⟩

/-- The version of an object that is created without naming one: its parent's, as far as its interface
has it. -/
def inheritedVersion (registry : Registry) (parentVersion : UInt32) (name : String) : UInt32 :=
  match registry.get? name with
  | some i => min parentVersion i.version
  | none => parentVersion

/-- A new id stands for an object of an interface and a version: a typed one for what its parameter says, a
generic one for what travels with it. -/
inductive Describes (registry : Registry) (parentVersion : UInt32) (p : Param) :
    Arg → String → UInt32 → ObjectId → Prop where
  | typed {name : String} {id : ObjectId} : p.interface = some name →
      Describes registry parentVersion p (.newId id) name
        (inheritedVersion registry parentVersion name) id
  | generic {name : String} {version : UInt32} {id : ObjectId} : p.interface = none →
      Describes registry parentVersion p (.genericNewId name version id) name version id

section
variable {registry : Registry} {parentVersion version : UInt32} {p : Param} {arg : Arg} {name : String}
  {id : ObjectId}

/-- The object that a new id describes is looked up in the registry. -/
theorem newObject_of_describes (h : Describes registry parentVersion p arg name version id) (index : Nat) :
    newObject registry parentVersion index p arg =
      match registry.lookup name version with
      | .error e => .error (.registry e)
      | .ok i => .ok (id, i, version) := by
  cases h with
  | typed hp =>
    have hversion : inheritedVersion registry parentVersion name = (match registry.get? name with
        | some i => if i.version < parentVersion then i.version else parentVersion
        | none => parentVersion) := by
      unfold inheritedVersion
      split
      · rename_i i _
        by_cases hlt : i.version < parentVersion
        · rw [if_pos hlt]
          exact if_neg (UInt32.not_le.2 hlt)
        · rw [if_neg hlt]
          exact if_pos (UInt32.not_lt.1 hlt)
      · rfl
    obtain ⟨_, _, _, _⟩ := p
    dsimp only at hp
    subst hp
    rw [hversion]
    rfl
  | generic hp =>
    obtain ⟨_, _, _, _⟩ := p
    dsimp only at hp
    subst hp
    rfl

/-- A new id that fits its parameter describes an object. -/
theorem exists_describes (registry : Registry) (parentVersion : UInt32) (hk : p.kind = .newId)
    (ha : p.Accepts arg) : ∃ name version id, Describes registry parentVersion p arg name version id := by
  have hkind := ha.kind_eq
  have hgeneric := ha.isGeneric_eq
  unfold Param.isGeneric at hgeneric
  rw [hk] at hkind hgeneric
  cases arg with
  | newId id =>
    cases hp : p.interface with
    | none =>
      rw [hp] at hgeneric
      cases hgeneric
    | some name => exact ⟨_, _, _, .typed hp⟩
  | genericNewId name version id =>
    cases hp : p.interface with
    | none => exact ⟨_, _, _, .generic hp⟩
    | some _ =>
      rw [hp] at hgeneric
      cases hgeneric
  | _ => cases hkind

theorem newId?_of_describes (h : Describes registry parentVersion p arg name version id) :
    arg.newId? = some id := by
  cases h with
  | typed _ => rfl
  | generic _ => rfl

end

/-! ## Ids for new objects -/

section
variable {α : Type} {table : Table α} {id : ObjectId}

/-- A client can use the id for a new object. -/
structure Usable (table : Table α) (id : ObjectId) : Prop where
  side : id.side = .client
  dead : table.contains id = false
  /-- Its last deletion, if it has been used before, is acknowledged. -/
  released : table.slot id ≠ some (.stale false)

/-- It is not the id of an object that is there. -/
theorem Usable.ne_of_get? (h : Usable table id) {x : ObjectId} {o : Object α}
    (hlive : table.objects.get? x = some o) : x ≠ id := by
  rintro rfl
  have hdead := Table.contains_eq_false_iff.1 h.dead
  rw [hlive] at hdead
  cases hdead

/-- Why a client cannot use an id. -/
inductive Unusable (table : Table α) (id : ObjectId) : TableError → Prop where
  | range : id.side ≠ .client → Unusable table id (.idOutOfRange id.raw .client)
  | live : id.side = .client → table.contains id = true → Unusable table id (.idInUse id)
  | waiting : id.side = .client → table.slot id = some (.stale false) → Unusable table id (.idNotReleased id)

theorem usable_or_unusable (table : Table α) (id : ObjectId) :
    Usable table id ∨ ∃ e, Unusable table id e := by
  by_cases hside : id.side = .client
  · cases hlive : table.contains id with
    | true => exact .inr ⟨_, .live hside hlive⟩
    | false =>
      by_cases hwaits : table.slot id = some (.stale false)
      · exact .inr ⟨_, .waiting hside hwaits⟩
      · exact .inl ⟨hside, hlive, hwaits⟩
  · exact .inr ⟨_, .range hside⟩

theorem insert_of_unusable {e : TableError} (h : Unusable table id e) (o : Object α) :
    table.insert .client id o = .error e := by
  have hrefusal : table.refusal? .client id = some e := by
    have hcontains := Wire.Side.contains_iff_side .client id
    unfold Table.refusal?
    cases h with
    | range hside =>
      have hout : Wire.Side.contains .client id.raw = false :=
        Bool.eq_false_iff.2 fun hin => hside (hcontains.1 hin)
      rw [hout]
      rfl
    | live hside hlive =>
      obtain ⟨o, hget⟩ := Option.isSome_iff_exists.1 hlive
      rw [hcontains.2 hside, Table.slot_eq_live_iff.2 hget]
      rfl
    | waiting hside hwaits =>
      rw [hcontains.2 hside, hwaits]
      rfl
  unfold Table.insert
  rw [hrefusal]

end

/-! ## Valid requests and their faults -/

section
variable {K : Kit}

/-- The target of a request is live, and its version has the request. -/
structure Addresses (c : Connection K) (m : Message) (target : Object (Implementation K.Handler))
    (method : Method) : Prop where
  live : c.table.get m.object = .ok target
  method_eq : target.interface.method? .request m.opcode = some method
  since : method.since ≤ target.version

/-- The arguments of a request fit as well, and those that name objects name what they should. -/
structure WellFormed (c : Connection K) (m : Message) (target : Object (Implementation K.Handler))
    (method : Method) : Prop extends Addresses c m target method where
  check_eq : method.signature.check m.args = .ok ()
  names : ∀ e ∈ method.signature.params.zip m.args, Names c.table e.1 e.2

/-- The request passes every check: the object that it creates, if any, is of an interface and a version that
the registry provides, and at an id that the client can use. -/
structure Valid (c : Connection K) (m : Message) (target : Object (Implementation K.Handler))
    (method : Method) : Prop extends WellFormed c m target method where
  creates : ∀ p arg, NewIdOf method.signature.params m.args p arg → ∃ name version id i,
    Describes c.registry target.version p arg name version id ∧ c.registry.lookup name version = .ok i ∧
      Usable c.table id

/-- The first check that a request fails, each with the checks before it passed. -/
inductive FirstFault (c : Connection K) (m : Message) : Violation → Prop where
  | target : c.table.contains m.object = false → FirstFault c m (absence c.table m.object)
  | opcode {target : Object (Implementation K.Handler)} : c.table.get m.object = .ok target →
      target.interface.method? .request m.opcode = none →
        FirstFault c m (.wire (.unknownOpcode target.interface.name m.opcode))
  | version {target : Object (Implementation K.Handler)} {method : Method} :
      c.table.get m.object = .ok target → target.interface.method? .request m.opcode = some method →
        target.version < method.since → FirstFault c m
          (.versionGated m.object target.interface.name method.name method.since target.version)
  | arguments {target : Object (Implementation K.Handler)} {method : Method} {e : Wire.Error} :
      c.Addresses m target method → method.signature.check m.args = .error e → FirstFault c m (.wire e)
  | object {target : Object (Implementation K.Handler)} {method : Method} {v : Violation} :
      c.Addresses m target method → method.signature.check m.args = .ok () →
        FirstMisnamed c.table 0 method.signature.params m.args v → FirstFault c m v
  | interface {target : Object (Implementation K.Handler)} {method : Method} {p : Param} {arg : Arg}
      {name : String} {version : UInt32} {id : ObjectId} {e : Protocol.Error} :
      c.WellFormed m target method → NewIdOf method.signature.params m.args p arg →
        Describes c.registry target.version p arg name version id →
          c.registry.lookup name version = .error e → FirstFault c m (.registry e)
  | id {target : Object (Implementation K.Handler)} {method : Method} {p : Param} {arg : Arg}
      {name : String} {version : UInt32} {id : ObjectId} {i : Interface} {e : TableError} :
      c.WellFormed m target method → NewIdOf method.signature.params m.args p arg →
        Describes c.registry target.version p arg name version id →
          c.registry.lookup name version = .ok i → Unusable c.table id e → FirstFault c m (.table e)
  | implementation {target : Object (Implementation K.Handler)} {method : Method} :
      c.Valid m target method → target.implementation = none → method.destructor = false →
        FirstFault c m (.unimplemented m.object target.interface.name)

section
variable {c : Connection K} {m : Message} {v : Violation} {target : Object (Implementation K.Handler)}
  {method : Method}

/-- What is created is decided by the first new id. -/
theorem insertCreated_of_newIdOf {parentVersion version : UInt32} {params : List Param} {args : List Arg}
    {p : Param} {arg : Arg} {name : String} {id : ObjectId} (hnew : NewIdOf params args p arg)
    (hdescribes : Describes c.registry parentVersion p arg name version id) :
    c.insertCreated parentVersion params args =
      match c.registry.lookup name version with
      | .error e => .error (.registry e)
      | .ok i =>
        match c.table.insert .client id { interface := i, version } with
        | .error e => .error (.table e)
        | .ok (_, table) => .ok { c with table } := by
  obtain ⟨index, hcreation⟩ := (newIdOf_iff 0).1 hnew
  unfold insertCreated
  rw [hcreation]
  dsimp only
  rw [newObject_of_describes hdescribes]
  cases c.registry.lookup name version with
  | error e => rfl
  | ok i => rfl

/-- A well-formed request is accepted if its object can be inserted. -/
theorem accept_of_wellFormed (h : c.WellFormed m target method) : c.accept m =
    match c.insertCreated target.version method.signature.params m.args with
    | .error v => .error v
    | .ok connection => .ok ⟨target, method, connection⟩ := by
  unfold accept
  rw [h.live]
  dsimp only
  rw [h.method_eq]
  dsimp only
  rw [if_neg (UInt32.not_lt.2 h.since), h.check_eq]
  dsimp only
  cases c.insertCreated target.version method.signature.params m.args with
  | error v => rw [objectFault?_of_names h.names]
  | ok c' => rw [objectFault?_of_names h.names]

/-- A request without a target or with a method that it does not have is not accepted, and so on up to the
object that it creates. -/
theorem accept_of_firstFault (h : c.FirstFault m v) : c.accept m = .error v ∨
    ∃ target method, c.Valid m target method ∧ target.implementation = none ∧ method.destructor = false ∧
      v = .unimplemented m.object target.interface.name := by
  cases h with
  | target hgone =>
    left
    unfold accept
    rw [get_of_not_contains hgone]
    exact congrArg Except.error (ofLookup_missing c.table m.object)
  | opcode hlive hmethod =>
    left
    unfold accept
    rw [hlive]
    dsimp only
    rw [hmethod]
  | version hlive hmethod hversion =>
    left
    unfold accept
    rw [hlive]
    dsimp only
    rw [hmethod]
    exact if_pos hversion
  | arguments haddresses hcheck =>
    left
    unfold accept
    rw [haddresses.live]
    dsimp only
    rw [haddresses.method_eq]
    dsimp only
    rw [if_neg (UInt32.not_lt.2 haddresses.since), hcheck]
  | object haddresses hcheck hfirst =>
    left
    unfold accept
    rw [haddresses.live]
    dsimp only
    rw [haddresses.method_eq]
    dsimp only
    rw [if_neg (UInt32.not_lt.2 haddresses.since), hcheck]
    dsimp only
    rw [objectFault?_of_firstMisnamed hfirst]
  | interface hformed hnew hdescribes hlookup =>
    left
    rw [accept_of_wellFormed hformed, insertCreated_of_newIdOf hnew hdescribes, hlookup]
  | id hformed hnew hdescribes hlookup hunusable =>
    left
    rw [accept_of_wellFormed hformed, insertCreated_of_newIdOf hnew hdescribes, hlookup]
    dsimp only
    rw [insert_of_unusable hunusable]
  | implementation hvalid hunbound hstays => exact .inr ⟨_, _, hvalid, hunbound, hstays, rfl⟩

/-- A request passes the checks up to its arguments, or fails one of them. -/
theorem wellFormed_or_firstFault (c : Connection K) (m : Message) :
    (∃ target method, c.WellFormed m target method) ∨ ∃ v, c.FirstFault m v := by
  rcases exists_get_or_not_contains c.table m.object with ⟨target, hlive⟩ | hgone
  · cases hmethod : target.interface.method? .request m.opcode with
    | none => exact .inr ⟨_, .opcode hlive hmethod⟩
    | some method =>
      by_cases hversion : target.version < method.since
      · exact .inr ⟨_, .version hlive hmethod hversion⟩
      · have haddresses : c.Addresses m target method := ⟨hlive, hmethod, UInt32.not_lt.1 hversion⟩
        cases hcheck : method.signature.check m.args with
        | error e => exact .inr ⟨_, .arguments haddresses hcheck⟩
        | ok _ =>
          rcases names_or_firstMisnamed with hnames | ⟨v, hfirst⟩
          · exact .inl ⟨target, method, haddresses, hcheck, hnames⟩
          · exact .inr ⟨v, .object haddresses hcheck hfirst⟩
  · exact .inr ⟨_, .target hgone⟩

/-- A request is valid, or fails one of the checks. -/
theorem valid_or_firstFault (c : Connection K) (m : Message) :
    (∃ target method, c.Valid m target method) ∨ ∃ v, c.FirstFault m v := by
  rcases c.wellFormed_or_firstFault m with ⟨target, method, hformed⟩ | hfault
  · by_cases hnew : ∃ p arg, NewIdOf method.signature.params m.args p arg
    · obtain ⟨p, arg, hnew⟩ := hnew
      obtain ⟨index, hcreation⟩ := (newIdOf_iff 0).1 hnew
      -- the argument fits the signature, so it describes an object
      obtain ⟨hk, haccepts⟩ :=
        accepts_of_creation? ((Wire.Signature.check_eq_ok_iff _ _).1 hformed.check_eq) hcreation
      obtain ⟨name, version, id, hdescribes⟩ := exists_describes c.registry target.version hk haccepts
      cases hlookup : c.registry.lookup name version with
      | error e => exact .inr ⟨_, .interface hformed hnew hdescribes hlookup⟩
      | ok i =>
        rcases usable_or_unusable c.table id with husable | ⟨e, hunusable⟩
        · refine .inl ⟨target, method, hformed, fun p' arg' hnew' => ?_⟩
          obtain ⟨rfl, rfl⟩ := newIdOf_unique hnew hnew'
          exact ⟨name, version, id, i, hdescribes, hlookup, husable⟩
        · exact .inr ⟨_, .id hformed hnew hdescribes hlookup hunusable⟩
    · exact .inl ⟨target, method, hformed, fun p arg h => absurd ⟨p, arg, h⟩ hnew⟩
  · exact .inr hfault

/-- The connection in which the implementation of the target handles a valid request: the object that the
request creates is there, and apart from that the connection is as before. -/
structure Prepared (c : Connection K) (m : Message) (target : Object (Implementation K.Handler))
    (method : Method) (c₁ : Connection K) : Prop where
  /-- The target is without its implementation as long as this runs. -/
  lent : c₁.table.get m.object = .ok { target with implementation := none }
  created : ∀ p arg, NewIdOf method.signature.params m.args p arg → ∃ name version id i,
    Describes c.registry target.version p arg name version id ∧ c.registry.lookup name version = .ok i ∧
      c₁.table.get id = .ok ⟨i, version, c.table.nextGeneration, none⟩
  others : ∀ id, id ≠ m.object → createdId? method.signature.params m.args ≠ some id →
    c₁.table.objects.get? id = c.table.objects.get? id
  rest : c₁ = { c with table := c₁.table }

theorem get_modify_of_get {t : Table (Implementation K.Handler)} {id : ObjectId}
    (hget : t.get id = .ok target) {f : Object (Implementation K.Handler) → Object (Implementation K.Handler)} :
    (t.modify id f).get id = .ok (f target) := by
  rw [Table.get_eq_ok_iff_get?, Table.get?_modify, if_pos rfl, Table.get_eq_ok_iff_get?.1 hget]
  rfl

/-- A valid request is accepted, and its target lends its implementation. -/
theorem exists_prepared (h : c.Valid m target method) : ∃ c', c.accept m = .ok ⟨target, method, c'⟩ ∧
    ∃ c₁, c'.takeImplementation m.object = (target.implementation, c₁) ∧ c.Prepared m target method c₁ := by
  have haccepted := accept_of_wellFormed h.toWellFormed
  by_cases hnew : ∃ p arg, NewIdOf method.signature.params m.args p arg
  · obtain ⟨p, arg, hnew⟩ := hnew
    obtain ⟨name, version, id, i, hdescribes, hlookup, husable⟩ := h.creates p arg hnew
    obtain ⟨handle, table, hinsert⟩ := Table.insert_of_not_waiting husable.side husable.dead
      husable.released { interface := i, version }
    rw [insertCreated_of_newIdOf hnew hdescribes, hlookup] at haccepted
    dsimp only at haccepted
    rw [hinsert] at haccepted
    have hget := get_of_accept haccepted
    have hid : id ≠ m.object := (husable.ne_of_get? (Table.get_eq_ok_iff_get?.1 h.live)).symm
    refine ⟨_, haccepted, _, takeImplementation_of_get hget, get_modify_of_get hget, fun p' arg' hnew' => ?_,
      fun other hother hcreated => ?_, rfl⟩
    · obtain ⟨rfl, rfl⟩ := newIdOf_unique hnew hnew'
      refine ⟨name, version, id, i, hdescribes, hlookup, ?_⟩
      dsimp only
      rw [Table.get_eq_ok_iff_get?, Table.get?_modify, if_neg hid,
        Table.objects_insert hinsert, Objects.Directory.get?_put, if_pos rfl]
    · have hne : other ≠ id := by
        rintro rfl
        obtain ⟨index, hcreation⟩ := (newIdOf_iff 0).1 hnew
        refine hcreated ?_
        unfold createdId?
        rw [hcreation]
        exact newId?_of_describes hdescribes
      dsimp only
      rw [Table.get?_modify, if_neg hother, Table.objects_insert hinsert, Objects.Directory.get?_put,
        if_neg hne]
  · have hcreation : creation? 0 method.signature.params m.args = none := by
      cases hcreation : creation? 0 method.signature.params m.args with
      | none => rfl
      | some r => exact absurd ⟨r.2.1, r.2.2, (newIdOf_iff 0).2 ⟨r.1, hcreation⟩⟩ hnew
    unfold insertCreated at haccepted
    rw [hcreation] at haccepted
    dsimp only at haccepted
    refine ⟨_, haccepted, _, takeImplementation_of_get h.live, get_modify_of_get h.live,
      fun p arg hnew' => absurd ⟨p, arg, hnew'⟩ hnew, fun other hother _ => ?_, rfl⟩
    dsimp only
    rw [Table.get?_modify, if_neg hother]

end

end

end Connection

end Compositor.Sessions
