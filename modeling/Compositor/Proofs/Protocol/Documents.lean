import Compositor.Proofs.Protocol.Declarations

/-
  Descriptions as documents.

  The entries of a description are the elements of a document, and `Lists` says which: of the elements with one
  name that an element holds, in the order of the document and whatever stands between them.  Requests and events
  may be mixed at will, since each direction is counted by itself (`Places`).

  With what the entries declare, this gives what a text comes to that can be read at all: `interprets_of_ofText`.
-/

namespace Compositor.Protocol

open Compositor.Markup (Node Element Scope)

/-! ## Place by place -/

/-- What two lists have at any place corresponds, if the lists do. -/
theorem rel_getElem?_of_forall₂ {α β : Type} {R : α → β → Prop} {as : List α} {bs : List β}
    (h : List.Forall₂ R as bs) : ∀ n : Nat, Option.Rel R as[n]? bs[n]? := by
  induction h with
  | nil => exact fun _ => .none
  | cons hab _ ih =>
    intro n
    cases n with
    | zero => exact .some hab
    | succ n => exact ih n

theorem forall₂_trans {α β γ : Type} {R : α → β → Prop} {S : β → γ → Prop} {T : α → γ → Prop}
    (htrans : ∀ a b c, R a b → S b c → T a c) {as : List α} {bs : List β} (hab : List.Forall₂ R as bs) :
    ∀ {cs : List γ}, List.Forall₂ S bs cs → List.Forall₂ T as cs := by
  induction hab with
  | nil =>
    intro cs hbc
    cases hbc
    exact .nil
  | cons ha _ ih =>
    intro cs hbc
    cases hbc with
    | cons hb hrest => exact .cons (htrans _ _ _ ha hb) (ih hrest)

/-! ## Document order -/

/-- The element that a node is, if it has a given name, whatever its prefix. -/
def elementNamed? (name : String) : Node → Option Element
  | .element n attributes content =>
    if Markup.localName n = name.toList then some ⟨n, attributes, content⟩ else none
  | .text _ | .data _ | .documentType => none

/-- The elements with a given name that an element holds, in document order and whatever stands between them. -/
def childrenNamed (name : String) (e : Element) : List Element := e.content.filterMap (elementNamed? name)

/-- Elements with a given name are listed, whatever their prefix. -/
def Shape.ListsNamed (shape : Shape) (name : String) : Prop :=
  ∀ n, Markup.localName n = name.toList → shape.role n = .listed

theorem Shape.listsNamed_of_mem {shape : Shape} {name : String} (hmem : name ∈ shape.lists)
    (hplain : name.toList.head? ≠ some '@') : shape.ListsNamed name := by
  intro n hn
  unfold role
  rw [hn]
  split
  · rename_i heq
    rw [heq] at hplain
    exact absurd rfl hplain
  · rw [String.ofList_toList, List.contains_iff_mem.2 hmem, if_pos rfl]

section
variable {shape : Shape} {name : String} {scope : Scope} {isNil : Bool}

/-- Of the elements that are listed, those with a given name. -/
def Parts.withName (parts : Parts) (name : String) : List Element :=
  parts.listed.filter fun e => Markup.localName e.name == name.toList

theorem Parts.withName_cons (hname : shape.ListsNamed name) (n attributes : List Char) (content : List Node)
    (parts : Parts) : (Parts.cons scope isNil (shape.role n) ⟨n, attributes, content⟩ parts).withName name =
      (elementNamed? name (.element n attributes content)).toList ++ parts.withName name := by
  by_cases hn : Markup.localName n = name.toList
  · rw [hname n hn]
    simp [Parts.cons, withName, elementNamed?, hn]
  · cases shape.role n with
    | field | other => simp [Parts.cons, withName, elementNamed?, hn]
    | listed => simp [Parts.cons, withName, elementNamed?, hn]

theorem withName_of_laterParts? (hname : shape.ListsNamed name) {first : List Char} {content : List Node} :
    ∀ {parts : Parts}, laterParts? shape scope isNil first content = some parts →
      parts.withName name = content.filterMap (elementNamed? name) := by
  induction content with
  | nil =>
    intro parts h
    cases h
    rfl
  | cons node ns ih =>
    intro parts h
    cases node with
    | element n attributes content =>
      rw [laterParts?] at h
      split at h
      · obtain ⟨rest, hrest, rfl⟩ := Option.map_eq_some_iff.1 h
        rw [Parts.withName_cons hname, ih hrest, List.filterMap_cons]
        cases elementNamed? name (.element n attributes content) <;> rfl
      · cases h
    | text raw =>
      rw [laterParts?] at h
      split at h
      · exact ih h
      · cases h
    | data raw =>
      rw [laterParts?] at h
      cases h
    | documentType =>
      rw [laterParts?] at h
      exact ih h

theorem withName_of_partsOf? (hname : shape.ListsNamed name) {content : List Node} :
    ∀ {parts : Parts}, partsOf? shape scope isNil content = some parts →
      parts.withName name = content.filterMap (elementNamed? name) := by
  induction content with
  | nil =>
    intro parts h
    cases h
    rfl
  | cons node ns ih =>
    intro parts h
    cases node with
    | element n attributes content =>
      rw [partsOf?] at h
      obtain ⟨rest, hrest, rfl⟩ := Option.map_eq_some_iff.1 h
      have htail : rest.withName name = ns.filterMap (elementNamed? name) := by
        split at hrest
        · exact withName_of_laterParts? hname hrest
        · split at hrest
          · exact ih hrest
          · cases hrest
        · split at hrest
          · exact ih hrest
          · cases hrest
      rw [Parts.withName_cons hname, htail, List.filterMap_cons]
      cases elementNamed? name (.element n attributes content) <;> rfl
    | text raw =>
      rw [partsOf?] at h
      split at h
      · exact ih h
      · cases h
    | data raw | documentType =>
      rw [partsOf?] at h
      exact ih h

theorem withName_of_parts? (hname : shape.ListsNamed name) {e : Element} {parts : Parts}
    (h : parts? shape scope e = some parts) : parts.withName name = childrenNamed name e := by
  unfold parts? at h
  obtain ⟨_, -, h⟩ := Option.bind_eq_some_iff.1 h
  obtain ⟨attributes, -, h⟩ := Option.bind_eq_some_iff.1 h
  obtain ⟨inner, hinner, h⟩ := Option.bind_eq_some_iff.1 h
  cases h
  exact (withName_of_partsOf? hname hinner : inner.withName name = _)

theorem eq_withName_of_named? {parts : Parts} {es : List Element} (h : parts.named? name = some es) :
    es = parts.withName name := by
  unfold Parts.named? at h
  unfold Parts.withName
  split at h
  · rename_i hnil
    cases h
    rw [hnil]
  · rename_i e rest hcons
    split at h
    · cases h
      rw [hcons]
    · cases h

end

/-- Reading a list of elements is reading each of them. -/
theorem mapM_eq_some_iff {α β : Type} {read? : α → Option β} {as : List α} : ∀ {bs : List β},
    as.mapM read? = some bs ↔ List.Forall₂ (fun a b => read? a = some b) as bs := by
  induction as with
  | nil =>
    intro bs
    rw [List.mapM_nil, List.forall₂_nil_left_iff]
    exact ⟨fun h => (Option.some.inj h).symm, fun h => h ▸ rfl⟩
  | cons a as ih =>
    intro bs
    rw [List.mapM_cons, List.forall₂_cons_left_iff]
    simp only [Option.bind_eq_bind, Option.bind_eq_some_iff, ih]
    constructor
    · rintro ⟨b, ha, bs', hrest, h⟩
      cases h
      exact ⟨b, bs', ha, hrest, rfl⟩
    · rintro ⟨b, bs', ha, hrest, rfl⟩
      exact ⟨b, ha, bs', hrest, rfl⟩

/-- What is read of listed elements with one name is read of the children with that name, in their order. -/
theorem forall₂_of_named? {α : Type} {read? : Element → Option α} {shape : Shape} {name : String} {scope : Scope}
    {e : Element} {parts : Parts} {es : List Element} {as : List α} (hname : shape.ListsNamed name)
    (hparts : parts? shape scope e = some parts) (hnamed : parts.named? name = some es)
    (hread : es.mapM read? = some as) :
    List.Forall₂ (fun child a => read? child = some a) (childrenNamed name e) as := by
  rw [← withName_of_parts? hname hparts, ← eq_withName_of_named? hnamed]
  exact mapM_eq_some_iff.1 hread

/-- A method was read of an element, and its arguments of the `arg` elements in there. -/
structure MethodEntry.Lists (scope : Scope) (e : Element) (m : MethodEntry) : Prop where
  read : methodEntry? scope e = some m
  args : List.Forall₂ (fun child a => argEntry? (scope.enter e.attributes) child = some a)
    (childrenNamed "arg" e) m.args

/-- An interface was read of an element, its requests of the `request` elements in there and its events of the
`event` elements. -/
structure InterfaceEntry.Lists (scope : Scope) (e : Element) (i : InterfaceEntry) : Prop where
  read : interfaceEntry? scope e = some i
  methods : ∀ direction : Direction, List.Forall₂ (MethodEntry.Lists (scope.enter e.attributes))
    (childrenNamed direction.name e) (i.methods direction)

/-- A description was read of a root element, and its interfaces of the `interface` elements in there. -/
structure Description.Lists (root : Element) (d : Description) : Prop where
  read : description? root = some d
  entries : List.Forall₂ (InterfaceEntry.Lists (Scope.enter [] root.attributes))
    (childrenNamed "interface" root) d.entries

theorem MethodEntry.lists_of_read {scope : Scope} {e : Element} {m : MethodEntry}
    (h : methodEntry? scope e = some m) : MethodEntry.Lists scope e m := by
  refine ⟨h, ?_⟩
  unfold methodEntry? at h
  simp only [Option.bind_eq_bind, Option.bind_eq_some_iff] at h
  obtain ⟨parts, hparts, _, _, _, _, _, _, _, _, _, _, _, _, es, hnamed, args, hread, h⟩ := h
  cases h
  have hname : Shape.ListsNamed ⟨["name", "type", "since"], ["arg"]⟩ "arg" :=
    Shape.listsNamed_of_mem (by simp) (by decide)
  exact forall₂_of_named? hname hparts hnamed hread

theorem InterfaceEntry.lists_of_read {scope : Scope} {e : Element} {i : InterfaceEntry}
    (h : interfaceEntry? scope e = some i) : InterfaceEntry.Lists scope e i := by
  refine ⟨h, ?_⟩
  unfold interfaceEntry? at h
  simp only [Option.bind_eq_bind, Option.bind_eq_some_iff] at h
  obtain ⟨parts, hparts, _, _, _, _, _, _, _, _, res, hrequests, requests, hreadRequests, ees, hevents, events,
    hreadEvents, h⟩ := h
  cases h
  intro direction
  cases direction with
  | request =>
    have hname : Shape.ListsNamed ⟨["name", "version"], ["request", "event"]⟩ "request" :=
      Shape.listsNamed_of_mem (by simp) (by decide)
    exact (forall₂_of_named? hname hparts hrequests hreadRequests).imp fun _ _ => MethodEntry.lists_of_read
  | event =>
    have hname : Shape.ListsNamed ⟨["name", "version"], ["request", "event"]⟩ "event" :=
      Shape.listsNamed_of_mem (by simp) (by decide)
    exact (forall₂_of_named? hname hparts hevents hreadEvents).imp fun _ _ => MethodEntry.lists_of_read

theorem Description.lists_of_read {root : Element} {d : Description} (h : description? root = some d) :
    d.Lists root := by
  refine ⟨h, ?_⟩
  unfold description? at h
  simp only [Option.bind_eq_bind, Option.bind_eq_some_iff] at h
  obtain ⟨parts, hparts, _, _, _, _, es, hnamed, entries, hread, h⟩ := h
  cases h
  have hname : Shape.ListsNamed ⟨["name"], ["interface"]⟩ "interface" :=
    Shape.listsNamed_of_mem (by simp) (by decide)
  exact (forall₂_of_named? hname hparts hnamed hread).imp fun _ _ => InterfaceEntry.lists_of_read

/-! ## Texts -/

/-- An opcode of an interface that was read of an element goes to the method that is declared at that place among
the elements of its direction, whatever stands between them. -/
def Places (scope : Scope) (e : Element) (i : Interface) : Prop :=
  ∀ (direction : Direction) (opcode : UInt16),
    Option.Rel
      (fun child method => ∃ m, methodEntry? (scope.enter e.attributes) child = some m ∧ m.Declares method)
      (childrenNamed direction.name e)[opcode.toNat]? (i.method? direction opcode)

/-- What the text of a description comes to, whose root element was read as `d`. -/
structure Interprets (text : String) (root : Element) (d : Description) : Prop where
  /-- The entries are the elements of the document, in its order. -/
  listed : d.Lists root
  /-- There are definitions exactly if every type and every nullability is one of those that there are. -/
  accepted : (∃ is, (Source.description text).definitions = .ok is) ↔ d.WellFormed
  /-- They are what the entries declare. -/
  declared : ∀ is, (Source.description text).definitions = .ok is ↔
    List.Forall₂ InterfaceEntry.Declares d.entries is
  /-- The methods have the opcodes that go by their place in the document. -/
  placed : ∀ is, (Source.description text).definitions = .ok is →
    List.Forall₂ (Places (Scope.enter [] root.attributes)) (childrenNamed "interface" root) is
  /-- The error is the first fault. -/
  refused : ∀ e, (Source.description text).definitions = .error e ↔
    ∃ fault, d.faults.head? = some fault ∧ e = .description fault

theorem InterfaceEntry.Lists.places {scope : Scope} {e : Element} {entry : InterfaceEntry} {i : Interface}
    (hlists : entry.Lists scope e) (hdeclares : entry.Declares i) : Places scope e i := by
  intro direction opcode
  have hmethods : List.Forall₂
      (fun child method => ∃ m, methodEntry? (scope.enter e.attributes) child = some m ∧ m.Declares method)
      (childrenNamed direction.name e) (i.methods direction) :=
    forall₂_trans (fun _ m _ hread hdeclares => ⟨m, hread.read, hdeclares⟩) (hlists.methods direction)
      (hdeclares.methods direction)
  exact rel_getElem?_of_forall₂ hmethods opcode.toNat

theorem Source.definitions_eq_ok_iff {text : String} {d : Description} (h : Description.ofText text = .ok d)
    {is : List Interface} : (Source.description text).definitions = .ok is ↔ d.interfaces = .ok is := by
  rw [definitions, h]
  dsimp only
  cases d.interfaces with
  | error e => simp
  | ok is' => simp

theorem Source.definitions_eq_error_iff {text : String} {d : Description} (h : Description.ofText text = .ok d)
    {e : Error} : (Source.description text).definitions = .error e ↔
      ∃ fault, d.interfaces = .error fault ∧ e = .description fault := by
  rw [definitions, h]
  dsimp only
  cases d.interfaces with
  | error e' => simp [eq_comm]
  | ok is => simp

/-- What the text of a description comes to, for all texts that can be read. -/
theorem interprets_of_ofText {text : String} {d : Description} (h : Description.ofText text = .ok d) :
    ∃ root, Element.ofText? text = some root ∧ Interprets text root d := by
  obtain ⟨root, hroot, hread⟩ : ∃ root, Element.ofText? text = some root ∧ description? root = some d := by
    unfold Description.ofText at h
    split at h
    · rename_i d' hd
      cases h
      exact Option.bind_eq_some_iff.1 hd
    · cases h
  have hlists := Description.lists_of_read hread
  have hok : ∀ is, (Source.description text).definitions = .ok is ↔
      List.Forall₂ InterfaceEntry.Declares d.entries is := fun is =>
    (Source.definitions_eq_ok_iff h).trans Description.interfaces_eq_ok_iff
  refine ⟨root, hroot, hlists, ?_, hok, fun is his => ?_, fun e => ?_⟩
  · simp only [Source.definitions_eq_ok_iff h]
    exact Description.exists_interfaces_iff
  · exact forall₂_trans (fun _ _ _ hlists hdeclares => hlists.places hdeclares) hlists.entries ((hok is).1 his)
  · rw [Source.definitions_eq_error_iff h]
    simp only [Description.interfaces_eq_error_iff]

/-- A description in which an event stands between two requests. -/
def interleavedText : String :=
  "<protocol name=\"p\"><interface name=\"a\" version=\"2\"><request name=\"r\" type=\"destructor\"/>" ++
    "<event name=\"e\"/><request name=\"s\" since=\"2\"><arg name=\"x\" type=\"int\"/></request>" ++
    "</interface></protocol>"

def interleaved : Description :=
  ⟨"p", [⟨"a", 2, [⟨"r", some "destructor", none, []⟩, ⟨"s", none, some 2, [⟨"x", "int", none, none⟩]⟩],
    [⟨"e", none, none, []⟩]⟩]⟩

theorem interprets_of_ofText_sample : Description.ofText interleavedText = .ok interleaved ∧
    ∃ root, Element.ofText? interleavedText = some root ∧ Interprets interleavedText root interleaved := by
  have hread : Description.ofText interleavedText = .ok interleaved := by decide +kernel
  exact ⟨hread, interprets_of_ofText hread⟩

end Compositor.Protocol
