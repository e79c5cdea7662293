import Compositor.Markup.Content
import Compositor.Protocol.Description
import Compositor.Protocol.Registry

/-
  Reading protocol descriptions, and registries from several sources.

  A description is markup: a root element of any name lists `interface` elements, these list `request`
  and `event` elements, and these list `arg` elements.  A field of an element is an attribute, or an
  element in it whose name is that of the attribute after an `@`.  Other attributes and elements are
  skipped.  Text is skipped before the first listed element and not allowed after it.
-/

namespace Compositor.Protocol

open Compositor.Markup (Node Element Attribute Scope)

/-! ## Fields -/

/-- A value as it is written. -/
inductive Value where
  | attribute (raw : List Char)
  /-- The content of an element, which may be declared nil. -/
  | content (isNil : Bool) (nodes : List Node)

/-- A field of an element. -/
structure Field where
  name : List Char
  value : Value

/-- The field that an attribute is, whatever its prefix.  An attribute that declares a namespace is
none. -/
def Field.ofAttribute? (a : Attribute) : Option Field :=
  if Markup.declaresNamespace a.name then none else some ⟨Markup.localName a.name, .attribute a.raw⟩

/-- The values of the fields with a given name. -/
def valuesOf (fields : List Field) (name : String) : List Value :=
  (fields.filter (·.name == name.toList)).map (·.value)

/-- The value of a field that must be there once. -/
def required? (fields : List Field) (name : String) : Option Value :=
  match valuesOf fields name with
  | [value] => some value
  | _ => none

/-- The value of a field that may be missing or nil, but not be there twice. -/
def optional? (fields : List Field) (name : String) : Option (Option Value) :=
  match valuesOf fields name with
  | [] => some none
  | [.content true nodes] => if Markup.isSkippable nodes then some none else none
  | [value] => some (some value)
  | _ => none

/-- The text that a value stands for. -/
def text? : Value → Option String
  | .attribute raw => (Markup.resolve? raw).map String.ofList
  | .content _ nodes => (Markup.textOf? nodes).map String.ofList

/-- The word that decimal digits stand for, with or without a plus sign. -/
def wordOfDigits? (cs : List Char) : Option UInt32 :=
  let digits := if cs.head? == some '+' then cs.tail else cs
  match Text.ofDigits? 10 digits with
  | some n => if n < 0x100000000 then some (UInt32.ofNat n) else none
  | none => none

/-- The word that a value stands for.  In an attribute it is written without references. -/
def word? : Value → Option UInt32
  | .attribute raw => wordOfDigits? raw
  | .content _ nodes => (Markup.textOf? nodes).bind wordOfDigits?

/-- Reads a value that may be missing. -/
def present? {α : Type} (read? : Value → Option α) : Option Value → Option (Option α)
  | none => some none
  | some value => (read? value).map some

/-! ## Parts of an element -/

/-- What is read of an element: its fields, and the elements that it lists. -/
structure Shape where
  fields : List String
  lists : List String

/-- What an element is to the one that holds it. -/
inductive Role where
  | field (name : List Char)
  | listed
  | other

/-- The role of an element with a given name, whatever its prefix. -/
def Shape.role (shape : Shape) (name : List Char) : Role :=
  match Markup.localName name with
  | '@' :: field => if shape.fields.contains (String.ofList field) then .field field else .other
  | name => if shape.lists.contains (String.ofList name) then .listed else .other

/-- What was read of an element, each in order. -/
structure Parts where
  fields : List Field := []
  listed : List Element := []

/-- The parts with one more element in front.  A field is nil if its own tag says so, or the tag around
it. -/
def Parts.cons (scope : Scope) (isNil : Bool) (role : Role) (e : Element) (parts : Parts) : Parts :=
  match role with
  | .field name =>
    let isNil := isNil || (scope.enter e.attributes).isNil e.attributes
    { parts with fields := ⟨name, .content isNil e.content⟩ :: parts.fields }
  | .listed => { parts with listed := e :: parts.listed }
  | .other => parts

/-- The parts of some content after the first listed element.  Elements that are not named like that
one have to wait their turn, and for that everything in them is read. -/
def laterParts? (shape : Shape) (scope : Scope) (isNil : Bool) (first : List Char) :
    List Node → Option Parts
  | [] => some {}
  | .text raw :: ns =>
    if raw.all Markup.isBlank then laterParts? shape scope isNil first ns else none
  | .data _ :: _ => none
  | .documentType :: ns => laterParts? shape scope isNil first ns
  | .element name attributes content :: ns =>
    if name = first ∨ (Node.element name attributes content).isSound then
      (laterParts? shape scope isNil first ns).map
        (.cons scope isNil (shape.role name) ⟨name, attributes, content⟩)
    else none

/-- The parts of some content. -/
def partsOf? (shape : Shape) (scope : Scope) (isNil : Bool) : List Node → Option Parts
  | [] => some {}
  | .text raw :: ns =>
    if (Markup.resolve? raw).isSome then partsOf? shape scope isNil ns else none
  | .data _ :: ns => partsOf? shape scope isNil ns
  | .documentType :: ns => partsOf? shape scope isNil ns
  | .element name attributes content :: ns =>
    let role := shape.role name
    let later := match role with
      | .listed => laterParts? shape scope isNil name ns
      | .field _ => if Markup.mayBind attributes then partsOf? shape scope isNil ns else none
      | .other =>
        if Markup.mayBind attributes && Markup.isSkippable content then partsOf? shape scope isNil ns
        else none
    later.map (.cons scope isNil role ⟨name, attributes, content⟩)

/-- The parts of an element, in the scope inside its tag. -/
def parts? (shape : Shape) (scope : Scope) (e : Element) : Option Parts := do
  guard (Markup.mayBind e.attributes)
  let as ← Markup.attributes? e.attributes
  let parts ← partsOf? shape scope (scope.isNil e.attributes) e.content
  pure { parts with fields := as.filterMap Field.ofAttribute? ++ parts.fields }

/-- The listed elements with a given name, all of which must have the same prefix. -/
def Parts.named? (parts : Parts) (name : String) : Option (List Element) :=
  match parts.listed.filter fun e => Markup.localName e.name == name.toList with
  | [] => some []
  | e :: rest => if rest.all (·.name == e.name) then some (e :: rest) else none

/-! ## Entries -/

/-- Reads an `arg` element. -/
def argEntry? (outer : Scope) (e : Element) : Option ArgEntry := do
  let parts ← parts? ⟨["name", "type", "interface", "allow-null"], []⟩ (outer.enter e.attributes) e
  let name ← text? (← required? parts.fields "name")
  let type ← text? (← required? parts.fields "type")
  let interface ← present? text? (← optional? parts.fields "interface")
  let allowNull ← present? text? (← optional? parts.fields "allow-null")
  pure ⟨name, type, interface, allowNull⟩

/-- Reads a `request` or an `event` element. -/
def methodEntry? (outer : Scope) (e : Element) : Option MethodEntry := do
  let scope := outer.enter e.attributes
  let parts ← parts? ⟨["name", "type", "since"], ["arg"]⟩ scope e
  let name ← text? (← required? parts.fields "name")
  let type ← present? text? (← optional? parts.fields "type")
  let since ← present? word? (← optional? parts.fields "since")
  let args ← (← parts.named? "arg").mapM fun e => argEntry? scope e
  pure ⟨name, type, since, args⟩

/-- Reads an `interface` element. -/
def interfaceEntry? (outer : Scope) (e : Element) : Option InterfaceEntry := do
  let scope := outer.enter e.attributes
  let parts ← parts? ⟨["name", "version"], ["request", "event"]⟩ scope e
  let name ← text? (← required? parts.fields "name")
  let version ← word? (← required? parts.fields "version")
  let requests ← (← parts.named? "request").mapM fun e => methodEntry? scope e
  let events ← (← parts.named? "event").mapM fun e => methodEntry? scope e
  pure ⟨name, version, requests, events⟩

/-- Reads the root element of a description. -/
def description? (e : Element) : Option Description := do
  let scope := Scope.enter [] e.attributes
  let parts ← parts? ⟨["name"], ["interface"]⟩ scope e
  let name ← text? (← required? parts.fields "name")
  let entries ← (← parts.named? "interface").mapM fun e => interfaceEntry? scope e
  pure ⟨name, entries⟩

/-- The description that a text holds. -/
def Description.ofText (text : String) : Except DescriptionError Description :=
  match (Element.ofText? text).bind description? with
  | some d => .ok d
  | none => .error .unreadable

/-! ## Sources of definitions -/

/-- Where definitions come from. -/
inductive Source where
  /-- The core interfaces. -/
  | core
  | interfaces (is : List Interface)
  /-- The text of a description. -/
  | description (text : String)

/-- The definitions of a source. -/
def Source.definitions : Source → Except Error (List Interface)
  | .core => .ok Core.interfaces
  | .interfaces is => .ok is
  | .description text =>
    match Description.ofText text with
    | .error e => .error (.description e)
    | .ok d =>
      match d.interfaces with
      | .error e => .error (.description e)
      | .ok is => .ok is

/-- Builds a registry from all sources, which are read in order before anything is checked. -/
def Registry.ofSources (sources : List Source) : Except Error Registry :=
  match collect Source.definitions sources with
  | .error e => .error e
  | .ok is => Registry.build is.flatten

end Compositor.Protocol
