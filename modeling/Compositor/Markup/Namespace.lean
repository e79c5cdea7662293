import Compositor.Markup.Attribute

/-
  Namespaces: what the prefixes of names are bound to.

  A tag binds the prefix `p` with an attribute named `xmlns:p`.  `mayBind` says which bindings a tag
  may have.  A `Scope` lists the bindings around a place, and decides whether a tag there declares its
  element nil.
-/

namespace Compositor.Markup

/-! ## Standard namespaces -/

/-- The name of a standard namespace: an address at the host of the standards. -/
def standardNamespace (path : String) : List Char :=
  ("http:" ++ "//" ++ ".".intercalate ["www", "w3", "org"] ++ path).toList

/-- The namespace of the prefix `xml`. -/
def xmlNamespace : List Char := standardNamespace "/XML/1998/namespace"

/-- The namespace of the prefix `xmlns`. -/
def xmlnsNamespace : List Char := standardNamespace "/2000/xmlns/"

/-- The namespace of the attributes that any described element may have, `nil` among them. -/
def instanceNamespace : List Char := standardNamespace "/2001/XMLSchema-instance"

/-! ## Bindings -/

/-- Does an attribute declare a namespace, for a prefix or for names without one? -/
def declaresNamespace (name : List Char) : Bool :=
  name == "xmlns".toList || "xmlns:".toList.isPrefixOf name

/-- The prefix that an attribute binds. -/
def Attribute.bound? (a : Attribute) : Option (List Char) :=
  if "xmlns:".toList.isPrefixOf a.name then some (a.name.drop 6) else none

/-- May a tag have this attribute?  The prefix `xml` keeps its namespace, `xmlns` is never bound, and
no other prefix shares a namespace with either. -/
def Attribute.isAllowed (a : Attribute) : Bool :=
  match a.bound? with
  | none => true
  | some p =>
    if p = "xml".toList then a.raw == xmlNamespace
    else p != "xmlns".toList && a.raw != xmlNamespace && a.raw != xmlnsNamespace

/-- Are all bindings of a tag allowed?  What follows its first malformed attribute does not count. -/
def mayBind (attributes : List Char) : Bool := (leadingAttributes attributes).1.all Attribute.isAllowed

/-! ## Scope -/

/-- The bindings around a place, innermost first: prefixes with their namespaces. -/
abbrev Scope := List (List Char × List Char)

/-- The scope inside a tag with the given attributes. -/
def Scope.enter (scope : Scope) (attributes : List Char) : Scope :=
  (leadingAttributes attributes).1.foldl
    (fun scope a => match a.bound? with
      | some p => (p, a.raw) :: scope
      | none => scope)
    scope

/-- Is this the attribute by which an element is declared nil? -/
def Scope.isNilMark (scope : Scope) (a : Attribute) : Bool :=
  match prefixOf? a.name with
  | none => false
  | some p =>
    localName a.name == "nil".toList && ! p.isEmpty && scope.lookup p == some instanceNamespace &&
      (a.raw == "true".toList || a.raw == "1".toList)

/-- Does a tag declare its element nil?  The scope is the one inside the tag. -/
def Scope.isNil (scope : Scope) (attributes : List Char) : Bool :=
  (leadingAttributes attributes).1.any scope.isNilMark

end Compositor.Markup
