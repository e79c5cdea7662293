import Compositor.Wire.Fixed
import Compositor.Wire.ObjectId

/-
  Messages and their arguments.

  An `Arg` is the value of one argument, a `Message` the list of them addressed to an object.  `kind`
  says which kind of parameter an argument answers; typed and generic new ids are both new ids.
-/

namespace Compositor.Wire

/-- The kinds of argument that a signature can declare. -/
inductive Kind where
  | int
  | uint
  | fixed
  | string
  | object
  | newId
  | array
  | fd
deriving DecidableEq, Repr

/-- The name of a kind, in error texts and in protocol descriptions alike. -/
def Kind.name : Kind → String
  | .int => "int"
  | .uint => "uint"
  | .fixed => "fixed"
  | .string => "string"
  | .object => "object"
  | .newId => "new_id"
  | .array => "array"
  | .fd => "fd"

/-- All kinds. -/
def Kind.all : List Kind := [.int, .uint, .fixed, .string, .object, .newId, .array, .fd]

/-- The kind with a given name. -/
def Kind.ofName? (name : String) : Option Kind := Kind.all.find? (·.name == name)

theorem Kind.ofName?_name (k : Kind) : Kind.ofName? k.name = some k := by
  cases k <;> decide

theorem Kind.name_of_ofName? {name : String} {k : Kind} (h : Kind.ofName? name = some k) :
    k.name = name := by
  simpa using List.find?_some h

/-- An open descriptor that travels beside the byte stream.  The number tells descriptors apart,
the label is what they are shown by. -/
structure Descriptor where
  number : Nat
  label : String
deriving DecidableEq, Repr

/-- The value of one argument. -/
inductive Arg where
  | int (value : Int32)
  | uint (value : UInt32)
  | fixed (value : Fixed)
  /-- A text, or null. -/
  | string (value : Option String)
  /-- An object, or null. -/
  | object (id : Option ObjectId)
  /-- A new object, whose interface the signature names. -/
  | newId (id : ObjectId)
  /-- A new object whose interface and version travel with it. -/
  | genericNewId (interface : String) (version : UInt32) (id : ObjectId)
  | array (bytes : List UInt8)
  | fd (descriptor : Descriptor)
deriving DecidableEq

namespace Arg

/-- The kind of parameter that this argument answers. -/
def kind : Arg → Kind
  | .int _ => .int
  | .uint _ => .uint
  | .fixed _ => .fixed
  | .string _ => .string
  | .object _ => .object
  | .newId _ => .newId
  | .genericNewId .. => .newId
  | .array _ => .array
  | .fd _ => .fd

/-- Is this the null text or the null object? -/
def isNull : Arg → Bool
  | .string none => true
  | .object none => true
  | _ => false

/-- The text that the argument carries, if any: its own, or the interface name of a generic new id. -/
def text? : Arg → Option String
  | .string s => s
  | .genericNewId interface _ _ => some interface
  | _ => none

def int? : Arg → Option Int32
  | .int value => some value
  | _ => none

def uint? : Arg → Option UInt32
  | .uint value => some value
  | _ => none

def fixed? : Arg → Option Fixed
  | .fixed value => some value
  | _ => none

/-- The text of a string argument. -/
def string? : Arg → Option String
  | .string value => value
  | _ => none

def object? : Arg → Option ObjectId
  | .object id => id
  | _ => none

/-- The id of a new object, typed or generic. -/
def newId? : Arg → Option ObjectId
  | .newId id => some id
  | .genericNewId _ _ id => some id
  | _ => none

def array? : Arg → Option (List UInt8)
  | .array bytes => some bytes
  | _ => none

def fd? : Arg → Option Descriptor
  | .fd descriptor => some descriptor
  | _ => none

end Arg

/-- Does a text hold a NUL character, which no string on the wire can carry? -/
def hasNul (s : String) : Bool := s.toList.contains '\x00'

/-- A request or an event: an object, the number of one of its methods, and the arguments. -/
structure Message where
  object : ObjectId
  opcode : UInt16
  args : List Arg
deriving DecidableEq

/-- The descriptors of a message, in the order of its arguments. -/
def Message.descriptors (m : Message) : List Descriptor := m.args.filterMap Arg.fd?

end Compositor.Wire
