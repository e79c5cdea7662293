import Compositor.Protocol.Interface
import Compositor.Text.Quoted

/-
  The object table of a connection: which object an id stands for.

  An id is free, live, or stale: destroyed and remembered by a marker.  A client id can be used again
  once the client has acknowledged its deletion; a server id never.  Markers are bounded: when there
  are more than the capacity, the oldest acknowledged ones expire.

  The table is seen through `slot`, the state of each id.  It keeps live objects and markers apart:
  `Directory` holds the objects by id, `Marker` the destroyed ids in the order of their destruction.
-/

namespace Compositor.Objects

open Compositor.Wire (ObjectId Side Signature)
open Compositor.Protocol (Interface)

/-! ## Objects -/

/-- A live object; `α` is the type of implementations. -/
structure Object (α : Type) where
  interface : Interface
  version : UInt32
  /-- Stamped by the table on insertion, with a number that it gives to no other object. -/
  generation : Nat := 0
  implementation : Option α := none

/-- Does the object have an implementation? -/
def Object.isBound {α : Type} (o : Object α) : Bool := o.implementation.isSome

/-- The object in one line, for inspection. -/
def Object.describe {α : Type} (o : Object α) : String :=
  "Object \x7b interface: " ++ Text.quoted o.interface.name ++ ", version: " ++
    Text.decimal o.version.toNat ++ ", generation: " ++ Text.decimal o.generation ++ ", bound: " ++
    (if o.isBound then "true" else "false") ++ " \x7d"

/-- A reference to one particular object, which survives the reuse of its id: it goes by the stamp as well. -/
structure Handle where
  id : ObjectId
  generation : Nat
deriving DecidableEq

/-! ## Objects by id -/

/-- Objects by id, in ascending order of the ids. -/
abbrev Directory (α : Type) := List (ObjectId × Object α)

namespace Directory

variable {α : Type}

/-- The object at an id. -/
def get? (id : ObjectId) : Directory α → Option (Object α)
  | [] => none
  | (k, o) :: rest => if k = id then some o else get? id rest

/-- Puts an object at an id, in its place. -/
def put (id : ObjectId) (object : Object α) : Directory α → Directory α
  | [] => [(id, object)]
  | (k, o) :: rest =>
    if k = id then (id, object) :: rest
    else if id.toNat < k.toNat then (id, object) :: (k, o) :: rest
    else (k, o) :: put id object rest

/-- Takes the object at an id away. -/
def erase (id : ObjectId) : Directory α → Directory α
  | [] => []
  | (k, o) :: rest => if k = id then erase id rest else (k, o) :: erase id rest

theorem get?_put (id other : ObjectId) (object : Object α) (d : Directory α) :
    get? other (put id object d) = if other = id then some object else get? other d := by
  induction d with
  | nil => simp [put, get?, eq_comm]
  | cons e rest ih =>
    obtain ⟨k, o⟩ := e
    unfold put
    split
    · rename_i hk
      subst hk
      by_cases h : other = k
      · simp [get?, h]
      · simp [get?, h, Ne.symm h]
    · rename_i hk
      split
      · by_cases h : other = id
        · simp [get?, h]
        · simp [get?, h, Ne.symm h]
      · by_cases h : other = id
        · subst h
          simp [get?, hk, ih]
        · simp only [get?, ih, h, if_false]

theorem get?_erase (id other : ObjectId) (d : Directory α) :
    get? other (erase id d) = if other = id then none else get? other d := by
  induction d with
  | nil => simp [erase, get?]
  | cons e rest ih =>
    obtain ⟨k, o⟩ := e
    unfold erase
    split
    · rename_i hk
      subst hk
      rw [ih]
      by_cases h : other = k
      · simp [h]
      · simp [get?, h, Ne.symm h]
    · rename_i hk
      by_cases h : other = id
      · subst h
        simp [get?, hk, ih]
      · simp only [get?, ih, h, if_false]

end Directory

/-! ## Markers -/

/-- What remains of a destroyed object: its id, and whether its deletion is acknowledged. -/
structure Marker where
  id : ObjectId
  acked : Bool
deriving DecidableEq

namespace Marker

/-- The acknowledgement of the marker of an id, if there is one. -/
def acked? (id : ObjectId) (markers : List Marker) : Option Bool :=
  (markers.find? (·.id == id)).map (·.acked)

/-- Acknowledges the deletion of an id. -/
def acknowledge (id : ObjectId) (markers : List Marker) : List Marker :=
  markers.map fun m => if m.id = id then { m with acked := true } else m

/-- Forgets an id. -/
def forget (id : ObjectId) (markers : List Marker) : List Marker := markers.filter (·.id != id)

/-- Drops the `excess` oldest acknowledged markers, or all of them if there are fewer. -/
def expire : (excess : Nat) → List Marker → List Marker
  | 0, markers => markers
  | _ + 1, [] => []
  | excess + 1, m :: markers =>
    if m.acked then expire excess markers else m :: expire (excess + 1) markers

theorem acked?_acknowledge (id other : ObjectId) (markers : List Marker) :
    acked? other (acknowledge id markers) =
      (acked? other markers).map fun acked => acked || other == id := by
  have hf : ((fun m : Marker => m.id == other) ∘ fun m : Marker =>
      if m.id = id then { m with acked := true } else m) = fun m => m.id == other := by
    funext m
    dsimp only [Function.comp]
    split <;> rfl
  unfold acked? acknowledge
  rw [List.find?_map, hf, Option.map_map, Option.map_map]
  refine Option.map_congr fun m hm => ?_
  have hid : m.id = other := by simpa using List.find?_some hm
  by_cases h : other = id <;> simp [hid, h]

theorem acked?_forget (id other : ObjectId) (markers : List Marker) :
    acked? other (forget id markers) = if other = id then none else acked? other markers := by
  unfold acked? forget
  rw [List.find?_filter]
  split
  · rename_i h
    subst h
    simp
  · rename_i h
    have hp : (fun m : Marker => decide ((m.id != id) = true ∧ (m.id == other) = true)) =
        fun m => m.id == other := by
      funext m
      by_cases hm : m.id = other
      · simp [hm, h]
      · simp [hm]
    rw [hp]

/-- Only acknowledged markers expire. -/
theorem mem_expire_of_unacked {m : Marker} {markers : List Marker} (excess : Nat) (hm : m ∈ markers)
    (ha : m.acked = false) : m ∈ expire excess markers := by
  fun_induction expire excess markers with
  | case1 => exact hm
  | case2 => nomatch hm
  | case3 excess m' markers h ih =>
    rcases List.mem_cons.1 hm with rfl | hm
    · rw [ha] at h; nomatch h
    · exact ih hm
  | case4 excess m' markers h ih =>
    rcases List.mem_cons.1 hm with rfl | hm
    · exact List.mem_cons_self ..
    · exact List.mem_cons_of_mem _ (ih hm)

end Marker

/-! ## Errors -/

/-- Why an operation on the table is refused. -/
inductive TableError where
  | idInUse (id : ObjectId)
  | idOutOfRange (id : UInt32) (side : Side)
  /-- Destroyed, and the client may not know yet. -/
  | idNotReleased (id : ObjectId)
  | notFound (id : ObjectId)
  | stale (id : ObjectId)
  | serverIdsExhausted
  | alreadyBound (id : ObjectId)
  /-- The object cannot be destroyed before its connection. -/
  | permanent (id : ObjectId)
deriving DecidableEq

/-- The text of an error. -/
def TableError.message : TableError → String
  | .idInUse id => s!"id {id.text} is already in use"
  | .idOutOfRange id side => s!"id 0x{Text.hex id.toNat} is outside the {side.name} id range"
  | .idNotReleased id => s!"id {id.text} was destroyed and its deletion is not yet acknowledged"
  | .notFound id => s!"no object with id {id.text}"
  | .stale id => s!"object {id.text} was destroyed"
  | .serverIdsExhausted => "server id range exhausted"
  | .alreadyBound id => s!"object {id.text} already has an implementation"
  | .permanent id => s!"object {id.text} lives as long as the connection"

/-! ## The table -/

/-- The objects of one connection. -/
structure Table (α : Type) where
  objects : Directory α := []
  /-- The ids that are destroyed and remembered, oldest first. -/
  markers : List Marker := []
  /-- The number of markers above which acknowledged ones expire. -/
  capacity : Nat
  /-- The next server id; all server ids below it have been used. -/
  nextServer : Nat := 0xFF000000
  nextGeneration : Nat := 1

/-- The state of an id that is not free. -/
inductive Slot (α : Type) where
  | live (object : Object α)
  /-- Destroyed.  Is the deletion acknowledged? -/
  | stale (acked : Bool)

namespace Table

variable {α : Type}

/-- The empty table that remembers a given number of stale ids. -/
def empty (capacity : Nat) : Table α := { capacity }

/-- The state of an id. -/
def slot (t : Table α) (id : ObjectId) : Option (Slot α) :=
  match t.objects.get? id with
  | some object => some (.live object)
  | none => (Marker.acked? id t.markers).map .stale

/-- The ids of the live objects, in ascending order. -/
def ids (t : Table α) : List ObjectId := t.objects.map (·.1)

/-- The number of live objects. -/
def size (t : Table α) : Nat := t.objects.length

/-- The number of stale ids that are remembered. -/
def staleSize (t : Table α) : Nat := t.markers.length

/-- Is there a live object at this id? -/
def contains (t : Table α) (id : ObjectId) : Bool := (t.objects.get? id).isSome

/-- Was this server id used before?  Server ids are handed out in order. -/
def wasAllocated (t : Table α) (id : ObjectId) : Bool :=
  id.side == .server && id.toNat < t.nextServer

/-- Did this id stand for an object that is destroyed, as far as the table remembers? -/
def isStale (t : Table α) (id : ObjectId) : Bool :=
  match t.slot id with
  | some (.live _) => false
  | some (.stale _) => true
  | none => t.wasAllocated id

/-- The error for an id without an object. -/
def missing (t : Table α) (id : ObjectId) : TableError :=
  if t.isStale id then .stale id else .notFound id

/-- The live object at an id. -/
def get (t : Table α) (id : ObjectId) : Except TableError (Object α) :=
  match t.objects.get? id with
  | some object => .ok object
  | none => .error (t.missing id)

/-- The object behind a handle; any other object at the same id counts as its end. -/
def byHandle (t : Table α) (h : Handle) : Except TableError (Object α) :=
  match t.get h.id with
  | .ok object => if object.generation = h.generation then .ok object else .error (.stale h.id)
  | .error e => .error e

/-- Does an id still stand for the object of a given generation? -/
def isCurrent (t : Table α) (id : ObjectId) (generation : Nat) : Bool :=
  match t.objects.get? id with
  | some object => object.generation == generation
  | none => false

/-! ### Operations -/

/-- Drops the oldest acknowledged markers until the capacity is met, as far as possible. -/
def expire (t : Table α) : Table α :=
  { t with markers := Marker.expire (t.markers.length - t.capacity) t.markers }

/-- Why an id cannot be taken, if it cannot. -/
def refusal? (t : Table α) (side : Side) (id : ObjectId) : Option TableError :=
  if ! side.contains id.raw then some (.idOutOfRange id.raw side)
  else match t.slot id with
    | some (.live _) => some (.idInUse id)
    | some (.stale false) => some (.idNotReleased id)
    | some (.stale true) => if side = .server then some (.idNotReleased id) else none
    | none => if t.wasAllocated id then some (.idNotReleased id) else none

/-- Inserts an object at an id that a side has chosen, and stamps it. -/
def insert (t : Table α) (side : Side) (id : ObjectId) (object : Object α) :
    Except TableError (Handle × Table α) :=
  match t.refusal? side id with
  | some e => .error e
  | none =>
    let stamped := { object with generation := t.nextGeneration }
    .ok (⟨id, t.nextGeneration⟩, { t with
      objects := t.objects.put id stamped
      markers := Marker.forget id t.markers
      nextServer := if side = .server then id.toNat + 1 else t.nextServer
      nextGeneration := t.nextGeneration + 1 })

/-- Inserts an object at the next server id. -/
def allocate (t : Table α) (object : Object α) : Except TableError (Handle × Table α) :=
  if t.nextServer < 0x100000000 then
    match ObjectId.ofRaw? (UInt32.ofNat t.nextServer) with
    | some id => t.insert .server id object
    | none => .error .serverIdsExhausted
  else .error .serverIdsExhausted

/-- Changes the live object at an id, if there is one. -/
def modify (t : Table α) (id : ObjectId) (f : Object α → Object α) : Table α :=
  match t.objects.get? id with
  | some object => { t with objects := t.objects.put id (f object) }
  | none => t

/-- Destroys the object at an id, and leaves a marker.  Deletions of server ids need no
acknowledgement. -/
def remove (t : Table α) (id : ObjectId) : Except TableError (Object α × Table α) :=
  match t.get id with
  | .error e => .error e
  | .ok object =>
    let t := { t with
      objects := t.objects.erase id
      markers := t.markers ++ [Marker.mk id (id.side == Side.server)] }
    .ok (object, t.expire)

/-- Notes that the client knows of a deletion; was this awaited? -/
def acknowledge (t : Table α) (id : ObjectId) : Bool × Table α :=
  match t.slot id with
  | some (.stale false) => (true, { t with markers := Marker.acknowledge id t.markers }.expire)
  | _ => (false, t)

/-- Removes all objects, highest id first, and all markers. -/
def drain (t : Table α) : List (ObjectId × Object α) × Table α :=
  (t.objects.reverse, { t with objects := [], markers := [] })

/-- The signature of a request of the object at an id. -/
def resolve (t : Table α) (id : ObjectId) (opcode : UInt16) : Except Wire.Error Signature :=
  match t.get id with
  | .error (.stale _) => .error (.staleObject id.raw)
  | .error _ => .error (.unknownObject id.raw)
  | .ok object =>
    match object.interface.method? .request opcode with
    | some m => .ok m.signature
    | none => .error (.unknownOpcode object.interface.name opcode)

/-- The table in one line, for inspection. -/
def describe (t : Table α) : String :=
  "ObjectTable \x7b live: " ++ Text.decimal t.size ++ ", stale: " ++ Text.decimal t.staleSize ++
    ", next_server: " ++ Text.decimal t.nextServer ++ " \x7d"

end Table

end Compositor.Objects
