import Compositor.Text.Numeral

/-
  Object ids.

  Every object of a connection has a non-zero 32-bit id, and the id's range tells which peer chose
  it: `Side.contains` and `ObjectId.side` are the two views of that split, joined by
  `contains_iff_side`.  Id 1 is the display, the object every connection starts with.
-/

namespace Compositor.Wire

/-- The peer that allocates an id. -/
inductive Side where
  /-- Ids from 1 up to 0xFEFFFFFF. -/
  | client
  /-- Ids from 0xFF000000 on. -/
  | server
deriving DecidableEq, Repr

/-- The first id of the server's range. -/
def serverMin : UInt32 := 0xFF000000

/-- Does a raw word lie in the id range of this side? -/
def Side.contains : Side → UInt32 → Bool
  | .client, raw => raw != 0 && raw < serverMin
  | .server, raw => serverMin ≤ raw

/-- The name of a side in error texts. -/
def Side.name : Side → String
  | .client => "Client"
  | .server => "Server"

/-- The id of an object within one connection: a word other than zero. -/
structure ObjectId where
  raw : UInt32
  raw_ne_zero : raw ≠ 0
deriving DecidableEq

namespace ObjectId

/-- The id a raw word stands for; zero is the null id. -/
def ofRaw? (raw : UInt32) : Option ObjectId :=
  if h : raw ≠ 0 then some ⟨raw, h⟩ else none

/-- The root object of every connection. -/
def display : ObjectId := ⟨1, by decide⟩

/-- The peer that allocates this id. -/
def side (id : ObjectId) : Side := if serverMin ≤ id.raw then .server else .client

/-- The id as a number. -/
def toNat (id : ObjectId) : Nat := id.raw.toNat

/-- The id in decimal. -/
def text (id : ObjectId) : String := Text.decimal id.toNat

theorem ext_raw {a b : ObjectId} (h : a.raw = b.raw) : a = b := by
  cases a; cases b; simp_all

theorem toNat_inj {a b : ObjectId} : a.toNat = b.toNat ↔ a = b :=
  ⟨fun h => ext_raw (UInt32.toNat_inj.1 h), fun h => h ▸ rfl⟩

@[simp] theorem ofRaw?_raw (id : ObjectId) : ofRaw? id.raw = some id := by
  simp [ofRaw?, id.raw_ne_zero]

theorem ofRaw?_eq_some_iff {raw : UInt32} {id : ObjectId} : ofRaw? raw = some id ↔ id.raw = raw := by
  constructor
  · intro h
    unfold ofRaw? at h
    split at h
    · injection h with h; rw [← h]
    · nomatch h
  · rintro rfl
    exact ofRaw?_raw id

theorem ofRaw?_eq_none_iff {raw : UInt32} : ofRaw? raw = none ↔ raw = 0 := by
  unfold ofRaw?
  split
  · simp_all
  · simp_all

end ObjectId

/-- A side's range holds exactly the ids that this side allocates. -/
theorem Side.contains_iff_side (s : Side) (id : ObjectId) : s.contains id.raw = true ↔ id.side = s := by
  have h0 := id.raw_ne_zero
  cases s
  · simp [Side.contains, ObjectId.side, h0]
  · simp [Side.contains, ObjectId.side]

end Compositor.Wire
