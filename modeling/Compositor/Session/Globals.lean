import Compositor.Text.Quoted

/-
  Globals: the objects that a server offers to every client.

  Each global has a name, a number that is never used again even after its removal; `β` is the type of
  what a client's binding starts.
-/

namespace Compositor.Sessions

/-- A global; the version is the highest one that a client may bind. -/
structure Global (β : Type) where
  name : UInt32
  interface : String
  version : UInt32
  binder : β

/-- The globals of a server, oldest first. -/
structure Globals (β : Type) where
  entries : List (Global β) := []
  /-- The name that was given last. -/
  lastName : UInt32 := 0

namespace Globals

variable {β : Type}

/-- Adds a global and gives it the next name. -/
def add (g : Globals β) (interface : String) (version : UInt32) (binder : β) : UInt32 × Globals β :=
  let name := g.lastName + 1
  (name, ⟨g.entries ++ [⟨name, interface, version, binder⟩], name⟩)

/-- The global with a given name. -/
def get? (g : Globals β) (name : UInt32) : Option (Global β) := g.entries.find? (·.name == name)

/-- Withdraws the global with a given name, if there is one. -/
def remove? (g : Globals β) (name : UInt32) : Option (Global β × Globals β) :=
  match g.get? name with
  | some global => some (global, { g with entries := g.entries.eraseP (·.name == name) })
  | none => none

/-- The number of globals. -/
def size (g : Globals β) : Nat := g.entries.length

/-- A global in one line, for inspection. -/
def describeGlobal (g : Global β) : String :=
  "Global \x7b name: " ++ Text.decimal g.name.toNat ++ ", interface: " ++ Text.quoted g.interface ++
    ", version: " ++ Text.decimal g.version.toNat ++ " \x7d"

/-- The globals in one line, for inspection. -/
def describe (g : Globals β) : String :=
  "Globals \x7b entries: [" ++ String.intercalate ", " (g.entries.map describeGlobal) ++
    "], last_name: " ++ Text.decimal g.lastName.toNat ++ " \x7d"

/-- What is added is found under the name it was given, unless that name was in use. -/
theorem get?_add (g : Globals β) (interface : String) (version : UInt32) (binder : β)
    (h : g.get? (g.lastName + 1) = none) :
    (g.add interface version binder).2.get? (g.lastName + 1) =
      some ⟨g.lastName + 1, interface, version, binder⟩ := by
  unfold get? at h
  simp [add, get?, List.find?_append, h]

end Globals

end Compositor.Sessions
