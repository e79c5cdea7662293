import Compositor.Session.Program

/-
  The requests of the core objects.

  `wl_display.sync` answers with `done`, an event that also ends the callback, so callbacks need no
  implementation.  `wl_display.get_registry` lists the globals, and `wl_registry.bind` hands a new object
  over to a global, if name, interface and version agree.
-/

namespace Compositor.Sessions

open Compositor.Wire (Arg ObjectId)
open Compositor.Protocol

variable {K : Kit}

/-- Announces globals to a registry object, in order. -/
def advertise (registry : ObjectId) : List (Global K.Binder) → Script K Unit
  | [] => pure ()
  | g :: gs => do
    Script.post registry Core.globalOpcode [.uint g.name, .string (some g.interface), .uint g.version]
    advertise registry gs

/-- Handles a request to the display. -/
def displayRequest (r : Request) : Script K Unit :=
  if r.opcode = Core.syncOpcode then do
    let callback ← Script.ofExcept (r.newId 0)
    let serial ← Script.serial
    Script.post callback Core.doneOpcode [.uint serial]
  else if r.opcode = Core.getRegistryOpcode then do
    let id ← Script.ofExcept (r.newId 0)
    let _ ← Script.bind id .registry
    let globals ← Script.globals
    advertise id globals.entries
  else throw (.implementation s!"wl_display has no request {Text.decimal r.opcode.toNat}")

/-- Takes back a new object that cannot be bound, and says why. -/
def reject (id : ObjectId) (text : String) : Script K Unit := do
  Script.destroy id
  throw ⟨Core.invalidObject, text⟩

/-- Handles a request to a registry; `start` starts the binding of a global. -/
def registryRequest (start : K.Binder → ObjectId → UInt32 → Script K K.Handler) (r : Request) :
    Script K Unit :=
  if r.opcode ≠ Core.bindOpcode then
    throw (.implementation s!"wl_registry has no request {Text.decimal r.opcode.toNat}")
  else do
    let name ← Script.ofExcept (r.uint 0)
    match r.args[1]? with
    | some (Arg.genericNewId interface version id) =>
      let globals ← Script.globals
      match (globals.get? name).filter (·.interface == interface) with
      | none => reject id s!"invalid global {interface} ({Text.decimal name.toNat})"
      | some global =>
        if global.version < version then
          reject id s!"invalid version for global {interface} ({Text.decimal name.toNat}): have {Text.decimal global.version.toNat}, wanted {Text.decimal version.toNat}"
        else
          let handler ← start global.binder id version
          let _ ← Script.bind id (.application handler)
          pure ()
    | _ => throw (.implementation "wl_registry.bind without a new_id")

namespace Application

variable (app : Application)

/-- Handles a request to an object by its implementation, and says what becomes of that. -/
def respond (implementation : Implementation app.Handler) (r : Request) :
    Program app.toKit (Implementation app.Handler × Except AppError Unit) :=
  match implementation with
  | .display => (displayRequest r).run.andThen fun result => .done (.display, result)
  | .registry => (registryRequest app.bind r).run.andThen fun result => .done (.registry, result)
  | .application handler =>
    (app.request handler r).andThen fun (handler, result) => .done (.application handler, result)

/-- Takes note that the object of an implementation is gone. -/
def noteDestroyed (implementation : Option (Implementation app.Handler)) (id : ObjectId)
    (world : app.World) : app.World :=
  match implementation with
  | some (.application handler) => app.destroyed handler id world
  | _ => world

end Application

end Compositor.Sessions
