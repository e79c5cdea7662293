import Compositor.Protocol.Interface

/-
  The core interfaces, from which every connection starts.

  `wl_display` is object 1.  Through it a client reaches `wl_registry`, which advertises globals, and
  `wl_callback`, which answers round trips.  The opcodes below are the positions of the methods in
  these definitions, which the closing examples check.
-/

namespace Compositor.Protocol.Core

open Compositor.Wire (Param Signature)

def displayName : String := "wl_display"

def registryName : String := "wl_registry"

def callbackName : String := "wl_callback"

/-! ## Opcodes -/

/-- The request `wl_display.sync`. -/
def syncOpcode : UInt16 := 0

/-- The request `wl_display.get_registry`. -/
def getRegistryOpcode : UInt16 := 1

/-- The event `wl_display.error`. -/
def errorOpcode : UInt16 := 0

/-- The event `wl_display.delete_id`. -/
def deleteIdOpcode : UInt16 := 1

/-- The request `wl_registry.bind`. -/
def bindOpcode : UInt16 := 0

/-- The event `wl_registry.global`. -/
def globalOpcode : UInt16 := 0

/-- The event `wl_registry.global_remove`. -/
def globalRemoveOpcode : UInt16 := 1

/-- The event `wl_callback.done`. -/
def doneOpcode : UInt16 := 0

/-! ## Codes of `wl_display.error` -/

/-- The request named an object that is not there. -/
def invalidObject : UInt32 := 0

/-- The request or its arguments do not fit the interface. -/
def invalidMethod : UInt32 := 1

/-- The server is out of room. -/
def noMemory : UInt32 := 2

/-- The server has no way to answer. -/
def implementationError : UInt32 := 3

/-! ## Definitions -/

def display : Interface where
  name := displayName
  version := 1
  requests := [
    { name := "sync", signature := ⟨[{ name := "callback", kind := .newId, interface := some callbackName }]⟩ },
    { name := "get_registry",
      signature := ⟨[{ name := "registry", kind := .newId, interface := some registryName }]⟩ }]
  events := [
    { name := "error",
      signature := ⟨[{ name := "object_id", kind := .object }, { name := "code", kind := .uint },
        { name := "message", kind := .string }]⟩ },
    { name := "delete_id", signature := ⟨[{ name := "id", kind := .uint }]⟩ }]

def registry : Interface where
  name := registryName
  version := 1
  requests := [
    { name := "bind", signature := ⟨[{ name := "name", kind := .uint }, { name := "id", kind := .newId }]⟩ }]
  events := [
    { name := "global",
      signature := ⟨[{ name := "name", kind := .uint }, { name := "interface", kind := .string },
        { name := "version", kind := .uint }]⟩ },
    { name := "global_remove", signature := ⟨[{ name := "name", kind := .uint }]⟩ }]

def callback : Interface where
  name := callbackName
  version := 1
  events := [
    { name := "done", signature := ⟨[{ name := "callback_data", kind := .uint }]⟩, destructor := true }]

/-- The core interfaces. -/
def interfaces : List Interface := [display, registry, callback]

example : display.opcode? .request "get_registry" = some getRegistryOpcode := by decide
example : display.opcode? .event "delete_id" = some deleteIdOpcode := by decide
example : registry.opcode? .event "global_remove" = some globalRemoveOpcode := by decide

end Compositor.Protocol.Core
