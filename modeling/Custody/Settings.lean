import Custody.Address
import Custody.Toml.Reader
/-!
# Settings

What a settings file may say, in the sections `check`, `runtime` and `log`. Whatever it leaves out
keeps its default, and unknown keys are ignored.
-/

namespace Custody

structure Settings where
  /-- Bodies may be checked side by side; the verdict is the same either way. -/
  parallel : Bool := true
  maxCallDepth : Nat := 1024
  /-- Bytes of stack for an execution, if they are fixed. -/
  stackSize : Option Nat := none
  /-- The signer of calls from the command line. -/
  sender : Address := .ofNat 1
  level : String := "info"

namespace Settings

/-- The largest word of 64 bits. -/
def maxWord : Nat := Nat.pow 2 64 - 1

/-- The stack of an execution: the fixed size, or room for every frame and some more. -/
def effectiveStackSize (settings : Settings) : Nat :=
  match settings.stackSize with
  | some size => size
  | none => min maxWord (min maxWord (settings.maxCallDepth * 65536) + 4194304)

/-! ## Reading -/

def asBool : Toml → Option Bool
  | .bool value => some value
  | _ => none

def asNat : Toml → Option Nat
  | .integer value => if 0 ≤ value then some value.toNat else none
  | _ => none

def asString : Toml → Option String
  | .string value => some value
  | _ => none

def asAddress (value : Toml) : Option Address := do Address.parse? (← asString value)

/-- The items of a section. A table names them, an array gives them in order, and a date has
none. -/
def sectionItems? (keys : List String) : Toml → Option (List (String × Toml))
  | .table entries => some entries
  | .array items => some (keys.zip items)
  | .date => some []
  | _ => none

/-- An item of a section, or its default. -/
def item {α : Type} (items : List (String × Toml)) (key : String) (read : Toml → Option α)
    (default : α) : Option α :=
  match items.lookup key with
  | some value => read value
  | none => some default

/-- A section of a document; one that is absent has no items. -/
def sectionOf (document : List (String × Toml)) (name : String) (keys : List String) :
    Option (List (String × Toml)) :=
  match document.lookup name with
  | some value => sectionItems? keys value
  | none => some []

def ofToml? (document : List (String × Toml)) : Option Settings := do
  let defaults : Settings := {}
  let check ← sectionOf document "check" ["parallel"]
  let runtime ← sectionOf document "runtime" ["max_call_depth", "stack_size", "sender"]
  let log ← sectionOf document "log" ["level"]
  return {
    parallel := ← item check "parallel" asBool defaults.parallel
    maxCallDepth := ← item runtime "max_call_depth" asNat defaults.maxCallDepth
    stackSize := ← item runtime "stack_size" (fun value => (asNat value).map some)
      defaults.stackSize
    sender := ← item runtime "sender" asAddress defaults.sender
    level := ← item log "level" asString defaults.level }

/-- Read a settings file. -/
def parse? (source : String) : Option Settings := do ofToml? (← Toml.parse? source)

end Settings

end Custody
