import Custody.Failure
/-!
# Storage

Committed state: at most one resource per slot. Each slot carries the version of the commit that
last wrote it. Versions come from one clock, so a slot that is emptied and filled again never
repeats one; an empty slot has version 0. Only filled slots are kept.
-/

namespace Custody

/-- A filled slot. -/
structure Cell where
  version : Nat
  value : Value

/-- A resource and where it is published. -/
structure Resource where
  address : Address
  value : Value
deriving DecidableEq

/-- Committed storage. -/
structure Store where
  slots : Table SlotKey Cell := ∅
  clock : Nat := 0

namespace Store

def empty : Store := {}

instance : EmptyCollection Store := ⟨empty⟩

/-- The committed value of a slot. -/
def get? (store : Store) (key : SlotKey) : Option Value := (store.slots.get? key).map (·.value)

variable (store : Store)

def contains (key : SlotKey) : Bool := (store.get? key).isSome

/-- When a slot was last written, 0 for an empty one. -/
def version (store : Store) (key : SlotKey) : Nat :=
  match store.slots.get? key with
  | some cell => cell.version
  | none => 0

/-- Number of filled slots. -/
def size (store : Store) : Nat := store.slots.size

def isEmpty (store : Store) : Bool := store.slots.isEmpty

/-- Fill or empty a slot; the clock ticks either way. -/
def write (key : SlotKey) (value : Option Value) : Store :=
  let clock := store.clock + 1
  match value with
  | some value => ⟨store.slots.insert key ⟨clock, value⟩, clock⟩
  | none => ⟨store.slots.erase key, clock⟩

/-- Publish a struct outside any execution. -/
def seed (resource : Resource) : Except Failure Store :=
  match resource.value.tag? with
  | none => .error (.invalidArgument (.notStorable resource.value.kind))
  | some tag =>
    let key : SlotKey := ⟨resource.address, tag⟩
    if store.contains key then .error (.alreadyExists key)
    else .ok (store.write key (some resource.value))

/-- Storage holding the given resources. -/
def ofSnapshot (resources : List Resource) : Except Failure Store :=
  resources.foldlM seed ∅

/-- Every resource, by address and then by type. Slots are in this order in the table, so nothing is
sorted here. -/
def snapshot : List Resource :=
  store.slots.entries.map fun entry => ⟨entry.1.address, entry.2.value⟩

end Store

end Custody
