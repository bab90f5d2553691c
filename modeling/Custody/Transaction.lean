import Custody.Store
/-!
# Transactions

A buffered view of storage. A slot is read from the store when the transaction first touches it, and
its version is noted. Committing publishes the buffered writes if every touched slot still has the
version noted for it, and otherwise changes nothing.

A step that fails keeps what it touched: the answer depended on it.
-/

namespace Custody

/-- A touched slot: the version it had at first touch, its buffered value, and whether it was
written. -/
structure Entry where
  version : Nat
  value : Option Value
  dirty : Bool := false

/-- The slots touched so far. -/
structure Transaction where
  entries : Table SlotKey Entry := ∅

/-- What may be done in a transaction, with its answer. -/
abbrev Operation (α : Type) := Transaction → Store → α × Transaction

namespace Transaction

/-- A transaction that has touched nothing. -/
def begin : Transaction := {}

/-- What the transaction sees in a slot. -/
def entry (tx : Transaction) (store : Store) (key : SlotKey) : Entry :=
  match tx.entries.get? key with
  | some entry => entry
  | none => { version := store.version key, value := store.get? key }

variable (tx : Transaction)

/-- Record what is now in a slot. -/
def record (key : SlotKey) (entry : Entry) : Transaction :=
  ⟨tx.entries.insert key entry⟩

/-- Whether the slot is filled. -/
def existsAt (store : Store) (key : SlotKey) : Bool × Transaction :=
  let entry := tx.entry store key
  (entry.value.isSome, tx.record key entry)

/-- Fill an empty slot. -/
def moveTo (store : Store) (key : SlotKey) (value : Value) : Except Failure Unit × Transaction :=
  let entry := tx.entry store key
  if entry.value.isSome then (.error (.alreadyExists key), tx.record key entry)
  else (.ok (), tx.record key { entry with value := some value, dirty := true })

/-- Empty a filled slot. -/
def moveFrom (store : Store) (key : SlotKey) : Except Failure Value × Transaction :=
  let entry := tx.entry store key
  match entry.value with
  | some value => (.ok value, tx.record key { entry with value := none, dirty := true })
  | none => (.error (.missing key), tx.record key entry)

/-- Read a filled slot. -/
def read (store : Store) (key : SlotKey) : Except Failure Value × Transaction :=
  let entry := tx.entry store key
  match entry.value with
  | some value => (.ok value, tx.record key entry)
  | none => (.error (.missing key), tx.record key entry)

/-- Change the value in a filled slot. The slot counts as written even if the change fails, since
the place to write to had been handed out. -/
def update {ε : Type} (tx : Transaction) (store : Store) (key : SlotKey)
    (change : Value → Except ε Value) : Except Failure (Except ε Unit) × Transaction :=
  let entry := tx.entry store key
  match entry.value with
  | some value =>
    match change value with
    | .ok changed =>
      (.ok (.ok ()), tx.record key { entry with value := some changed, dirty := true })
    | .error e => (.ok (.error e), tx.record key { entry with dirty := true })
  | none => (.error (.missing key), tx.record key entry)

def hasWrites : Bool := tx.entries.values.any (·.dirty)

/-- The first touched slot that was written by someone else since. -/
def stale? (store : Store) : Option SlotKey :=
  (tx.entries.entries.find? fun entry => store.version entry.1 ≠ entry.2.version).map (·.1)

/-- The written slots, in key order. -/
def writes : List (SlotKey × Option Value) :=
  (tx.entries.entries.filter (·.2.dirty)).map fun entry => (entry.1, entry.2.value)

/-- Publish every write, or none of them. Answers the number of slots written. -/
def commit (store : Store) : Except Failure (Nat × Store) :=
  match tx.stale? store with
  | some key => .error (.conflict key)
  | none =>
    let writes := tx.writes
    .ok (writes.length, writes.foldl (fun store write => store.write write.1 write.2) store)

end Transaction

end Custody
