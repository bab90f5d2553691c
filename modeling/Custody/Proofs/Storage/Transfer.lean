import Custody.Proofs.Storage.Commit
/-!
# Transactions over another store

Of the store it runs over, a transaction knows the values it found in the slots it touched and the
versions it noted there. If another store holds the same values in these slots, the transaction can
be carried over to it, with other versions noted, and goes on in the same way there.
-/

namespace Custody

variable {store other : Store} {tx : Transaction} {key : SlotKey}

/-! ## Slots that are not written -/

namespace Store

/-- Slots that agree still agree after the same writes. -/
theorem get?_writeAll_congr (agree : store.get? key = other.get? key)
    (writes : List (SlotKey × Option Value)) :
    (store.writeAll writes).get? key = (other.writeAll writes).get? key := by
  induction writes generalizing store other with
  | nil => exact agree
  | cons write rest ih =>
    have next : (store.write write.1 write.2).get? key = (other.write write.1 write.2).get?
        key := by
      rw [get?_write, get?_write, agree]
    exact ih next

end Store

namespace Transaction

/-! ## Versions -/

/-- The transaction, as if it had noted the versions of that store. -/
def onto (tx : Transaction) (store : Store) : Transaction :=
  ⟨tx.entries.rewrite fun key entry => { entry with version := store.version key }⟩

theorem onto_record (tx : Transaction) (store : Store) (key : SlotKey) (entry : Entry) :
    (tx.record key entry).onto store =
      (tx.onto store).record key { entry with version := store.version key } := by
  simp only [onto, record, Table.rewrite_insert]

theorem entry_onto (agree : store.get? key = other.get? key) :
    (tx.onto other).entry other key =
      { tx.entry store key with version := other.version key } := by
  simp only [entry, onto, Table.get?_rewrite]
  cases tx.entries.get? key with
  | none => simp [agree]
  | some entry => rfl

theorem writes_onto (tx : Transaction) (store : Store) : (tx.onto store).writes = tx.writes := by
  simp only [writes, onto, Table.rewrite, List.filter_map, List.map_map]
  rfl

theorem stale?_eq_none {store : Store}
    (fresh : ∀ entry ∈ tx.entries.entries, entry.2.version = store.version entry.1) :
    tx.stale? store = none := by
  simp only [stale?, Option.map_eq_none_iff, List.find?_eq_none]
  intro entry listed
  simp [fresh entry listed]

/-- The versions noted are the right ones. -/
theorem stale?_onto (tx : Transaction) (store : Store) : (tx.onto store).stale? store = none := by
  refine stale?_eq_none fun entry listed => ?_
  obtain ⟨source, _, rfl⟩ := List.mem_map.mp listed
  rfl

theorem commit_eq {store : Store} (fresh : tx.stale? store = none) :
    tx.commit store = .ok (tx.writes.length, store.writeAll tx.writes) := by
  simp only [commit, fresh]
  rfl

/-! ## Steps on one slot -/

/-- What a step makes of the slot it is about. -/
structure Effect (β : Type) where
  answer : β
  /-- What is in the slot afterwards. -/
  value : Option Value
  /-- Whether the slot counts as written. -/
  dirties : Bool

/-- The effect with another answer. -/
def Effect.map {α β : Type} (f : α → β) (effect : Effect α) : Effect β :=
  ⟨f effect.answer, effect.value, effect.dirties⟩

/-- The entry that a step leaves. -/
def Effect.leaves {β : Type} (effect : Effect β) (entry : Entry) : Entry :=
  { entry with value := effect.value, dirty := entry.dirty || effect.dirties }

/-- The step answers from what it sees in one slot, and records what it leaves there. -/
def OnSlot {β : Type} (key : SlotKey) (effect : Option Value → Effect β)
    (step : Operation β) : Prop :=
  ∀ tx store, step tx store =
    ((effect (tx.entry store key).value).answer,
      tx.record key ((effect (tx.entry store key).value).leaves (tx.entry store key)))

theorem OnSlot.map {α β : Type} {effect : Option Value → Effect α}
    {step : Operation α} (onSlot : OnSlot key effect step) (f : α → β) :
    OnSlot key (fun held => (effect held).map f) fun tx store => (step tx store).map f id :=
  fun tx store => congrArg (Prod.map f id) (onSlot tx store)

/-- A step does the same over a store that has the same value in its slot. -/
theorem OnSlot.onto {β : Type} {effect : Option Value → Effect β}
    {step : Operation β} (onSlot : OnSlot key effect step)
    (agree : store.get? key = other.get? key) (tx : Transaction) :
    step (tx.onto other) other = ((step tx store).1, (step tx store).2.onto other) := by
  rw [onSlot, onSlot, entry_onto agree, onto_record]
  rfl

/-- Asking whether the slot is filled. -/
def existsEffect (slot : Option Value) : Effect Bool := ⟨slot.isSome, slot, false⟩

/-- Filling an empty slot. -/
def moveToEffect (key : SlotKey) (value : Value) (slot : Option Value) :
    Effect (Except Failure Unit) :=
  if slot.isSome then ⟨.error (.alreadyExists key), slot, false⟩ else ⟨.ok (), some value, true⟩

/-- Emptying a filled one. -/
def moveFromEffect (key : SlotKey) : Option Value → Effect (Except Failure Value)
  | some value => ⟨.ok value, none, true⟩
  | none => ⟨.error (.missing key), none, false⟩

/-- Reading what is there. -/
def readEffect (key : SlotKey) : Option Value → Effect (Except Failure Value)
  | some value => ⟨.ok value, some value, false⟩
  | none => ⟨.error (.missing key), none, false⟩

/-- Changing what is there; a change that fails counts as a write too. -/
def updateEffect {ε : Type} (key : SlotKey) (change : Value → Except ε Value) :
    Option Value → Effect (Except Failure (Except ε Unit))
  | some value =>
    match change value with
    | .ok changed => ⟨.ok (.ok ()), some changed, true⟩
    | .error fault => ⟨.ok (.error fault), some value, true⟩
  | none => ⟨.error (.missing key), none, false⟩

section Steps

variable (key : SlotKey)

theorem leaves_unchanged {β : Type} {answer : β} {entry : Entry} {slot : Option Value}
    (seen : entry.value = slot) : (⟨answer, slot, false⟩ : Effect β).leaves entry = entry := by
  subst seen
  simp [Effect.leaves]

theorem onSlot_existsAt : OnSlot key existsEffect fun tx store => tx.existsAt store key := by
  intro tx store
  simp [existsAt, existsEffect, leaves_unchanged]

theorem onSlot_moveTo (value : Value) :
    OnSlot key (moveToEffect key value) fun tx store => tx.moveTo store key value := by
  intro tx store
  cases seen : (tx.entry store key).value with
  | none => simp [moveTo, moveToEffect, seen, Effect.leaves]
  | some held => simp [moveTo, moveToEffect, seen, leaves_unchanged]

theorem onSlot_moveFrom : OnSlot key (moveFromEffect key) fun tx store => tx.moveFrom
    store key := by
  intro tx store
  cases seen : (tx.entry store key).value with
  | none => simp [moveFrom, moveFromEffect, seen, leaves_unchanged]
  | some value => simp [moveFrom, moveFromEffect, seen, Effect.leaves]

theorem onSlot_read : OnSlot key (readEffect key) fun tx store => tx.read store key := by
  intro tx store
  cases seen : (tx.entry store key).value with
  | none => simp [read, readEffect, seen, leaves_unchanged]
  | some value => simp [read, readEffect, seen, leaves_unchanged]

theorem onSlot_update {ε : Type} (change : Value → Except ε Value) :
    OnSlot key (updateEffect key change) fun tx store => tx.update store key change := by
  intro tx store
  cases seen : (tx.entry store key).value with
  | none => simp [update, updateEffect, seen, leaves_unchanged]
  | some value =>
    cases changed : change value with
    | ok new => simp [update, updateEffect, seen, changed, Effect.leaves]
    | error fault => simp [update, updateEffect, seen, changed, Effect.leaves]

end Steps

end Transaction

end Custody
