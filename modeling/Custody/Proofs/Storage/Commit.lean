import Custody.Proofs.Tables
import Custody.Transaction
/-!
# What a transaction sees and what it publishes

A transaction is described by what it sees in each slot. Every step looks at one slot and records an
entry for it; the steps differ only in the value and the mark they record. Committing replaces the
values of the slots marked as written by what the transaction sees there and leaves the rest alone.
-/

namespace Custody

variable {tx : Transaction} {store : Store} {key : SlotKey}

/-! ## Storage -/

namespace Store

variable (store)

theorem slots_write (key other : SlotKey) (value : Option Value) :
    (store.write key value).slots.get? other =
      if other = key then value.map (⟨store.clock + 1, ·⟩) else store.slots.get? other := by
  cases value with
  | none => exact Table.get?_erase store.slots key other
  | some value => exact Table.get?_insert store.slots key other _

@[simp] theorem get?_write (key other : SlotKey) (value : Option Value) :
    (store.write key value).get? other = if other = key then value else store.get? other := by
  cases value with
  | none => by_cases same : other = key <;> simp [write, get?, same]
  | some value => by_cases same : other = key <;> simp [write, get?, same]

@[simp] theorem clock_write (key : SlotKey) (value : Option Value) :
    (store.write key value).clock = store.clock + 1 := by
  cases value <;> rfl

theorem version_write (key other : SlotKey) (value : Option Value) :
    (store.write key value).version other =
      if other = key then (if value.isSome then store.clock + 1 else 0) else
      store.version other := by
  cases value with
  | none => by_cases same : other = key <;> simp [write, version, same]
  | some value => by_cases same : other = key <;> simp [write, version, same]

/-- A seed needs a struct and an empty slot for it, and fills the slot. -/
theorem seed_ok_iff {store after : Store} {resource : Resource} :
    store.seed resource = .ok after ↔
      ∃ tag, resource.value.tag? = some tag ∧ store.get? ⟨resource.address, tag⟩ = none ∧
        after = store.write ⟨resource.address, tag⟩ (some resource.value) := by
  unfold seed
  cases tagged : resource.value.tag? with
  | none => simp
  | some tag =>
    cases held : store.get? ⟨resource.address, tag⟩ with
    | some value => simp [contains, held]
    | none => simp [contains, held, eq_comm]

/-- Write a list of slots, one after another. -/
def writeAll (writes : List (SlotKey × Option Value)) : Store :=
  writes.foldl (fun store write => store.write write.1 write.2) store

theorem slots_writeAll_of_not_mem (writes : List (SlotKey × Option Value))
    (key : SlotKey) (absent : ∀ value, (key, value) ∉ writes) :
    (store.writeAll writes).slots.get? key = store.slots.get? key := by
  induction writes generalizing store with
  | nil => rfl
  | cons write rest ih =>
    have elsewhere : key ≠ write.1 := by
      intro same
      exact absent write.2 (same ▸ List.mem_cons_self)
    refine (ih (store.write write.1 write.2) fun value member =>
      absent value (List.mem_cons_of_mem _ member)).trans ?_
    rw [slots_write, if_neg elsewhere]

theorem get?_writeAll_of_not_mem (writes : List (SlotKey × Option Value))
    (key : SlotKey) (absent : ∀ value, (key, value) ∉ writes) :
    (store.writeAll writes).get? key = store.get? key :=
  congrArg (Option.map Cell.value) (slots_writeAll_of_not_mem store writes key absent)

/-- Slots that are each written once hold what was written. -/
theorem get?_writeAll_of_mem (writes : List (SlotKey × Option Value))
    (once : (writes.map (·.1)).Nodup) (key : SlotKey) (value : Option Value)
    (member : (key, value) ∈ writes) : (store.writeAll writes).get? key = value := by
  induction writes generalizing store with
  | nil => simp at member
  | cons write rest ih =>
    simp only [List.map_cons, List.nodup_cons] at once
    rcases List.mem_cons.mp member with same | member
    · subst same
      have later : ∀ value, (key, value) ∉ rest := fun value member =>
        once.1 (List.mem_map.mpr ⟨(key, value), member, rfl⟩)
      have kept := get?_writeAll_of_not_mem (store.write key value) rest key later
      simpa [writeAll] using kept
    · exact ih (store.write write.1 write.2) once.2 member

variable {store}

/-- Stamps of filled slots lie between 1 and the clock. -/
def Stamped (store : Store) : Prop :=
  ∀ key cell, store.slots.get? key = some cell → 1 ≤ cell.version ∧ cell.version ≤ store.clock

theorem stamped_empty : Stamped ∅ := by
  intro key cell found
  cases found

theorem Stamped.write (stamped : store.Stamped) (key : SlotKey) (value : Option Value) :
    (store.write key value).Stamped := by
  intro other cell found
  rw [slots_write] at found
  rw [clock_write]
  split at found
  · obtain ⟨_, _, rfl⟩ := Option.map_eq_some_iff.mp found
    exact ⟨Nat.le_add_left 1 store.clock, Nat.le_refl _⟩
  · have bounds := stamped other cell found
    omega

/-- Only an empty slot has the stamp 0. -/
theorem Stamped.get?_of_version_zero (stamped : store.Stamped) (zero : store.version key = 0) :
    store.get? key = none := by
  cases found : store.slots.get? key with
  | none => simp [get?, found]
  | some cell =>
    have stamp : cell.version = 0 := by simpa [version, found] using zero
    have bounds := stamped key cell found
    omega

theorem Stamped.version_le (stamped : store.Stamped) (key : SlotKey) :
    store.version key ≤ store.clock := by
  cases found : store.slots.get? key with
  | none => simp [version, found]
  | some cell =>
    have bounds := stamped key cell found
    simpa [version, found] using bounds.2

end Store

/-! ## Transactions -/

namespace Transaction

/-- What the transaction sees in a slot. -/
def sees (tx : Transaction) (store : Store) (key : SlotKey) : Option Value :=
  (tx.entry store key).value

@[simp] theorem get?_record (tx : Transaction) (key other : SlotKey) (entry : Entry) :
    (tx.record key entry).entries.get? other =
      if other = key then some entry else tx.entries.get? other :=
  Table.get?_insert tx.entries key other entry

@[simp] theorem sees_record (tx : Transaction) (store : Store) (key other : SlotKey)
    (entry : Entry) : (tx.record key entry).sees store other = if other = key then entry.value else
    tx.sees store other := by
  by_cases same : other = key <;> simp [sees, Transaction.entry, same]

/-- The written slots are listed once each. -/
theorem nodup_writes (tx : Transaction) : (tx.writes.map (·.1)).Nodup := by
  have listed := (tx.entries.filter fun _ entry => entry.dirty).ascending.nodup_keys
  rw [writes, List.map_map]
  exact listed

theorem mem_writes_iff (key : SlotKey) (value : Option Value) :
    (key, value) ∈ tx.writes ↔
      ∃ entry, tx.entries.get? key = some entry ∧ entry.dirty = true ∧ entry.value = value := by
  simp only [writes, List.mem_map, List.mem_filter]
  constructor
  · rintro ⟨⟨other, entry⟩, ⟨member, dirty⟩, same⟩
    obtain ⟨rfl, rfl⟩ := Prod.mk.inj same
    exact ⟨entry, Table.get?_of_mem member, dirty, rfl⟩
  · rintro ⟨entry, found, dirty, rfl⟩
    exact ⟨(key, entry), ⟨Table.mem_entries_of_get? found, dirty⟩, rfl⟩

/-- A commit that goes through found every touched slot as it was at first touch. -/
theorem version_of_not_stale (fresh : tx.stale? store = none) {entry : Entry}
    (touched : tx.entries.get? key = some entry) : store.version key = entry.version := by
  have none := Option.map_eq_none_iff.mp fresh
  have same := List.find?_eq_none.mp none (key, entry) (Table.mem_entries_of_get? touched)
  simpa using same

/-- A commit goes through if no touched slot is stale, and then publishes the written slots. -/
theorem commit_eq_ok {store after : Store} {written : Nat}
    (committed : tx.commit store = .ok (written, after)) :
    tx.stale? store = none ∧ written = tx.writes.length ∧ after = store.writeAll tx.writes := by
  unfold commit at committed
  split at committed
  · cases committed
  · rename_i fresh
    obtain ⟨rfl, rfl⟩ := Prod.mk.inj (Except.ok.inj committed)
    exact ⟨fresh, rfl, rfl⟩

/-- After the written slots are published, storage holds in each of them what the transaction saw
there, and in every other slot what it held. -/
theorem get?_writeAll_writes (tx : Transaction) (store : Store) (key : SlotKey) :
    (store.writeAll tx.writes).get? key =
      match tx.entries.get? key with
      | some entry => if entry.dirty then entry.value else store.get? key
      | none => store.get? key := by
  cases touched : tx.entries.get? key with
  | none =>
    apply Store.get?_writeAll_of_not_mem
    intro value member
    obtain ⟨entry, found, _⟩ := (mem_writes_iff key value).mp member
    simp [touched] at found
  | some entry =>
    by_cases dirty : entry.dirty = true
    · have member : (key, entry.value) ∈ tx.writes :=
        (mem_writes_iff key entry.value).mpr ⟨entry, touched, dirty, rfl⟩
      simpa [dirty] using
        Store.get?_writeAll_of_mem store tx.writes tx.nodup_writes key entry.value member
    · have absent : ∀ value, (key, value) ∉ tx.writes := by
        intro value member
        obtain ⟨other, found, marked, _⟩ := (mem_writes_iff key value).mp member
        rw [touched] at found
        exact dirty (Option.some.inj found ▸ marked)
      simpa [dirty] using Store.get?_writeAll_of_not_mem store tx.writes key absent

end Transaction

end Custody
