import Mathlib.Data.List.Find
import Custody.Proofs.Storage.Atomicity
/-!
# Transactions on different slots do not meet

All commits draw their versions from one clock, so two storages that differ in the order of two
commits have different versions in many slots. They have the same values nevertheless, if no slot
was touched by both transactions: whether a transaction is stale depends on the slots it touched,
and a commit leaves the slots alone that its transaction did not touch.
-/

namespace Custody

variable {store : Store} {key : SlotKey} {other : Store}

/-! ## Snapshots -/

namespace Store

/-- Storage without the versions. -/
def contents (store : Store) : Table SlotKey Value := store.slots.rewrite fun _ cell => cell.value

theorem get?_contents (store : Store) (key : SlotKey) : store.contents.get? key = store.get? key :=
  Table.get?_rewrite _ store.slots key

/-- Storages with the same values list the same resources. -/
theorem snapshot_congr (agree : ∀ key, store.get? key = other.get? key) :
    store.snapshot = other.snapshot := by
  have same : store.contents = other.contents := by
    refine Table.ext_get? fun key => ?_
    rw [get?_contents, get?_contents, agree]
  have listed (store : Store) :
      store.snapshot = store.contents.entries.map fun entry => ⟨entry.1.address, entry.2⟩ := by
    rw [snapshot, contents, Table.rewrite, List.map_map]
    rfl
  rw [listed store, listed other, same]

end Store

/-! ## What a commit depends on and what it leaves alone -/

namespace Transaction

variable {tx : Transaction}

/-- Whether a transaction conflicts depends on the versions of the slots it touched. -/
theorem stale?_congr (agree : ∀ key ∈ tx.entries.keys, store.version key = other.version key) :
    tx.stale? store = tx.stale? other := by
  have found : tx.entries.entries.find? (fun entry => store.version entry.1 ≠ entry.2.version) =
      tx.entries.entries.find? fun entry => other.version entry.1 ≠ entry.2.version := by
    refine List.find?_congr fun entry listed => ?_
    rw [agree entry.1 (List.mem_map_of_mem listed)]
  rw [stale?, stale?, found]

theorem slots_settle_of_untouched (untouched : key ∉ tx.entries.keys) (store : Store) :
    (tx.settle store).2.slots.get? key = store.slots.get? key := by
  rw [settle_eq]
  cases tx.stale? store with
  | some key => rfl
  | none =>
    refine Store.slots_writeAll_of_not_mem store tx.writes key fun value listed => ?_
    obtain ⟨entry, dirty, same⟩ := List.mem_map.mp listed
    obtain ⟨rfl, _⟩ := Prod.mk.inj same
    exact untouched (List.mem_map_of_mem (List.mem_filter.mp dirty).1)

theorem get?_settle_of_untouched (untouched : key ∉ tx.entries.keys) (store : Store) :
    (tx.settle store).2.get? key = store.get? key := by
  rw [Store.get?, slots_settle_of_untouched untouched, Store.get?]

theorem answer_settle_congr (agree : tx.stale? store = tx.stale? other) :
    (tx.settle store).1 = (tx.settle other).1 := by
  rw [settle_eq, settle_eq, agree]
  cases tx.stale? other <;> rfl

theorem get?_settle_congr (agree : tx.stale? store = tx.stale? other)
    (same : store.get? key = other.get? key) :
    (tx.settle store).2.get? key = (tx.settle other).2.get? key := by
  rw [settle_eq, settle_eq, agree]
  cases tx.stale? other with
  | some key => exact same
  | none => exact Store.get?_writeAll_congr same tx.writes

/-- A commit does not make a transaction stale that touched none of its slots, nor does it undo that
one is. -/
theorem stale?_settle_of_disjoint {one : Transaction}
    (disjoint : one.entries.keys.Disjoint tx.entries.keys) (store : Store) :
    tx.stale? (one.settle store).2 = tx.stale? store := by
  refine stale?_congr fun key touched => ?_
  have untouched : key ∉ one.entries.keys := fun shared => disjoint shared touched
  rw [Store.version, Store.version, slots_settle_of_untouched untouched]

end Transaction

/-! ## Either order -/

/-- The two transactions can be committed in either order: the answers are the same, and also those
that each would get without the other, and so are the values left and the snapshots. -/
structure Interchangeable {σ ρ : Type} (commit : Transaction → σ → ρ × σ)
    (value : σ → SlotKey → Option Value) (snapshot : σ → List Resource) (state : σ)
    (one other : Transaction) : Prop where
  first : (commit one (commit other state).2).1 = (commit one state).1
  second : (commit other (commit one state).2).1 = (commit other state).1
  values : ∀ key, value (commit other (commit one state).2).2 key =
    value (commit one (commit other state).2).2 key
  snapshots : snapshot (commit other (commit one state).2).2 = snapshot
    (commit one (commit other state).2).2

namespace Transaction

variable {one other : Transaction}

theorem get?_settle_comm (disjoint : one.entries.keys.Disjoint other.entries.keys) (store : Store)
    (key : SlotKey) :
    (other.settle (one.settle store).2).2.get? key = (one.settle (other.settle store).2).2.get?
    key := by
  by_cases touched : key ∈ one.entries.keys
  · -- The other transaction passes the slot over, whenever it commits.
    have untouched : key ∉ other.entries.keys := disjoint touched
    rw [get?_settle_of_untouched untouched]
    refine get?_settle_congr (stale?_settle_of_disjoint disjoint.symm store).symm ?_
    rw [get?_settle_of_untouched untouched]
  · rw [get?_settle_of_untouched touched]
    refine get?_settle_congr (stale?_settle_of_disjoint disjoint store) ?_
    rw [get?_settle_of_untouched touched]

theorem interchangeable_settle (store : Store)
    (disjoint : one.entries.keys.Disjoint other.entries.keys) :
    Interchangeable settle Store.get? Store.snapshot store one other where
  first := answer_settle_congr (stale?_settle_of_disjoint disjoint.symm store)
  second := answer_settle_congr (stale?_settle_of_disjoint disjoint store)
  values := get?_settle_comm disjoint store
  snapshots := Store.snapshot_congr (get?_settle_comm disjoint store)

/-- Transactions that can be committed in either order can be so in place. -/
theorem interchangeable_inPlace
    (settled : Interchangeable settle Store.get? Store.snapshot store one other) :
    Interchangeable (fun tx map => map.commit tx) (fun map key => (map.read key).value)
      SlotMap.snapshot store.inPlace one other := by
  refine ⟨?_, ?_, fun key => ?_, ?_⟩
  · simp only [SlotMap.commit_inPlace, settled.first]
  · simp only [SlotMap.commit_inPlace, settled.second]
  · simp only [SlotMap.commit_inPlace, SlotMap.read_inPlace, settled.values]
  · simp only [SlotMap.commit_inPlace, SlotMap.snapshot_inPlace, settled.snapshots]

end Transaction

namespace Concurrent

/-- Independence: whatever happened before, two transactions that touched no slot in common can be
committed in either order. Neither makes the other conflict, nor saves it from a conflict, and the
values and the snapshot left are the same. It makes no difference whether storage is replaced or
changed in place. -/
theorem disjoint_commits_are_independent (events : List Event) (one other : Transaction)
    (disjoint : one.entries.keys.Disjoint other.entries.keys) :
    Interchangeable Transaction.settle Store.get? Store.snapshot (Host.run events).store one other ∧
    Interchangeable (fun tx map => map.commit tx) (fun map key => (map.read key).value)
      SlotMap.snapshot (SlotHost.run events).map one other := by
  have settled := Transaction.interchangeable_settle (Host.run events).store disjoint
  rw [slotHost_run]
  exact ⟨settled, Transaction.interchangeable_inPlace settled⟩

/-- One that conflicts with an earlier commit and one that does not. -/
theorem contended_commits_are_independent :
    ∃ late prompt, (Host.run contended).sessions 0 = some late ∧
      (Host.run contended).sessions 1 = some prompt ∧
      late.tx.entries.keys.Disjoint prompt.tx.entries.keys ∧
      (late.tx.settle (Host.run contended).store).1 = .error (.conflict (account 1)) ∧
      (prompt.tx.settle (Host.run contended).store).1 = .ok 1 ∧
      Interchangeable Transaction.settle Store.get? Store.snapshot (Host.run contended).store
        late.tx prompt.tx ∧
      Interchangeable (fun tx map => map.commit tx) (fun map key => (map.read key).value)
        SlotMap.snapshot (SlotHost.run contended).map late.tx prompt.tx := by
  refine ⟨_, _, rfl,
    rfl, ?disjoint, rfl, rfl, disjoint_commits_are_independent contended _ _ ?disjoint⟩
  exact List.disjoint_left.mpr (by decide)

end Concurrent

end Custody
