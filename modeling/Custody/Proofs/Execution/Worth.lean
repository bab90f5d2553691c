import Custody.Proofs.Execution.Ensures
import Custody.Proofs.Storage.Commit
import Custody.Proofs.Values.Structs
import Mathlib.Algebra.BigOperators.Finprod
import Mathlib.Algebra.BigOperators.Group.Finset.Basic
/-!
# The worth of a machine

Values are weighed by the structs in them. The worth of a machine is what the storage it sees
weighs, counted together with what has been unpacked and without what has been packed: packing and
unpacking move weight between the values a program holds and the tally, so that worth and held
values balance.
-/

namespace Custody

variable {store : Store} {tx : Transaction} {key : SlotKey} (weight : StructId → Nat)

/-- What is in a slot or a local, if anything, weighs this much. -/
def weighSlot : Option Value → Nat
  | some value => value.weigh weight
  | none => 0

@[simp] theorem weighSlot_some (value : Value) :
    weighSlot weight (some value) = value.weigh weight := rfl

@[simp] theorem weighSlot_none : weighSlot weight none = 0 := rfl

/-- Two families of finite support that differ at one key have sums that differ by its terms. -/
theorem finsum_change {κ : Type} {f g : κ → Nat} (key : κ) (finite : (Function.support f).Finite)
    (same : ∀ other, other ≠ key → g other = f other) :
    (∑ᶠ k, g k) + f key = (∑ᶠ k, f k) + g key := by
  have finite' : (Function.support g).Finite := by
    refine (finite.insert key).subset fun other member => ?_
    by_cases here : other = key
    · exact .inl here
    · exact .inr ((same other here).symm.trans_ne member)
  have others : ∑ᶠ (k) (_ : k ≠ key), g k = ∑ᶠ (k) (_ : k ≠ key), f k :=
    finsum_congr fun other => finsum_congr fun differs => same other differs
  rw [← add_finsum_cond_ne key finite, ← add_finsum_cond_ne key finite', others]
  omega

/-! ## What a transaction sees -/

namespace Transaction

section Seeing

variable {tx : Transaction} {store : Store} (weight : StructId → Nat)

theorem finite_support_sees (tx : Transaction) (store : Store) :
    (Function.support fun key => weighSlot weight (tx.sees store key)).Finite := by
  refine Set.Finite.subset (List.finite_toSet (tx.entries.keys ++ store.slots.keys)) ?_
  intro key member
  refine List.mem_append.mpr ?_
  cases touched : tx.entries.get? key with
  | some entry => exact .inl (Table.mem_keys_of_get? touched)
  | none =>
    right
    cases stored : store.slots.get? key with
    | some cell => exact Table.mem_keys_of_get? stored
    | none =>
      refine absurd ?_ member
      simp [sees, entry, touched, Store.get?, stored]

/-- What storage weighs in the eyes of a transaction. -/
noncomputable def sight (tx : Transaction) (store : Store) : Nat :=
  ∑ᶠ key, weighSlot weight (tx.sees store key)

theorem sight_record (tx : Transaction) (store : Store) (key : SlotKey) (entry : Entry) :
    (tx.record key entry).sight weight store + weighSlot weight (tx.sees store key) =
      tx.sight weight store + weighSlot weight entry.value := by
  have changed := finsum_change
    (g := fun other => weighSlot weight ((tx.record key entry).sees store other))
    key (finite_support_sees weight tx store) (fun other differs => by simp [differs])
  simpa [sight] using changed

end Seeing

/-- Entries that are not written show what is stored. -/
structure Faithful (tx : Transaction) (store : Store) : Prop where
  clean : ∀ {key entry}, tx.entries.get? key = some entry → entry.dirty = false →
    entry.value = store.get? key

theorem faithful_begin (store : Store) : Faithful begin store := ⟨fun found => nomatch found⟩

/-- What a slot shows before it is touched is what is stored. -/
theorem Faithful.clean_entry (faithful : Faithful tx store)
    (clean : (tx.entry store key).dirty = false) : (tx.entry store key).value = store.get? key := by
  unfold entry at clean ⊢
  cases touched : tx.entries.get? key with
  | some entry =>
    simp only [touched] at clean
    exact faithful.clean touched clean
  | none => rfl

theorem Faithful.record (faithful : Faithful tx store) {entry : Entry}
    (clean : entry.dirty = false → entry.value = store.get? key) :
    Faithful (tx.record key entry) store where
  clean := by
    intro other found touched unwritten
    rw [get?_record] at touched
    split at touched
    · rename_i same
      obtain rfl := Option.some.inj touched
      rw [same]
      exact clean unwritten
    · exact faithful.clean touched unwritten

/-- Touching a slot changes nothing of what is seen. -/
theorem Faithful.touch (faithful : Faithful tx store) (key : SlotKey) :
    Faithful (tx.record key (tx.entry store key)) store :=
  faithful.record faithful.clean_entry

theorem sees_touch (tx : Transaction) (store : Store) (key other : SlotKey) :
    (tx.record key (tx.entry store key)).sees store other = tx.sees store other := by
  rw [sees_record]
  split
  · rename_i same
    rw [same]
    rfl
  · rfl

/-- A commit stores what the transaction sees. -/
theorem Faithful.get?_writeAll (faithful : Faithful tx store) (key : SlotKey) :
    (store.writeAll tx.writes).get? key = tx.sees store key := by
  rw [get?_writeAll_writes]
  unfold sees entry
  cases touched : tx.entries.get? key with
  | none => rfl
  | some entry =>
    cases written : entry.dirty with
    | true => simp [written]
    | false => simp [written, faithful.clean touched written]

end Transaction

/-! ## What is stored -/

namespace Store

/-- What the filled slots weigh. -/
def weigh (weight : StructId → Nat) (store : Store) : Nat :=
  (store.slots.entries.map fun entry => entry.2.value.weigh weight).sum

theorem weigh_eq_finsum (store : Store) :
    store.weigh weight = ∑ᶠ key, weighSlot weight (store.get? key) := by
  have listed : (Function.support fun key => weighSlot weight (store.get? key)) ⊆
      store.slots.keys.toFinset := by
    intro key member
    cases found : store.slots.get? key with
    | none => exact absurd (by simp [Store.get?, found]) member
    | some cell => exact List.mem_toFinset.mpr (Table.mem_keys_of_get? found)
  rw [finsum_eq_sum_of_support_subset _ listed, List.sum_toFinset _ store.slots.nodup_keys,
    Table.keys, List.map_map]
  refine congrArg List.sum (List.map_congr_left fun entry member => ?_)
  simp [Store.get?, Table.get?_of_mem member]

end Store

/-! ## Worth -/

namespace Machine

/-- What storage weighs, with what has been unpacked and without what has been packed. -/
noncomputable def worth (weight : StructId → Nat) (m : Machine) : Int :=
  m.tx.sight weight m.store + (m.tally.unpacked.map weight).sum - (m.tally.packed.map weight).sum

/-- Worth depends on storage and the tally only. -/
theorem worth_congr {m m' : Machine} (tx : m'.tx = m.tx)
    (store : m'.store = m.store) (tally : m'.tally = m.tally) :
    m'.worth weight = m.worth weight := by
  rw [worth, worth, tx, store, tally]

end Machine

end Custody
