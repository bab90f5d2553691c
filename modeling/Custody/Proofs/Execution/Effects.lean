import Custody.Proofs.Execution.Worth
import Custody.Proofs.Values.Paths
/-!
# What a step may change

Most steps of the machine change nothing that a reference leads to, some one slot of storage, and
some a part of what one reference leads to. What each of them leaves as it was is said here once:
locals, filled slots, and what is seen through references that lead elsewhere.
-/

namespace Custody

variable {reference : Reference} {m m' : Machine} {key : SlotKey} {changed : Option SlotKey}

/-- A slot of storage is filled, as the transaction sees it. -/
def Machine.Fills (m : Machine) (key : SlotKey) : Prop := (m.tx.sees m.store key).isSome = true

/-- The slot in which the reference starts, if it starts in one, is filled. -/
def Reference.Stands (reference : Reference) (m : Machine) : Prop :=
  ∀ key, reference.root = .global key → m.Fills key

theorem stands_local {frame index : Nat} {path : List Nat} {mutable : Bool} :
    Reference.Stands { root := .local frame index, path := path, mutable := mutable } m := by
  intro key absurd
  cases absurd

namespace Machine

theorem at?_congr (same : m'.root? reference.root = m.root? reference.root) :
    m'.at? reference = m.at? reference := by
  rw [at?, at?, same]

/-! ## Storage -/

/-- Frames, the cells of the host and what is seen of storage are what they were, but for the given
slot if there is one. -/
structure AllBut (changed : Option SlotKey) (m m' : Machine) : Prop where
  current : m'.current = m.current
  callers : m'.callers = m.callers
  host : m'.host = m.host
  store : m'.store = m.store
  sees : ∀ other, changed ≠ some other → m'.tx.sees m'.store other = m.tx.sees m.store other

namespace AllBut

theorem touch (m : Machine) (key : SlotKey) :
    AllBut none m { m with tx := m.tx.record key (m.tx.entry m.store key) } :=
  ⟨rfl, rfl, rfl, rfl, fun other _ => Transaction.sees_touch m.tx m.store key other⟩

theorem record (m : Machine) (key : SlotKey) (entry : Entry) :
    AllBut (some key) m { m with tx := m.tx.record key entry } :=
  ⟨rfl, rfl, rfl, rfl, fun other differs => by
    rw [Transaction.sees_record, if_neg fun same => differs (congrArg some same.symm)]⟩

theorem local? (allBut : AllBut changed m m') (frame index : Nat) :
    m'.local? frame index = m.local? frame index := by
  rw [Machine.local?_eq, Machine.local?_eq, Machine.frame?, Machine.frame?, allBut.current,
    allBut.callers]

theorem fills (allBut : AllBut changed m m') (differs : changed ≠ some key) (filled : m.Fills key) :
    m'.Fills key := by
  rw [Machine.Fills, allBut.sees key differs]
  exact filled

theorem root? (allBut : AllBut changed m m') {root : RefRoot}
    (differs : ∀ key, changed = some key → root ≠ .global key) : m'.root? root = m.root? root := by
  cases root with
  | «local» frame index => exact allBut.local? frame index
  | global other => exact allBut.sees other fun same => differs other same rfl
  | host index => rw [Machine.root?, Machine.root?, allBut.host]

end AllBut

/-! ## Places -/

/-- A part of one place was replaced by another. -/
structure Rewritten (reference : Reference) (m m' : Machine) : Prop where
  elsewhere : ∀ {root}, root ≠ reference.root → m'.root? root = m.root? root
  here : ∃ whole part changed, m.root? reference.root = some whole ∧
    whole.replaceAt reference.path part = .ok changed ∧ m'.root? reference.root = some changed

theorem Rewritten.at? {other : Reference} (rewritten : m.Rewritten reference m')
    (missed : ¬ reference.Meets other) : m'.at? other = m.at? other := by
  by_cases same : other.root = reference.root
  · obtain ⟨whole, part, changed, before, done, after⟩ := rewritten.here
    have unseen : changed.descend other.path = whole.descend other.path := by
      refine Value.descend_replaceAt ?_ ?_ done
      · exact fun through => missed (.inr ⟨same, through⟩)
      · exact fun through => missed (.inl ⟨same.symm, through⟩)
    rw [Machine.at?, Machine.at?, same, before, after, Option.bind_some, Option.bind_some, unseen]
  · exact Machine.at?_congr (rewritten.elsewhere same)

theorem Rewritten.fills (rewritten : m.Rewritten reference m') (filled : m.Fills key) :
    m'.Fills key := by
  have seen : (m'.root? (.global key)).isSome = true := by
    by_cases same : RefRoot.global key = reference.root
    · obtain ⟨_, _, changed, _, _, after⟩ := rewritten.here
      rw [same, after]
      rfl
    · rw [rewritten.elsewhere same]
      exact filled
  exact seen

end Machine

end Custody
