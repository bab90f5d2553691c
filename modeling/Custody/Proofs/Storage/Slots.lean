import Custody.Proofs.Storage.Transfer
/-!
# Commits in place

Storage shared by many transactions is a map of slots that commits change in place. A commit
reserves the slots that it is going to write before it looks whether a slot it touched is stale, so
that for a while the map has slots with nothing in them; one that finds a conflict, or that empties
slots, takes these out again. Here the phases are carried out one after another on such a map, and
compared with storage that keeps filled slots only and is replaced as a whole. The map backs the
storage throughout a commit: it has what the storage has, and besides only empty slots among those
that are still to be written or to be taken out. Every commit is over when none of them is left, and
then the map is that of the storage.
-/

namespace Custody

/-- A slot of the map. One that was put there to be written is empty and has version 0. -/
structure SlotState where
  version : Nat := 0
  value : Option Value := none

/-- Storage as a map that is changed in place. -/
structure SlotMap where
  slots : Table SlotKey SlotState := ∅
  clock : Nat := 0

/-- How a commit in place ends. -/
inductive Settlement where
  | answered (result : Except Failure Nat)
  /-- A slot was to be written that had not been reserved. -/
  | unreserved (key : SlotKey)

variable (map : SlotMap)

namespace SlotMap

/-- What a slot shows; one that is not there shows what an empty one does. -/
def read (key : SlotKey) : SlotState := (map.slots.get? key).getD {}

/-- Put something into a slot, with the next version. -/
def fill (key : SlotKey) (value : Option Value) : SlotMap :=
  ⟨map.slots.insert key ⟨map.clock + 1, value⟩, map.clock + 1⟩

/-- Publish a struct outside any transaction. -/
def seed (resource : Resource) : Except Failure SlotMap :=
  match resource.value.tag? with
  | none => .error (.invalidArgument (.notStorable resource.value.kind))
  | some tag =>
    let key : SlotKey := ⟨resource.address, tag⟩
    if (map.read key).value.isSome then .error (.alreadyExists key)
    else .ok (map.fill key (some resource.value))

/-- Every resource, by address and then by type; slots with nothing in them are passed over. Slots
are in this order in the table, so nothing is sorted here. -/
def snapshot : List Resource :=
  map.slots.entries.filterMap fun entry => entry.2.value.map fun value => ⟨entry.1.address, value⟩

/-- Make sure that a slot is there. -/
def reserve (key : SlotKey) : SlotMap :=
  if map.slots.contains key then map else { map with slots := map.slots.insert key {} }

/-- Take a slot out if it is empty. -/
def prune (key : SlotKey) : SlotMap :=
  match map.slots.get? key with
  | some slot => if slot.value.isSome then map else { map with slots := map.slots.erase key }
  | none => map

/-- Write slots that are there, up to the first that is not. -/
def publish (map : SlotMap) : List (SlotKey × Option Value) → Option SlotKey × SlotMap
  | [] => (none, map)
  | (key, value) :: rest =>
    if map.slots.contains key then (map.fill key value).publish rest else (some key, map)

end SlotMap

namespace Transaction

/-- The slots that the transaction is going to write. -/
def written (tx : Transaction) : List SlotKey := tx.writes.map (·.1)

/-- The slots that the transaction is going to leave empty. -/
def emptied (tx : Transaction) : List SlotKey := (tx.writes.filter (·.2.isNone)).map (·.1)

/-- The first touched slot whose version is not the one noted for it. -/
def staleIn? (tx : Transaction) (map : SlotMap) : Option SlotKey :=
  (tx.entries.entries.find? fun entry => (map.read entry.1).version ≠ entry.2.version).map (·.1)

/-- Commit, and storage as it is afterwards. -/
def settle (tx : Transaction) (store : Store) : Except Failure Nat × Store :=
  match tx.commit store with
  | .ok (written, after) => (.ok written, after)
  | .error failure => (.error failure, store)

theorem settle_eq (tx : Transaction) (store : Store) :
    tx.settle store =
      match tx.stale? store with
      | some key => (.error (.conflict key), store)
      | none => (.ok tx.writes.length, store.writeAll tx.writes) := by
  cases stale : tx.stale? store with
  | some key => simp only [settle, commit, stale]
  | none => simp only [settle, commit_eq stale]

end Transaction

/-- Reserve the slots to be written, look for a stale one, and then either take the reserved slots
out or write them and take out those that end up empty. -/
def SlotMap.commit (tx : Transaction) : Settlement × SlotMap :=
  let reserved := tx.written.foldl reserve map
  match tx.staleIn? reserved with
  | some key => (.answered (.error (.conflict key)), tx.written.foldl prune reserved)
  | none =>
    match reserved.publish tx.writes with
    | (some key, partly) => (.unreserved key, partly)
    | (none, published) => (.answered (.ok tx.writes.length), tx.emptied.foldl prune published)

/-! ## Storage as a map -/

/-- A slot that holds what a filled slot of storage holds. -/
def Cell.slot (cell : Cell) : SlotState := ⟨cell.version, some cell.value⟩

/-- Storage as a map, between commits. -/
def Store.inPlace (store : Store) : SlotMap :=
  ⟨store.slots.rewrite fun _ cell => cell.slot, store.clock⟩

namespace SlotMap

theorem get?_inPlace (store : Store) (key : SlotKey) :
    store.inPlace.slots.get? key = (store.slots.get? key).map Cell.slot :=
  Table.get?_rewrite _ store.slots key

theorem read_inPlace (store : Store) (key : SlotKey) :
    store.inPlace.read key = ⟨store.version key, store.get? key⟩ := by
  rw [read, get?_inPlace, Store.version, Store.get?]
  cases store.slots.get? key <;> rfl

theorem snapshot_inPlace (store : Store) : store.inPlace.snapshot = store.snapshot := by
  simp only [snapshot, Store.inPlace, Table.rewrite, List.filterMap_map]
  exact congrFun List.filterMap_eq_map store.slots.entries

/-- A seed in place does what a seed does. -/
theorem seed_inPlace (store : Store) (resource : Resource) :
    store.inPlace.seed resource = (store.seed resource).map Store.inPlace := by
  have filled (key : SlotKey) :
      store.inPlace.fill key (some resource.value) =
        (store.write key (some resource.value)).inPlace := by
    simp only [fill, Store.write, Store.inPlace, Table.rewrite_insert]
    rfl
  have occupied (key : SlotKey) : (store.inPlace.read key).value.isSome = store.contains key := by
    rw [read_inPlace]
    rfl
  unfold seed Store.seed
  cases resource.value.tag? with
  | none => rfl
  | some tag =>
    simp only [filled, occupied]
    by_cases held : store.contains ⟨resource.address, tag⟩ = true
    · rw [if_pos held, if_pos held]
      rfl
    · rw [if_neg held, if_neg held]
      rfl

/-! ## Maps that back storage -/

/-- The map has what storage has. Besides, there may be empty slots among the `spare` ones. -/
structure Backs (map : SlotMap) (store : Store) (spare : SlotKey → Prop) : Prop where
  clock : map.clock = store.clock
  slot : ∀ key, map.slots.get? key = (store.slots.get? key).map Cell.slot ∨
    spare key ∧ store.slots.get? key = none ∧ ∃ version, map.slots.get? key = some ⟨version, none⟩

section Backs

variable {map : SlotMap} {store : Store} {spare : SlotKey → Prop}

theorem inPlace_backs (store : Store) (spare : SlotKey → Prop) :
    store.inPlace.Backs store spare where
  clock := rfl
  slot := fun key => Or.inl (get?_inPlace store key)

variable (backs : map.Backs store spare)

include backs

/-- A map without spare slots is that of the storage. -/
theorem Backs.eq_inPlace (none : ∀ key, ¬ spare key) : map = store.inPlace := by
  have slots : map.slots = store.inPlace.slots := by
    refine Table.ext_get? fun key => ?_
    rcases backs.slot key with same | ⟨spared, _⟩
    · rw [same, get?_inPlace]
    · exact absurd spared (none key)
  have clocks := backs.clock
  obtain ⟨_, _⟩ := map
  rw [SlotMap.mk.injEq]
  exact ⟨slots, clocks⟩

/-! ## One slot at a time -/

/-- A slot that is reserved is spare. -/
theorem Backs.reserve {key : SlotKey} (spared : spare key) :
    (map.reserve key).Backs store spare := by
  unfold SlotMap.reserve
  split
  · exact backs
  · rename_i absent
    refine ⟨backs.clock, fun other => ?_⟩
    rw [Table.get?_insert]
    by_cases same : other = key
    · subst same
      have none : map.slots.get? other = none := by simpa [Table.contains] using absent
      rcases backs.slot other with empty | ⟨_, _, _, present⟩
      · rw [none] at empty
        exact Or.inr ⟨spared, Option.map_eq_none_iff.mp empty.symm, 0, if_pos rfl⟩
      · rw [none] at present
        cases present
    · rw [if_neg same]
      exact backs.slot other

/-- A slot that is pruned is spare no longer. -/
theorem Backs.prune (key : SlotKey) :
    (map.prune key).Backs store fun other => spare other ∧ other ≠ key := by
  -- What is there of the pruned slot decides: it is kept only where storage has the slot, too.
  have kept : (map.slots.get? key = (store.slots.get? key).map Cell.slot) →
      map.Backs store fun other => spare other ∧ other ≠ key := by
    intro exact
    refine ⟨backs.clock, fun other => ?_⟩
    by_cases same : other = key
    · exact Or.inl (same ▸ exact)
    · exact (backs.slot other).imp_right (And.imp_left fun spared => ⟨spared, same⟩)
  unfold SlotMap.prune
  rcases backs.slot key with whole | ⟨_, absent, version, empty⟩
  · cases held : store.slots.get? key <;>
      (rw [held] at whole
       simp only [whole]
       exact kept (by rw [whole, held]))
  · simp only [empty]
    refine ⟨backs.clock, fun other => ?_⟩
    simp only [Option.isSome_none, Bool.false_eq_true, if_false, Table.get?_erase]
    by_cases same : other = key
    · subst same
      exact Or.inl (by rw [if_pos rfl, absent]; rfl)
    · rw [if_neg same]
      exact (backs.slot other).imp_right (And.imp_left fun spared => ⟨spared, same⟩)

/-- A slot that is written holds what storage then holds, unless it is left empty. -/
theorem Backs.fill (key : SlotKey) (value : Option Value) :
    (map.fill key value).Backs (store.write key value) fun other =>
      spare other ∧ other ≠ key ∨ other = key ∧ value = none := by
  have clocks : map.clock + 1 = (store.write key value).clock := by
    rw [Store.clock_write, backs.clock]
  refine ⟨clocks, fun other => ?_⟩
  simp only [SlotMap.fill, Table.get?_insert, Store.slots_write]
  by_cases same : other = key
  · rw [if_pos same, if_pos same]
    cases value with
    | none => exact Or.inr ⟨Or.inr ⟨same, rfl⟩, rfl, map.clock + 1, rfl⟩
    | some value =>
      rw [backs.clock]
      exact Or.inl rfl
  · rw [if_neg same, if_neg same]
    exact (backs.slot other).imp_right (And.imp_left fun spared => Or.inl ⟨spared, same⟩)

theorem Backs.mono {more : SlotKey → Prop} (widen : ∀ key, spare key → more key) :
    map.Backs store more :=
  ⟨backs.clock, fun key => (backs.slot key).imp_right (And.imp_left (widen key))⟩

/-! ## Phases -/

theorem Backs.reserveAll {keys : List SlotKey} (spared : ∀ key ∈ keys, spare key) :
    (keys.foldl SlotMap.reserve map).Backs store spare := by
  induction keys generalizing map with
  | nil => exact backs
  | cons key keys ih =>
    obtain ⟨here, later⟩ := List.forall_mem_cons.mp spared
    exact ih (backs.reserve here) later

theorem Backs.pruneAll (keys : List SlotKey) :
    (keys.foldl SlotMap.prune map).Backs store fun key => spare key ∧ key ∉ keys := by
  induction keys generalizing map spare with
  | nil => exact backs.mono fun key spared => ⟨spared, List.not_mem_nil⟩
  | cons key keys ih =>
    refine (ih (backs.prune key)).mono fun other => ?_
    rintro ⟨⟨spared, differs⟩, absent⟩
    rw [List.mem_cons, not_or]
    exact ⟨spared, differs, absent⟩

omit backs

/-- Slots that are there can all be written, and only those left empty are spare afterwards. -/
theorem Backs.publish {writes : List (SlotKey × Option Value)}
    (backs : map.Backs store fun key => key ∈ writes.map (·.1) ∨ spare key)
    (reserved : ∀ write ∈ writes, map.slots.contains write.1 = true) :
    ∃ after, map.publish writes = (none, after) ∧
      after.Backs (store.writeAll writes) fun key => spare key ∨ (key, none) ∈ writes := by
  induction writes generalizing map store spare with
  | nil => exact ⟨map, rfl, backs.mono fun key spared =>
    Or.inl (spared.resolve_left List.not_mem_nil)⟩
  | cons write rest ih =>
    obtain ⟨key, value⟩ := write
    obtain ⟨here, later⟩ := List.forall_mem_cons.mp reserved
    have filled : (map.fill key value).Backs (store.write key value) fun other =>
        other ∈ rest.map (·.1) ∨ (spare other ∨ other = key ∧ value = none) := by
      refine (backs.fill key value).mono fun other => ?_
      rintro (⟨listed | spared, differs⟩ | emptied)
      · exact Or.inl ((List.mem_cons.mp listed).resolve_left differs)
      · exact Or.inr (Or.inl spared)
      · exact Or.inr (Or.inr emptied)
    obtain ⟨after, published, backs'⟩ := ih filled fun other listed => by
      have present := later other listed
      simp only [Table.contains, SlotMap.fill, Table.get?_insert] at present ⊢
      split
      · rfl
      · exact present
    refine ⟨after, ?_, backs'.mono fun other => ?_⟩
    · rw [SlotMap.publish, if_pos here]
      exact published
    · rintro ((spared | ⟨rfl, rfl⟩) | listed)
      · exact Or.inl spared
      · exact Or.inr List.mem_cons_self
      · exact Or.inr (List.mem_cons_of_mem _ listed)

end Backs

/-! ## Whole commits -/

/-- Reserving makes slots empty that were not there, and does nothing else. -/
theorem get?_reserveAll (keys : List SlotKey) (key : SlotKey) :
    (keys.foldl reserve map).slots.get? key =
      (map.slots.get? key).or (if key ∈ keys then some {} else none) := by
  induction keys generalizing map with
  | nil => simp
  | cons first keys ih =>
    rw [List.foldl_cons, ih, reserve]
    by_cases present : map.slots.contains first = true
    · rw [if_pos present]
      by_cases same : key = first
      · subst same
        obtain ⟨slot, found⟩ := Option.isSome_iff_exists.mp present
        simp [found]
      · simp [same]
    · rw [if_neg present]
      by_cases same : key = first
      · subst same
        have absent : map.slots.get? key = none := by simpa [Table.contains] using present
        simp [absent]
      · simp [same]

section Commit

variable (store : Store) (tx : Transaction)

theorem version_reserved (key : SlotKey) :
    ((tx.written.foldl reserve store.inPlace).read key).version = store.version key := by
  rw [read, get?_reserveAll, get?_inPlace, Store.version]
  cases store.slots.get? key with
  | some cell => rfl
  | none => by_cases listed : key ∈ tx.written <;> simp [listed]

/-- Reserving slots hides no conflict and makes none. -/
theorem staleIn?_reserved : tx.staleIn? (tx.written.foldl reserve store.inPlace) =
    tx.stale? store := by
  simp only [Transaction.staleIn?, Transaction.stale?, version_reserved]

theorem contains_reserved {write : SlotKey × Option Value} (listed : write ∈ tx.writes) :
    (tx.written.foldl reserve store.inPlace).slots.contains write.1 = true := by
  have inside : write.1 ∈ tx.written := List.mem_map.mpr ⟨write, listed, rfl⟩
  rw [Table.contains, get?_reserveAll, if_pos inside]
  cases store.inPlace.slots.get? write.1 <;> rfl

/-- A commit in place does what a commit does that replaces storage as a whole: after a conflict the
map is what it was, and otherwise it is that of the new storage. -/
theorem commit_inPlace :
    store.inPlace.commit tx = (.answered (tx.settle store).1, (tx.settle store).2.inPlace) := by
  -- Once the slots to be written are reserved, these and no others are spare.
  have backs : (tx.written.foldl reserve store.inPlace).Backs store (· ∈ tx.written) :=
    (inPlace_backs store _).reserveAll fun _ listed => listed
  rw [SlotMap.commit]
  simp only [staleIn?_reserved]
  cases stale : tx.stale? store with
  | some key =>
    have restored := (backs.pruneAll tx.written).eq_inPlace fun key spared => spared.2 spared.1
    simp only [restored, Transaction.settle_eq, stale]
  | none =>
    have unwritten : (tx.written.foldl reserve store.inPlace).Backs store
        fun key => key ∈ tx.writes.map (·.1) ∨ False := backs.mono fun _ listed => Or.inl listed
    obtain ⟨after, published, backs'⟩ :=
      unwritten.publish fun _ listed => contains_reserved store tx listed
    have pruned := (backs'.pruneAll tx.emptied).eq_inPlace (by
      rintro key ⟨spared, kept⟩
      have listed := spared.resolve_left not_false
      exact kept (List.mem_map.mpr ⟨(key, none), List.mem_filter.mpr ⟨listed, rfl⟩, rfl⟩))
    simp only [published, pruned, Transaction.settle_eq, stale]

end Commit

end SlotMap

end Custody
