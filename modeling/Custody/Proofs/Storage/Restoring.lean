import Custody.Proofs.Storage.Atomicity
/-!
# Storage from a list of resources

Storage is restored by seeding the resources of a list one after another. That succeeds for lists of
structs of which no two belong into one slot, and such a list is what the storage then lists, by
address and type. Since slots are in a strict order, there is one such list only, whatever the order
of the resources was.
-/

namespace Custody

variable {resources : List Resource} {store : Store} {resource : Resource}

namespace Resource

/-- Where a resource belongs; none but structs have a place. -/
def place (resource : Resource) : Address × Option StructTag :=
  (resource.address, resource.value.tag?)

/-- The order of slots, for structs. -/
def Before (left right : Resource) : Prop :=
  ∃ tag tag', left.value.tag? = some tag ∧ right.value.tag? = some tag' ∧
    compare (⟨left.address, tag⟩ : SlotKey) ⟨right.address, tag'⟩ = .lt

theorem Before.place_ne {left right : Resource} (before : left.Before right) :
    left.place ≠ right.place := by
  obtain ⟨tag, tag', tagged, tagged', less⟩ := before
  intro same
  obtain ⟨address, tags⟩ := Prod.mk.inj same
  rw [tagged, tagged', Option.some.injEq] at tags
  rw [address, tags, Std.ReflOrd.compare_self] at less
  cases less

theorem Before.asymm {left right : Resource} (before : left.Before right) :
    ¬ right.Before left := by
  rintro ⟨tag', tag, tagged', tagged, greater⟩
  obtain ⟨first, second, tagged₁, tagged₂, less⟩ := before
  rw [tagged, Option.some.injEq] at tagged₁
  rw [tagged', Option.some.injEq] at tagged₂
  subst tagged₁ tagged₂
  exact Std.OrientedCmp.not_lt_of_lt less greater

/-- There is only one way to put resources in order. -/
theorem eq_of_perm_of_before {resources others : List Resource} (perm : resources.Perm others)
    (sorted : resources.Pairwise Before) (sorted' : others.Pairwise Before) : resources = others :=
  perm.eq_of_pairwise (fun _ _ _ _ before after => absurd after before.asymm) sorted sorted'

end Resource

theorem Value.kind_eq_struct_iff {value : Value} : value.kind = .struct ↔ ∃ tag, value.tag? =
    some tag := by
  cases value <;> simp [kind, tag?]

namespace Store

/-- Every slot holds a struct of its own type. -/
def Filed (store : Store) : Prop := ∀ key value, store.get? key = some value → value.tag? =
    some key.tag

theorem Filed.tag_of_mem (filed : store.Filed) {entry : SlotKey × Cell}
    (listed : entry ∈ store.slots.entries) : entry.2.value.tag? = some entry.1.tag := by
  refine filed entry.1 entry.2.value ?_
  rw [get?, Table.get?_of_mem listed]
  rfl

/-- Storage lists its resources in order. -/
theorem Filed.before_snapshot (filed : store.Filed) : store.snapshot.Pairwise Resource.Before := by
  rw [snapshot, List.pairwise_map]
  exact List.Pairwise.imp_of_mem (fun listed listed' less =>
    ⟨_, _, filed.tag_of_mem listed, filed.tag_of_mem listed', less⟩) store.slots.ascending

/-! ## Seeding -/

/-- Storage into which these resources were seeded, in whatever order. -/
structure Restored (resources : List Resource) (store : Store) : Prop where
  filed : store.Filed
  listed : store.snapshot.Perm resources

theorem restored_empty : Restored [] ∅ where
  filed := fun _ _ held => by cases held
  listed := List.Perm.refl _

theorem Restored.seed {store after : Store} (restored : Restored resources store)
    (seeded : store.seed resource = .ok after) : Restored (resource :: resources) after := by
  obtain ⟨tag, tagged, empty, rfl⟩ := seed_ok_iff.mp seeded
  refine ⟨fun key value held => ?_, ?_⟩
  · rw [get?_write] at held
    split at held
    · rename_i same
      rw [← Option.some.inj held, same, tagged]
    · exact restored.filed key value held
  · have absent : store.slots.get? ⟨resource.address, tag⟩ = none := Option.map_eq_none_iff.mp empty
    refine ((Table.perm_insert_of_absent _ absent).map _).trans ?_
    exact restored.listed.cons _

theorem seedAll_cons_ok_iff {store after : Store} :
    (resource :: resources).foldlM seed store = .ok after ↔
      ∃ next, store.seed resource = .ok next ∧ resources.foldlM seed next = .ok after := by
  rw [List.foldlM_cons]
  cases store.seed resource with
  | ok next => simp [bind, Except.bind]
  | error failure => simp [bind, Except.bind]

theorem Restored.seedAll {earlier resources : List Resource} {store after : Store}
    (restored : Restored earlier store) (seeded : resources.foldlM Store.seed store = .ok after) :
    Restored (resources ++ earlier) after := by
  induction resources generalizing store earlier with
  | nil => exact Except.ok.inj seeded ▸ restored
  | cons resource resources ih =>
    obtain ⟨next, first, rest⟩ := seedAll_cons_ok_iff.mp seeded
    obtain ⟨filed, listed⟩ := ih (restored.seed first) rest
    exact ⟨filed, listed.trans List.perm_middle⟩

/-- The resource is a struct, and its slot is empty. -/
def HasRoom (store : Store) (resource : Resource) : Prop :=
  ∃ tag, resource.value.tag? = some tag ∧ store.get? ⟨resource.address, tag⟩ = none

theorem exists_seed_ok_iff : (∃ after, store.seed resource = .ok after) ↔ store.HasRoom
    resource := by
  simp only [seed_ok_iff, HasRoom]
  constructor
  · rintro ⟨_, tag, tagged, empty, _⟩
    exact ⟨tag, tagged, empty⟩
  · rintro ⟨tag, tagged, empty⟩
    exact ⟨_, tag, tagged, empty, rfl⟩

/-- A seed takes the room for resources with the same place, and for no others. -/
theorem hasRoom_of_seed {store after : Store} (seeded : store.seed resource = .ok after)
    (other : Resource) :
    after.HasRoom other ↔ store.HasRoom other ∧ resource.place ≠ other.place := by
  obtain ⟨tag, tagged, _, rfl⟩ := seed_ok_iff.mp seeded
  have same_iff {tag' : StructTag} (tagged' : other.value.tag? = some tag') :
      (⟨other.address, tag'⟩ : SlotKey) = ⟨resource.address, tag⟩ ↔
        resource.place = other.place := by
    rw [SlotKey.mk.injEq, Resource.place, Resource.place, Prod.mk.injEq, tagged, tagged',
      Option.some.injEq]
    exact and_congr eq_comm eq_comm
  constructor
  · rintro ⟨tag', tagged', unfilled⟩
    rw [get?_write] at unfilled
    split at unfilled
    · cases unfilled
    · rename_i differs
      exact ⟨⟨tag', tagged', unfilled⟩, mt (same_iff tagged').mpr differs⟩
  · rintro ⟨⟨tag', tagged', unfilled⟩, differs⟩
    refine ⟨tag', tagged', ?_⟩
    rw [get?_write, if_neg (mt (same_iff tagged').mp differs), unfilled]

/-- Seeding succeeds if there is room for each resource, and no two have the same place. -/
theorem exists_seedAll_ok_iff :
    (∃ after, resources.foldlM seed store = .ok after) ↔
      (∀ resource ∈ resources, store.HasRoom resource) ∧
      resources.Pairwise fun left right => left.place ≠ right.place := by
  induction resources generalizing store with
  | nil => exact ⟨fun _ => ⟨by simp, List.Pairwise.nil⟩, fun _ => ⟨store, rfl⟩⟩
  | cons resource resources ih =>
    rw [List.forall_mem_cons, List.pairwise_cons]
    constructor
    · rintro ⟨after, seeded⟩
      obtain ⟨next, first, rest⟩ := seedAll_cons_ok_iff.mp seeded
      obtain ⟨room, distinct⟩ := ih.mp ⟨after, rest⟩
      have both (other : Resource) (listed : other ∈ resources) :=
        (hasRoom_of_seed first other).mp (room other listed)
      exact ⟨⟨exists_seed_ok_iff.mp ⟨next, first⟩, fun other listed => (both other listed).1⟩,
        fun other listed => (both other listed).2, distinct⟩
    · rintro ⟨⟨here, room⟩, apart, distinct⟩
      obtain ⟨next, first⟩ := exists_seed_ok_iff.mpr here
      obtain ⟨after, rest⟩ : ∃ after, resources.foldlM seed next = .ok after :=
        ih.mpr ⟨fun other listed =>
          (hasRoom_of_seed first other).mpr ⟨room other listed, apart other listed⟩, distinct⟩
      exact ⟨after, seedAll_cons_ok_iff.mpr ⟨next, first, rest⟩⟩

/-! ## Restoring -/

theorem exists_ofSnapshot_ok_iff :
    (∃ store, ofSnapshot resources = .ok store) ↔
      (∀ resource ∈ resources, resource.value.kind = .struct) ∧
      resources.Pairwise fun left right => left.place ≠ right.place := by
  rw [ofSnapshot, exists_seedAll_ok_iff]
  refine and_congr_left fun _ => forall_congr' fun resource => imp_congr_right fun _ => ?_
  rw [Value.kind_eq_struct_iff]
  exact exists_congr fun tag => and_iff_left rfl

theorem restored_ofSnapshot (restored : ofSnapshot resources = .ok store) :
    Restored resources store := by
  have done := restored_empty.seedAll restored
  rwa [List.append_nil] at done

/-- The order of the resources does not matter. -/
theorem ofSnapshot_perm {resources others : List Resource} (perm : others.Perm resources)
    (restored : ofSnapshot resources = .ok store) :
    ∃ again, ofSnapshot others = .ok again ∧ again.snapshot = store.snapshot := by
  obtain ⟨structs, distinct⟩ := exists_ofSnapshot_ok_iff.mp ⟨store, restored⟩
  obtain ⟨again, restored'⟩ : ∃ again, ofSnapshot others = .ok again :=
    exists_ofSnapshot_ok_iff.mpr ⟨fun resource listed => structs resource (perm.mem_iff.mp listed),
      (perm.pairwise_iff fun differ => differ.symm).mpr distinct⟩
  obtain ⟨filed, listed⟩ := restored_ofSnapshot restored
  obtain ⟨filed', listed'⟩ := restored_ofSnapshot restored'
  refine ⟨again,
    restored', Resource.eq_of_perm_of_before ?_ filed'.before_snapshot filed.before_snapshot⟩
  exact listed'.trans (perm.trans listed.symm)

/-- Storage whose slots hold structs of their own types is filled alike from what it lists. -/
theorem Filed.ofSnapshot_snapshot (filed : store.Filed) :
    ∃ again, ofSnapshot store.snapshot = .ok again ∧ again.snapshot = store.snapshot := by
  have ordered := filed.before_snapshot
  obtain ⟨again, restored⟩ : ∃ again, ofSnapshot store.snapshot = .ok again := by
    refine exists_ofSnapshot_ok_iff.mpr
      ⟨fun resource listed => ?_, ordered.imp Resource.Before.place_ne⟩
    obtain ⟨entry, member, rfl⟩ := List.mem_map.mp listed
    exact Value.kind_eq_struct_iff.mpr ⟨entry.1.tag, filed.tag_of_mem member⟩
  obtain ⟨filed', listed⟩ := restored_ofSnapshot restored
  exact ⟨again, restored, Resource.eq_of_perm_of_before listed filed'.before_snapshot ordered⟩

end Store

/-- Restoring: a list of resources is accepted exactly if all are structs and no two have the same
address and type. Storage then lists these resources, strictly by address and type, which determines
the list and makes the order of the resources immaterial. Any storage whose slots hold structs of
their own types lists its resources in this order, and is restored from what it lists. -/
theorem restoring_sorts_resources (resources : List Resource) :
    ((∃ store, Store.ofSnapshot resources = .ok store) ↔
      (∀ resource ∈ resources, resource.value.kind = .struct) ∧
      resources.Pairwise fun left right =>
        (left.address, left.value.tag?) ≠ (right.address, right.value.tag?)) ∧
    (∀ store, Store.ofSnapshot resources = .ok store →
      store.snapshot.Perm resources ∧ store.snapshot.Pairwise Resource.Before ∧
      (∀ sorted, sorted.Perm resources → sorted.Pairwise Resource.Before →
        store.snapshot = sorted) ∧
      ∀ others, others.Perm resources →
        ∃ again, Store.ofSnapshot others = .ok again ∧ again.snapshot = store.snapshot) ∧
    ∀ store : Store, store.Filed → store.snapshot.Pairwise Resource.Before ∧
      ∃ again, Store.ofSnapshot store.snapshot = .ok again ∧ again.snapshot = store.snapshot := by
  refine ⟨Store.exists_ofSnapshot_ok_iff, fun store restored => ?_,
    fun store filed => ⟨filed.before_snapshot, filed.ofSnapshot_snapshot⟩⟩
  obtain ⟨filed, listed⟩ := Store.restored_ofSnapshot restored
  have before := filed.before_snapshot
  refine ⟨listed, before, fun sorted perm before' => ?_, fun others perm => ?_⟩
  · exact Resource.eq_of_perm_of_before (listed.trans perm.symm) before before'
  · exact Store.ofSnapshot_perm perm restored

end Custody
