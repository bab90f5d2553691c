import Custody.Ascending
/-!
# Sorted sets

Finite sets kept as their members in increasing order, each once. Loans, struct names and function
names are shown in this order, so it belongs to the type. Two sets with the same members are
therefore the same set, and a set that has grown from another is larger.
-/

namespace Custody

universe u v

/-- A finite set, by its members in increasing order. -/
structure SortedSet (α : Type u) [Ord α] where
  toList : List α
  ascending : Ascending id toList

namespace SortedSet

variable {α : Type u} [Ord α] {set left right : SortedSet α} {items : List α} {item other : α}

/-- The set without members. -/
def empty : SortedSet α := ⟨[], .nil⟩

instance : EmptyCollection (SortedSet α) := ⟨empty⟩

instance [DecidableEq α] : DecidableEq (SortedSet α) := fun left right =>
  decidable_of_iff (left.toList = right.toList) (by cases left; cases right; simp)

instance : Membership α (SortedSet α) := ⟨fun set item => item ∈ set.toList⟩

/-- Number of members. -/
def size (set : SortedSet α) : Nat := set.toList.length

def contains [DecidableEq α] (set : SortedSet α) (item : α) : Bool := decide (item ∈ set.toList)

/-- The members of `left` that are not in `right`. -/
def diff [DecidableEq α] (left right : SortedSet α) : SortedSet α :=
  ⟨left.toList.filter fun item => !right.contains item, left.ascending.filter _⟩

section Growing

variable [Std.TransOrd α] [Std.LawfulEqOrd α]

def insert (set : SortedSet α) (item : α) : SortedSet α :=
  ⟨insertByKey id item set.toList, set.ascending.insert item⟩

def union (left right : SortedSet α) : SortedSet α := right.toList.foldl insert left

def ofList (items : List α) : SortedSet α := items.foldl insert empty

end Growing

/-! ## Members -/

theorem mem_iff_mem_toList : item ∈ set ↔ item ∈ set.toList := Iff.rfl

@[simp] theorem contains_iff [DecidableEq α] : set.contains item = true ↔ item ∈ set := by
  simp [contains, mem_iff_mem_toList]

@[simp] theorem not_mem_empty (item : α) : ¬ item ∈ (∅ : SortedSet α) :=
  fun member => nomatch (mem_iff_mem_toList.mp member)

@[simp] theorem mem_diff [DecidableEq α] : item ∈ left.diff right ↔ item ∈ left ∧
    ¬ item ∈ right := by
  simp [diff, mem_iff_mem_toList, contains]

/-- Where each step of a fold adds what one part stands for, the fold adds what all parts stand
for. -/
theorem mem_foldl_of_adds {β : Type v} {source : β → Prop} {step : SortedSet α → β → SortedSet α}
    (adds : ∀ set part, item ∈ step set part ↔ item ∈ set ∨ source part) (parts : List β)
    (start : SortedSet α) :
    item ∈ parts.foldl step start ↔ item ∈ start ∨ ∃ part ∈ parts, source part := by
  induction parts generalizing start with
  | nil => simp
  | cons part rest ih =>
    rw [List.foldl_cons, ih, adds]
    simp [or_assoc]

/-- Sets with the same members are the same set. -/
theorem ext_mem [Std.TransOrd α] (same : ∀ item, item ∈ left ↔ item ∈ right) : left = right := by
  have listed : left.toList = right.toList := left.ascending.eq_of_mem_iff right.ascending same
  cases left
  cases right
  simpa using listed

theorem mem_insertByKey [Std.LawfulEqOrd α] :
    other ∈ insertByKey id item items ↔ other = item ∨ other ∈ items := by
  refine ⟨mem_of_mem_insertByKey, ?_⟩
  induction items with
  | nil => simp [insertByKey]
  | cons head tail ih =>
    simp only [insertByKey]
    split
    · exact List.mem_cons.mpr
    · rename_i equal
      have same : item = head := Std.LawfulEqOrd.eq_of_compare equal
      simp [same]
    · intro member
      by_cases here : other = head
      · exact here ▸ List.mem_cons_self
      · exact List.mem_cons_of_mem _
          (ih (member.imp_right fun inside => by simpa [here] using inside))

variable [Std.TransOrd α] [Std.LawfulEqOrd α]

@[simp] theorem mem_insert : other ∈ set.insert item ↔ other = item ∨ other ∈ set := mem_insertByKey

theorem mem_foldl_insert (items : List α) (set : SortedSet α) :
    item ∈ items.foldl insert set ↔ item ∈ set ∨ item ∈ items := by
  have adds : ∀ (set : SortedSet α) (other : α), item ∈ set.insert other ↔ item ∈ set ∨ item =
      other :=
    fun _ _ => mem_insert.trans or_comm
  simp [mem_foldl_of_adds adds]

@[simp] theorem mem_union : item ∈ left.union right ↔ item ∈ left ∨ item ∈ right :=
  mem_foldl_insert right.toList left

@[simp] theorem mem_ofList : item ∈ ofList items ↔ item ∈ items := by
  rw [ofList, mem_foldl_insert]
  exact or_iff_right (not_mem_empty item)

/-- A union has the size of its first part only if it adds nothing to it. -/
theorem size_union_eq_iff : (left.union right).size = left.size ↔ ∀ item ∈ right, item ∈ left := by
  constructor
  · intro same item added
    refine Classical.byContradiction fun absent => ?_
    have distinct : (item :: left.toList).Nodup :=
      List.nodup_cons.mpr ⟨absent, left.ascending.nodup⟩
    have within : item :: left.toList ⊆ (left.union right).toList := by
      intro other member
      rcases List.mem_cons.mp member with rfl | member
      · exact mem_union.mpr (.inr added)
      · exact mem_union.mpr (.inl member)
    have larger : left.size + 1 ≤ (left.union right).size := distinct.length_le_of_subset within
    omega
  · intro within
    have unchanged : left.union right = left :=
      ext_mem fun item => mem_union.trans (or_iff_left_iff_imp.mpr (within item))
    rw [unchanged]

end SortedSet

end Custody
