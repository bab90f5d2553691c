/-!
# Lists in key order

Sets and tables are kept as lists in increasing order of a key, each key once. An item is put where
it belongs in one walk over the list, and the order is kept.
-/

namespace Custody

universe u v

variable {κ : Type u} {β : Type v} [Ord κ] {key : β → κ} {items others : List β} {item other : β}

/-- The items stand in increasing order of their keys, so that no key stands twice. -/
def Ascending (key : β → κ) (items : List β) : Prop :=
  items.Pairwise fun left right => compare (key left) (key right) = .lt

/-- Put an item before the first larger key; an item with the same key gives way. -/
def insertByKey (key : β → κ) (item : β) : List β → List β
  | [] => [item]
  | head :: tail =>
    match compare (key item) (key head) with
    | .lt => item :: head :: tail
    | .eq => item :: tail
    | .gt => head :: insertByKey key item tail

/-- What is in the list then is the item, or was there before. -/
theorem mem_of_mem_insertByKey (member : other ∈ insertByKey key item items) :
    other = item ∨ other ∈ items := by
  induction items with
  | nil => exact Or.inl (List.mem_singleton.mp member)
  | cons head tail ih =>
    simp only [insertByKey] at member
    split at member
    · exact List.mem_cons.mp member
    · exact (List.mem_cons.mp member).imp_right (List.mem_cons_of_mem _)
    · rcases List.mem_cons.mp member with rfl | later
      · exact Or.inr List.mem_cons_self
      · exact (ih later).imp_right (List.mem_cons_of_mem _)

namespace Ascending

/-- No key stands twice. -/
theorem nodup_keys [Std.ReflOrd κ] (ascending : Ascending key items) : (items.map key).Nodup := by
  refine List.pairwise_map.mpr (List.Pairwise.imp ?_ ascending)
  intro left right less same
  rw [same, Std.ReflOrd.compare_self] at less
  cases less

/-- No item stands twice. -/
theorem nodup [Std.ReflOrd κ] (ascending : Ascending key items) : items.Nodup :=
  (List.pairwise_map.mp ascending.nodup_keys).imp fun differ same => differ (congrArg key same)

/-- Two lists of the same items, both in key order, are the same list. -/
theorem eq_of_mem_iff [Std.TransOrd κ] (ascending : Ascending key items)
    (ascending' : Ascending key others) (same : ∀ item, item ∈ items ↔ item ∈ others) :
    items = others := by
  have perm : items.Perm others :=
    (List.perm_ext_iff_of_nodup ascending.nodup ascending'.nodup).mpr same
  refine perm.eq_of_pairwise ?_ ascending ascending'
  intro first second _ _ less greater
  exact absurd greater (Std.OrientedCmp.not_lt_of_lt less)

variable [Std.TransOrd κ] [Std.LawfulEqOrd κ]

/-- Putting an item where it belongs keeps the order. -/
theorem insert (item : β) (ascending : Ascending key items) :
    Ascending key (insertByKey key item items) := by
  induction items with
  | nil => exact List.pairwise_singleton ..
  | cons head tail ih =>
    obtain ⟨below, tailAscending⟩ := List.pairwise_cons.mp ascending
    simp only [insertByKey]
    split
    · rename_i less
      refine List.pairwise_cons.mpr ⟨fun other member => ?_, ascending⟩
      rcases List.mem_cons.mp member with rfl | later
      · exact less
      · exact Std.TransCmp.lt_trans less (below other later)
    · rename_i equal
      have same : key item = key head := Std.LawfulEqOrd.eq_of_compare equal
      exact List.pairwise_cons.mpr ⟨fun other later => same ▸ below other later, tailAscending⟩
    · rename_i larger
      refine List.pairwise_cons.mpr ⟨fun other member => ?_, ih tailAscending⟩
      rcases mem_of_mem_insertByKey member with rfl | later
      · exact Std.OrientedCmp.lt_of_gt larger
      · exact below other later

end Ascending

end Custody
