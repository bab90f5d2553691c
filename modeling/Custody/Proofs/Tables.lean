import Custody.SortedSet
import Custody.Table
/-!
# Tables and their listings

Look-up is described beside the operations of a table. Here is what its listing says: an entry is
listed exactly if look-up finds it. A table is therefore settled by its answers, and it does not
matter in which order entries with different keys were put into it.
-/

namespace Custody

universe u v w

namespace Table

variable {κ : Type u} {α : Type v} [Ord κ] {entries : List (κ × α)} {table left right : Table κ α}
  {key : κ} {value : α}

/-! ## Look-up and listing -/

section Named

variable {κ : Type u} [DecidableEq κ] {ι : Type w} {name : ι → κ} {items others : List ι} {item : ι}
  {key : κ}

theorem name_of_find? (found : items.find? (name · = key) = some item) : name item = key := by
  simpa using List.find?_some found

/-- Where every item has a name of its own, an item is found under its name. -/
theorem find?_of_mem (distinct : (items.map name).Nodup) (listed : item ∈ items) :
    items.find? (name · = name item) = some item := by
  induction items with
  | nil => cases listed
  | cons head rest ih =>
    obtain ⟨new, others⟩ := List.nodup_cons.mp distinct
    rcases List.mem_cons.mp listed with rfl | later
    · simp
    · have differs : name head ≠ name item := fun same => new (same ▸ List.mem_map_of_mem later)
      simp [differs, ih others later]

theorem find?_perm (distinct : (items.map name).Nodup) (perm : items.Perm others) (key : κ) :
    items.find? (name · = key) = others.find? (name · = key) := by
  have distinct' := (perm.map name).nodup_iff.mp distinct
  cases found : items.find? (name · = key) with
  | none =>
    refine (List.find?_eq_none.mpr fun item listed => ?_).symm
    exact List.find?_eq_none.mp found item (perm.mem_iff.mpr listed)
  | some item =>
    obtain rfl := name_of_find? found
    exact (find?_of_mem distinct' (perm.mem_iff.mp (List.mem_of_find?_eq_some found))).symm

end Named

/-- A table of entries holds no others. -/
theorem mem_of_mem_ofList [Std.TransOrd κ] [Std.LawfulEqOrd κ] {entry : κ × α}
    (listed : entry ∈ (ofList entries).entries) : entry ∈ entries := by
  refine List.foldlRecOn (motive := fun table : Table κ α => ∀ entry ∈ table.entries,
    entry ∈ entries) entries _ (fun _ nothing => absurd nothing List.not_mem_nil) ?_ entry listed
  intro table known entry inside other placed
  rcases mem_of_mem_insertByKey placed with rfl | earlier
  · exact inside
  · exact known other earlier

variable [DecidableEq κ]

@[simp] theorem get?_rewrite {β : Type v} (change : κ → α → β) (table : Table κ α) (key : κ) :
    (table.rewrite change).get? key = (table.get? key).map (change key) := by
  simp only [get?_eq_find?, rewrite, List.find?_map, Option.map_map, Function.comp_def]
  refine Option.map_congr fun entry found => ?_
  obtain rfl := name_of_find? found
  rfl

variable [Std.TransOrd κ]

/-- What is listed is found. -/
theorem get?_of_mem (member : (key, value) ∈ table.entries) : table.get? key = some value := by
  rw [get?_eq_find?, find?_of_mem table.nodup_keys member]
  rfl

/-- Tables that answer every look-up alike are the same table. -/
theorem ext_get? (same : ∀ key, left.get? key = right.get? key) : left = right := by
  have listed : left.entries = right.entries := by
    refine left.ascending.eq_of_mem_iff right.ascending ?_
    rintro ⟨key, value⟩
    constructor
    · intro listed
      exact mem_entries_of_get? ((same key).symm.trans (get?_of_mem listed))
    · intro listed
      exact mem_entries_of_get? ((same key).trans (get?_of_mem listed))
  cases left
  cases right
  simpa using listed

variable [Std.LawfulEqOrd κ]

theorem rewrite_insert {β : Type v} (change : κ → α → β) (table : Table κ α) (key : κ) (value : α) :
    (table.insert key value).rewrite change = (table.rewrite change).insert key
    (change key value) := by
  refine ext_get? fun other => ?_
  by_cases here : other = key <;> simp [here]

/-- A new entry is added to those that there were. -/
theorem perm_insert_of_absent (value : α) (absent : table.get? key = none) :
    (table.insert key value).entries.Perm ((key, value) :: table.entries) := by
  have new : (key, value) ∉ table.entries := fun listed => by simp [get?_of_mem listed] at absent
  refine (List.perm_ext_iff_of_nodup (table.insert key value).ascending.nodup
    (List.nodup_cons.mpr ⟨new, table.ascending.nodup⟩)).mpr ?_
  rintro ⟨other, old⟩
  constructor
  · intro listed
    have found := get?_of_mem listed
    rw [get?_insert] at found
    split at found
    · rename_i same
      rw [same, ← Option.some.inj found]
      exact List.mem_cons_self
    · exact List.mem_cons_of_mem _ (mem_entries_of_get? found)
  · intro listed
    apply mem_entries_of_get?
    rcases List.mem_cons.mp listed with same | earlier
    · simp [(Prod.mk.inj same).1, (Prod.mk.inj same).2]
    · have found := get?_of_mem earlier
      rw [get?_insert, if_neg, found]
      rintro rfl
      simp [found] at absent

/-! ## Tables of listed entries -/

section Named

variable {ι : Type w} {name : ι → κ} {value : ι → α} {items others : List ι}

/-- Items with names of their own that are put into a table are found there under their names. -/
theorem get?_foldl_insert (distinct : (items.map name).Nodup) (table : Table κ α) (key : κ) :
    (items.foldl (fun table item => table.insert (name item) (value item)) table).get? key =
      ((items.find? (name · = key)).map value).or (table.get? key) := by
  induction items generalizing table with
  | nil => rfl
  | cons head rest ih =>
    obtain ⟨new, others⟩ := List.nodup_cons.mp distinct
    rw [List.foldl_cons, ih others, get?_insert]
    by_cases here : name head = key
    · have absent : rest.find? (name · = key) = none := by
        refine List.find?_eq_none.mpr fun item listed same => ?_
        exact new ((of_decide_eq_true same).trans here.symm ▸ List.mem_map_of_mem listed)
      simp [here, absent]
    · simp [here, Ne.symm here]

/-- The order in which entries with different keys are put into a table does not matter. -/
theorem foldl_insert_perm (table : Table κ α) (distinct : (items.map name).Nodup)
    (perm : items.Perm others) (value : ι → α) :
    items.foldl (fun table item => table.insert (name item) (value item)) table =
      others.foldl (fun table item => table.insert (name item) (value item)) table := by
  refine ext_get? fun key => ?_
  rw [get?_foldl_insert distinct, get?_foldl_insert ((perm.map name).nodup_iff.mp distinct),
    find?_perm distinct perm]

end Named

/-- A table of entries with different keys holds all of them. -/
theorem get?_ofList_of_mem (distinct : (entries.map (·.1)).Nodup)
    (member : (key, value) ∈ entries) : (ofList entries).get? key = some value := by
  rw [ofList, get?_foldl_insert distinct, find?_of_mem distinct member]
  rfl

end Table

end Custody
