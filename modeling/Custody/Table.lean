import Custody.Ascending
/-!
# Tables

A finite map kept as its entries in increasing key order. Listing a table therefore needs no
sorting, and two tables built in different orders from the same entries list them alike. Every
operation is described by what `get?` answers afterwards.
-/

namespace Custody

universe u v

/-- A finite map, by its entries in increasing key order. -/
structure Table (κ : Type u) (α : Type v) [Ord κ] where
  entries : List (κ × α)
  ascending : Ascending Prod.fst entries

namespace Table

variable {κ : Type u} {α : Type v} [Ord κ] {table left right : Table κ α} {key : κ} {value : α}

/-- The table without entries. -/
def empty : Table κ α := ⟨[], .nil⟩

instance : EmptyCollection (Table κ α) := ⟨empty⟩

/-- The value of the first entry with this key. -/
def find [DecidableEq κ] (key : κ) : List (κ × α) → Option α
  | [] => none
  | (head, value) :: tail => if key = head then some value else find key tail

def get? [DecidableEq κ] (table : Table κ α) (key : κ) : Option α := find key table.entries

def contains [DecidableEq κ] (table : Table κ α) (key : κ) : Bool := (table.get? key).isSome

def erase [DecidableEq κ] (table : Table κ α) (key : κ) : Table κ α :=
  ⟨table.entries.filter fun entry => decide (entry.1 ≠ key), table.ascending.filter _⟩

/-- The entries whose key and value pass the test. -/
def filter (keep : κ → α → Bool) (table : Table κ α) : Table κ α :=
  ⟨table.entries.filter fun entry => keep entry.1 entry.2, table.ascending.filter _⟩

/-- The table with every value rewritten. -/
def rewrite {β : Type v} (change : κ → α → β) (table : Table κ α) : Table κ β :=
  ⟨table.entries.map fun entry => (entry.1, change entry.1 entry.2),
    by exact List.pairwise_map.mpr table.ascending⟩

/-- The keys, in order. -/
def keys (table : Table κ α) : List κ := table.entries.map (·.1)

/-- The values, in the order of their keys. -/
def values (table : Table κ α) : List α := table.entries.map (·.2)

/-- Number of entries. -/
def size (table : Table κ α) : Nat := table.entries.length

def isEmpty (table : Table κ α) : Bool := table.entries.isEmpty

section Growing

variable [Std.TransOrd κ] [Std.LawfulEqOrd κ]

def insert (table : Table κ α) (key : κ) (value : α) : Table κ α :=
  ⟨insertByKey Prod.fst (key, value) table.entries, table.ascending.insert _⟩

/-- A table of the given entries; of two with one key the later stays. -/
def ofList (entries : List (κ × α)) : Table κ α :=
  entries.foldl (fun table entry => table.insert entry.1 entry.2) empty

end Growing

/-- No key stands twice. -/
theorem nodup_keys [Std.ReflOrd κ] (table : Table κ α) :
    table.keys.Nodup := table.ascending.nodup_keys

/-! ## Look-up -/

variable [DecidableEq κ]

@[simp] theorem get?_empty (key : κ) : (∅ : Table κ α).get? key = none := rfl

theorem get?_eq_find? (table : Table κ α) (key : κ) :
    table.get? key = (table.entries.find? (·.1 = key)).map (·.2) := by
  simp only [get?]
  induction table.entries with
  | nil => rfl
  | cons entry tail ih => by_cases same : entry.1 = key <;> simp [find, same, Ne.symm, ih]

/-- Keeping entries by their keys keeps look-up for the kept keys and loses it for the others. -/
theorem get?_filter_key (keep : κ → Bool) (table : Table κ α) (key : κ) :
    (table.filter fun key _ => keep key).get? key = if keep key then table.get? key else none := by
  have same : (fun entry : κ × α => keep entry.1 && decide (entry.1 = key)) =
      fun entry => keep key && decide (entry.1 = key) := by
    funext entry
    by_cases here : entry.1 = key <;> simp [here]
  simp only [get?_eq_find?, filter, List.find?_filter, Bool.decide_and, Bool.decide_eq_true, same]
  cases keep key <;> simp

@[simp] theorem get?_erase (table : Table κ α) (key other : κ) :
    (table.erase key).get? other = if other = key then none else table.get? other := by
  refine (get?_filter_key (fun other => decide (other ≠ key)) table other).trans ?_
  simp only [decide_eq_true_eq, ite_not]

/-- What look-up finds is listed. -/
theorem mem_entries_of_get? (found : table.get? key = some value) :
    (key, value) ∈ table.entries := by
  rw [get?_eq_find?, Option.map_eq_some_iff] at found
  obtain ⟨⟨_, _⟩, listed, rfl⟩ := found
  obtain rfl : _ = key := by simpa using List.find?_some listed
  exact List.mem_of_find?_eq_some listed

theorem mem_keys_of_get? (found : table.get? key = some value) : key ∈ table.keys :=
  List.mem_map.mpr ⟨(key, value), mem_entries_of_get? found, rfl⟩

theorem mem_values_of_get? (found : table.get? key = some value) : value ∈ table.values :=
  List.mem_map.mpr ⟨(key, value), mem_entries_of_get? found, rfl⟩

variable [Std.TransOrd κ] [Std.LawfulEqOrd κ]

@[simp] theorem get?_insert (table : Table κ α) (key other : κ) (value : α) :
    (table.insert key value).get? other = if other = key then some value else table.get? other := by
  simp only [get?, insert]
  induction table.entries with
  | nil => rfl
  | cons entry tail ih =>
    simp only [insertByKey]
    split
    · simp [find]
    · rename_i equal
      have same : key = entry.1 := Std.LawfulEqOrd.eq_of_compare equal
      by_cases found : other = key <;> simp [find, ← same, found]
    · rename_i larger
      have differ : entry.1 ≠ key := by
        rintro rfl
        simp [Std.ReflOrd.compare_self] at larger
      by_cases found : other = entry.1
      · simp [find, found, differ]
      · simp [find, found, ih]

end Table

end Custody
