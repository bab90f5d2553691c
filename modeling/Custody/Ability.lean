/-!
# Abilities

An ability is a permission a type carries: its values may be copied, discarded, stored inside other
resources, or published under an address of their own. A set of abilities is four independent flags,
so set algebra is Boolean algebra flag by flag and equality of sets is decidable.
-/

namespace Custody

/-- A permission attached to a type. -/
inductive Ability where
  | copy
  | drop
  | store
  | key
deriving DecidableEq

namespace Ability

/-- Every ability, in the order in which sets are written. -/
def all : List Ability := [.copy, .drop, .store, .key]

/-- What each part of a value must carry for the whole to keep the ability: `key` needs `store` of
its parts, the others need themselves. -/
def requirement : Ability → Ability
  | .key => .store
  | ability => ability

def name : Ability → String
  | .copy => "copy"
  | .drop => "drop"
  | .store => "store"
  | .key => "key"

theorem mem_all (ability : Ability) : ability ∈ all := by
  cases ability <;> decide

end Ability

/-- A set of abilities, one flag for each. -/
structure AbilitySet where
  copy : Bool := false
  drop : Bool := false
  store : Bool := false
  key : Bool := false
deriving DecidableEq

namespace AbilitySet

def none : AbilitySet := {}

def all : AbilitySet := ⟨true, true, true, true⟩

/-- What plain data carries: truth values, integers and addresses. -/
def data : AbilitySet := ⟨true, true, true, false⟩

/-- What references carry. -/
def reference : AbilitySet := ⟨true, true, false, false⟩

/-- What signers carry: they may be discarded and nothing else. -/
def signer : AbilitySet := ⟨false, true, false, false⟩

variable (set : AbilitySet)

/-- Membership. -/
def has : Ability → Bool
  | .copy => set.copy
  | .drop => set.drop
  | .store => set.store
  | .key => set.key

def insert : Ability → AbilitySet
  | .copy => { set with copy := true }
  | .drop => { set with drop := true }
  | .store => { set with store := true }
  | .key => { set with key := true }

def erase : Ability → AbilitySet
  | .copy => { set with copy := false }
  | .drop => { set with drop := false }
  | .store => { set with store := false }
  | .key => { set with key := false }

def singleton (ability : Ability) : AbilitySet := none.insert ability

def union (left right : AbilitySet) : AbilitySet :=
  ⟨left.copy || right.copy, left.drop || right.drop, left.store || right.store,
    left.key || right.key⟩

def inter (left right : AbilitySet) : AbilitySet :=
  ⟨left.copy && right.copy, left.drop && right.drop, left.store && right.store,
    left.key && right.key⟩

/-- The abilities of `left` that `right` lacks. -/
def diff (left right : AbilitySet) : AbilitySet :=
  ⟨left.copy && !right.copy, left.drop && !right.drop, left.store && !right.store,
    left.key && !right.key⟩

def isEmpty : Bool := set == none

def subset (left right : AbilitySet) : Bool := (left.diff right).isEmpty

/-- The members, in the order of `Ability.all`. -/
def toList : List Ability := Ability.all.filter set.has

def ofList (abilities : List Ability) : AbilitySet := abilities.foldl insert none

/-- Sets compare as numbers with `copy` in the lowest bit and `key` in the highest. -/
def rank : Nat :=
  set.copy.toNat + 2 * set.drop.toNat + 4 * set.store.toNat + 8 * set.key.toNat

/-- The members between braces, separated by a comma and a blank. -/
def render : String :=
  "\x7b" ++ ", ".intercalate (set.toList.map Ability.name) ++ "\x7d"

theorem ext_has {left right : AbilitySet} (same : ∀ ability, left.has ability = right.has ability) :
    left = right := by
  cases left
  cases right
  simp only [mk.injEq]
  exact ⟨same .copy, same .drop, same .store, same .key⟩

@[simp] theorem has_none (ability : Ability) : none.has ability = false := by
  cases ability <;> rfl

@[simp] theorem has_inter (left right : AbilitySet) (ability : Ability) :
    (left.inter right).has ability = (left.has ability && right.has ability) := by
  cases ability <;> rfl

@[simp] theorem has_diff (left right : AbilitySet) (ability : Ability) :
    (left.diff right).has ability = (left.has ability && !right.has ability) := by
  cases ability <;> rfl

theorem has_insert (added ability : Ability) :
    (set.insert added).has ability = (decide (ability = added) || set.has ability) := by
  cases added <;> cases ability <;> simp [insert, has]

theorem subset_iff (left right : AbilitySet) :
    left.subset right = true ↔ ∀ ability, left.has ability = true → right.has ability = true := by
  simp only [subset, isEmpty, beq_iff_eq]
  constructor
  · intro empty ability held
    have absent : (left.diff right).has ability = false := by rw [empty]; exact has_none ability
    simpa [held] using absent
  · intro within
    apply ext_has
    intro ability
    simp only [has_diff, has_none]
    cases held : left.has ability
    · rfl
    · simp [within ability held]

theorem mem_toList (ability : Ability) : ability ∈ set.toList ↔ set.has ability = true := by
  simp [toList, Ability.mem_all]

end AbilitySet

end Custody
