import Custody.Proofs.Types.Abilities
import Custody.Proofs.Values.Structs
/-!
# Values that weigh nothing

The declarations of an accepted universe keep the promise of their abilities: if structs without
`copy` and `drop` alone have a weight, then values that may be copied or dropped weigh nothing.
-/

namespace Custody

variable {ability : Ability}

/-- Only structs that may be neither copied nor dropped have a weight. -/
def Universe.Weighs (u : Universe) (weight : StructId → Nat) : Prop :=
  ∀ id struct, u.struct? id = some struct →
    (struct.abilities.copy = true ∨ struct.abilities.drop = true) → weight id = 0

/-- The abilities that let a value be there more often, or less often, than it was made. -/
def Ability.isLoose : Ability → Bool
  | .copy | .drop => true
  | .store | .key => false

theorem Ability.requirement_of_isLoose (loose : ability.isLoose = true) :
    ability.requirement = ability := by
  cases ability <;> simp_all [isLoose, requirement]

namespace Value

theorem weighAll_eq_zero {weight : StructId → Nat} {values : List Value}
    (each : ∀ value ∈ values, value.weigh weight = 0) : weighAll weight values = 0 := by
  rw [weighAll_eq_sum]
  exact List.sum_eq_zero (List.forall_mem_map.mpr each)

section Weightless

variable {u : Universe} {weight : StructId → Nat} (accepted : u.Accepted) (weighs : u.Weighs weight)
  (loose : ability.isLoose = true)

include accepted weighs loose

/-- A value that may be copied or dropped weighs nothing. -/
theorem weigh_eq_zero : (value : Value) → (ty : Ty) →
    u.isPlain 0 ty = true → value.conformsTo u ty = true →
    (u.abilities [] ty).has ability = true → value.weigh weight = 0 := by
  refine induction_of_plain (p := fun ty value => (u.abilities [] ty).has ability = true →
    value.weigh weight = 0) accepted ?atom ?vector ?struct
  case atom =>
    intro ty value atom _
    cases value <;> first | rfl | cases atom
  case vector =>
    intro elem items each has
    simp only [Universe.abilities, AbilitySet.has_inter, Bool.and_eq_true] at has
    exact weighAll_eq_zero fun item member => each item member has.1
  case struct =>
    intro tag struct fields _ found count each has
    have kept := ((Universe.has_abilities_struct_iff found).mp has).1
    have light : weight tag.id = 0 := by
      refine weighs tag.id struct found ?_
      cases ability with
      | copy => exact .inl kept
      | drop => exact .inr kept
      | store => cases loose
      | key => cases loose
    simp only [weigh, light, Nat.zero_add]
    refine weighAll_eq_zero fun value member => ?_
    obtain ⟨field, listed, zero⟩ := each value member
    exact zero (accepted.has_field (Ability.requirement_of_isLoose loose) found count has listed)

end Weightless

end Value

end Custody
