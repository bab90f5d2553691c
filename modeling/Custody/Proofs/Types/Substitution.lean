import Custody.Proofs.Types.Abilities
/-!
# Abilities under substitution

A generic body is checked once, with the parameters known by their constraints only. What is found
out about a type there has to hold of all its instances. It does, for two reasons: the abilities of
an instance are those of the type where each parameter has the abilities of its argument, and a
parameter that has more takes no ability away from a type that mentions it.
-/

namespace Custody

namespace Ty

mutual

theorem paramsBelow_zero : (ty : Ty) → ty.paramsBelow 0 = ty.isConcrete
  | .param _ _ => by simp [paramsBelow, isConcrete]
  | .vector elem => paramsBelow_zero elem
  | .ref _ inner => paramsBelow_zero inner
  | .struct _ args => allParamsBelow_zero args
  | .unit | .bool | .u8 | .u64 | .u128 | .address | .signer => rfl

theorem allParamsBelow_zero : (types : List Ty) → allParamsBelow 0 types = allConcrete types
  | [] => rfl
  | ty :: types => by
    rw [allParamsBelow, allConcrete, paramsBelow_zero ty, allParamsBelow_zero types]

end

mutual

theorem subst_nil : (ty : Ty) → ty.subst [] = ty
  | .param _ _ => rfl
  | .vector elem => by rw [subst, subst_nil elem]
  | .ref _ inner => by rw [subst, subst_nil inner]
  | .struct _ args => by rw [subst, substAll_nil args]
  | .unit | .bool | .u8 | .u64 | .u128 | .address | .signer => rfl

theorem substAll_nil : (types : List Ty) → substAll [] types = types
  | [] => rfl
  | ty :: types => by rw [substAll, subst_nil ty, substAll_nil types]

end

end Ty

/-- Position by position, what is assumed on the left is assumed on the right; where nothing is said
about a parameter it has no ability. -/
def AbilitySet.AllWithin (less more : List AbilitySet) : Prop :=
  ∀ index : Nat, ((less[index]?).getD .none).subset ((more[index]?).getD .none) = true

namespace Universe

/-! ## Instances -/

section Instances

variable (u : Universe) (context : List AbilitySet) {types : List Ty}

mutual

/-- The arguments count for an instance by their abilities only. -/
theorem abilities_subst : (ty : Ty) → ty.paramsBelow types.length = true →
    u.abilities context (ty.subst types) = u.abilities (types.map (u.abilities context)) ty
  | .param index name, inRange => by
    have within : index < types.length := by simpa [Ty.paramsBelow] using inRange
    simp [Ty.subst, abilities, List.getElem?_eq_getElem within]
  | .vector elem, inRange => by
    rw [Ty.subst, abilities, abilities, abilities_subst elem inRange]
  | .struct id args, inRange => by
    rw [Ty.subst, abilities, abilities, abilitiesAll_substAll args inRange]
  | .ref _ _, _ | .unit, _ | .bool, _ | .u8, _ | .u64, _ | .u128, _ | .address, _
  | .signer, _ => rfl

theorem abilitiesAll_substAll : (args : List Ty) → Ty.allParamsBelow types.length args = true →
    u.abilitiesAll context (Ty.substAll types args) =
      u.abilitiesAll (types.map (u.abilities context)) args
  | [], _ => rfl
  | arg :: args, inRange => by
    rw [Ty.allParamsBelow, Bool.and_eq_true] at inRange
    rw [Ty.substAll, abilitiesAll, abilitiesAll, abilities_subst arg inRange.1,
      abilitiesAll_substAll args inRange.2]

end

/-- A type without parameters is its own instance by no arguments, so nothing that is assumed of
parameters counts for it. -/
theorem abilities_of_isConcrete {ty : Ty} (concrete : ty.isConcrete = true) :
    u.abilities context ty = u.abilities [] ty := by
  have inRange : ty.paramsBelow ([] : List Ty).length = true := ty.paramsBelow_zero.trans concrete
  calc u.abilities context ty
      = u.abilities context (ty.subst []) := by rw [ty.subst_nil]
    _ = u.abilities [] ty := u.abilities_subst context ty inRange

end Instances

/-! ## More abilities of the parameters -/

section Monotone

variable {u : Universe} {less more : List AbilitySet}

/-- A type keeps its abilities where its parameters have more: each parameter may stand for
itself. -/
theorem has_abilities_of_allWithin (within : AbilitySet.AllWithin less more) (ty : Ty)
    (ability : Ability) (has : (u.abilities less ty).has ability = true) :
    (u.abilities more ty).has ability = true := by
  have supplied : u.Supplies more [] less := fun index _ ability =>
    (AbilitySet.subset_iff _ _).mp (within index) ability
  have kept := has_abilities_subst supplied ty ability has
  rwa [ty.subst_nil] at kept

end Monotone

/-! ## Generic checks -/

/-- Abilities commute with substitution: those of an instance are those of the type where each
parameter has the abilities of its argument. They are monotone in what is assumed of the parameters.
So whatever the constraints of the parameters promise of a type, all its instances have whose
arguments meet the constraints. Neither the universe nor the number of arguments that a struct is
given matters for this. -/
theorem abilities_follow_substitution (u : Universe) (ty : Ty) :
    (∀ (types : List Ty) (context : List AbilitySet), ty.paramsBelow types.length = true →
      u.abilities context (ty.subst types) = u.abilities (types.map (u.abilities context)) ty) ∧
    (∀ less more : List AbilitySet, AbilitySet.AllWithin less more →
      (u.abilities less ty).subset (u.abilities more ty) = true) ∧
    ∀ (declared : List TypeParam) (types : List Ty) (context : List AbilitySet),
      types.length = declared.length →
      (∀ entry ∈ declared.zip types,
        entry.1.constraints.subset (u.abilities context entry.2) = true) →
      (u.abilities (constraintSets declared) ty).subset (u.abilities context (ty.subst types)) =
      true := by
  refine ⟨?instances, ?monotone, ?generic⟩
  case instances =>
    intro types context inRange
    exact u.abilities_subst context ty inRange
  case monotone =>
    intro less more within
    exact (AbilitySet.subset_iff _ _).mpr (has_abilities_of_allWithin within ty)
  case generic =>
    intro declared types context count met
    exact (AbilitySet.subset_iff _ _).mpr
      (has_abilities_subst (supplies_of_constraints count met) ty)

/-- A vault over boxes of a parameter, which it names twice: as an owner, where it does not count,
and as what the boxes hold. -/
def ownedVault : Ty :=
  .struct ⟨"Vault", "Vault"⟩ [.param 0 "S", .struct ⟨"Vault", "Box"⟩ [.param 0 "S"]]

/-- With vectors of signers for the parameter the vault can only be dropped; under a constraint it
keeps what the constraint promises, and `key` where that is `store`. -/
theorem ownedVault_follows_substitution :
    (build vaults).1.abilities [] (ownedVault.subst [.vector .signer]) =
        ⟨false, true, false, false⟩ ∧
      ((build vaults).1.abilities [⟨false, false, true, false⟩] ownedVault).subset
        ((build vaults).1.abilities [⟨true, false, true, false⟩, .all] ownedVault) = true ∧
      ((build vaults).1.abilities [⟨false, false, true, false⟩] ownedVault =
          ⟨false, false, false, true⟩ ∧
        ((build vaults).1.abilities [⟨false, false, true, false⟩] ownedVault).subset
          ((build vaults).1.abilities [] (ownedVault.subst [.address])) = true) := by
  obtain ⟨instances, monotone, generic⟩ := abilities_follow_substitution (build vaults).1 ownedVault
  refine ⟨(instances [.vector .signer] [] (by decide)).trans (by decide +kernel), ?_,
    by decide +kernel, ?_⟩
  · refine monotone _ _ fun index => ?_
    rcases index with _ | _ | index <;> rfl
  · exact generic [{ name := "S", constraints := ⟨false, false, true, false⟩ }] [.address] [] rfl
      (by decide +kernel)

end Universe

end Custody
