import Custody.Proofs.Types.Declared
/-!
# Abilities and instantiation

A type has at least the abilities, once its parameters are instantiated, that it has where the
parameters are only known by their constraints. A struct is checked once, as if its parameters had
every ability, and instantiated with arguments that have few: what an instantiation is still allowed
to do, its fields support, because a parameter that the arguments do not answer for is phantom and
stands in no field where it would count.
-/

namespace Custody

open AbilitySet

variable {ability : Ability} {struct : StructDef} {u : Universe} {field : String × Ty}
  {args : List Ty} {id : StructId} {declared : List TypeParam} {context : List AbilitySet}

namespace Universe

/-- The types fit the parameters: as many, plain and without parameters of their own, and each with
the abilities that its parameter asks for. -/
structure Instantiates (u : Universe) (params : List TypeParam) (types : List Ty) : Prop where
  length : types.length = params.length
  plain : u.arePlain 0 types = true
  constrained : ∀ entry ∈ params.zip types,
    entry.1.constraints.subset (u.abilities [] entry.2) = true

/-- What stands for a parameter has the abilities that are assumed of it. -/
def Supplies (u : Universe) (outer : List AbilitySet) (types : List Ty) (params : List AbilitySet) :
    Prop :=
  ∀ (index : Nat) (name : String) (ability : Ability),
    (u.abilities params (.param index name)).has ability = true →
      (u.abilities outer ((Ty.param index name).subst types)).has ability = true

/-- An instance has an ability if its struct has, and each argument that counts has what that
owes. -/
theorem has_abilities_struct_iff (found : u.struct? id = some struct) :
    (u.abilities context (.struct id args)).has ability = true ↔
      struct.abilities.has ability = true ∧ ∀ entry ∈ struct.typeParams.zip args,
        entry.1.phantom = true ∨ (u.abilities context entry.2).has ability.requirement = true := by
  simp [abilities, found, StructDef.abilitiesAt, has_collect, abilitiesAll_eq_map,
    List.zip_map_right]

section Instantiation

variable {u : Universe} {params outer : List AbilitySet} {types : List Ty}

theorem supplies_of_entries {assumed : TypeParam → AbilitySet}
    (count : declared.length = types.length)
    (each : ∀ entry ∈ declared.zip types, ∀ ability : Ability,
      (assumed entry.1).has ability = true → (u.abilities outer entry.2).has ability = true) :
    u.Supplies outer types (declared.map assumed) := by
  intro index name ability has
  simp only [abilities, List.getElem?_map] at has
  cases here : declared[index]? with
  | none => simp [here] at has
  | some param =>
    obtain ⟨within, _⟩ := List.getElem?_eq_some_iff.mp here
    have present : types[index]? = some _ := List.getElem?_eq_getElem (count ▸ within)
    have member : (param, _) ∈ declared.zip types :=
      List.mem_of_getElem? (i := index) (List.getElem?_zip_eq_some.mpr ⟨here, present⟩)
    simp only [here, Option.map_some, Option.getD_some] at has
    simpa only [Ty.subst, present, Option.getD_some] using each _ member ability has

variable (held : u.Supplies outer types params)

include held

/-- Instantiation loses no ability. -/
theorem has_abilities_subst :
    (ty : Ty) → (ability : Ability) → (u.abilities params ty).has ability = true →
      (u.abilities outer (ty.subst types)).has ability = true
  | .param index name, ability, has => held index name ability has
  | .vector elem, ability, has => by
    simp only [abilities, has_inter, Bool.and_eq_true] at has
    simp only [Ty.subst, abilities, has_inter, Bool.and_eq_true]
    exact ⟨has_abilities_subst elem ability has.1, has.2⟩
  | .struct id args, ability, has => by
    cases found : u.struct? id with
    | none => simp [abilities, found] at has
    | some struct =>
      rw [has_abilities_struct_iff found] at has
      rw [Ty.subst, Ty.substAll_eq_map, has_abilities_struct_iff found, List.zip_map_right,
        List.forall_mem_map]
      refine has.imp_right fun each ⟨param, arg⟩ listed => ?_
      have member : arg ∈ args := (List.of_mem_zip listed).2
      exact (each _ listed).imp_right (has_abilities_subst arg ability.requirement)
  | .ref _ _, _, has | .unit, _, has | .bool, _, has | .u8, _, has | .u64, _, has | .u128, _, has
  | .address, _, has | .signer, _, has => has

omit held

/-- Arguments that meet the constraints of the parameters supply what the constraints promise. -/
theorem supplies_of_constraints (count : types.length = declared.length)
    (met : ∀ entry ∈ declared.zip types,
      entry.1.constraints.subset (u.abilities outer entry.2) = true) :
    u.Supplies outer types (constraintSets declared) :=
  supplies_of_entries count.symm fun entry listed => (subset_iff _ _).mp (met entry listed)

/-- What the constraints of the parameters promise of a type holds of its instantiation. -/
theorem Instantiates.has_abilities (instantiates : u.Instantiates declared types) {ty : Ty}
    (has : (u.abilities (constraintSets declared) ty).has ability = true) :
    (u.abilities [] (ty.subst types)).has ability = true :=
  has_abilities_subst (supplies_of_constraints instantiates.length instantiates.constrained)
    ty ability has

/-- The type arguments of an accepted call fit the callee once those of the caller are known. -/
theorem Instantiates.call {ctx : BodyContext} {outer types : List Ty} {callee : Signature}
    (instantiates : ctx.types.Instantiates ctx.signature.typeParams outer)
    (count : callee.typeParams.length = types.length)
    (plain : ctx.types.arePlain ctx.signature.typeParams.length types = true)
    (faultless : Check.callConstraintFaults ctx callee types = []) :
    ctx.types.Instantiates callee.typeParams (types.map (·.subst outer)) := by
  refine ⟨by simp [count], ?_, ?_⟩
  · rw [arePlain_iff] at plain ⊢
    intro ty member
    obtain ⟨written, listed, rfl⟩ := List.mem_map.mp member
    exact isPlain_subst (Nat.le_of_eq instantiates.length.symm) instantiates.plain written
      (plain written listed)
  · intro entry member
    rw [List.zip_map_right] at member
    obtain ⟨⟨param, written⟩, listed, rfl⟩ := List.mem_map.mp member
    have fits : param.constraints.subset (ctx.abilities written) = true := by
      have reported := List.filterMap_eq_nil_iff.mp faultless (param, written) listed
      cases met : param.constraints.subset (ctx.abilities written) with
      | true => rfl
      | false => simp [met] at reported
    rw [subset_iff] at fits ⊢
    exact fun ability required => instantiates.has_abilities (fits ability required)

end Instantiation

/-! ## Phantom parameters -/

/-- What is left of the parameters of a struct if only one ability counts and phantom parameters
have none. -/
def relevant (owner : List TypeParam) (ability : Ability) : List AbilitySet :=
  owner.map fun param => if param.phantom then .none else .singleton ability

section Phantom

variable {u : Universe} {owner : List TypeParam} {ability : Ability}
  (same : ability.requirement = ability)

include same

/-- Phantom parameters contribute no ability where they stand in their places. -/
theorem has_abilities_relevant :
    (ty : Ty) → u.isPlain owner.length ty = true → u.phantomFaults owner ty = [] →
      (u.abilities (owner.map fun _ => AbilitySet.all) ty).has ability = true →
      (u.abilities (relevant owner ability) ty).has ability = true
  | .param index name, inScope, placed, _ => by
    have within : index < owner.length := by simpa [isPlain] using inScope
    have solid : owner[index].phantom = false := by
      simpa [phantomFaults, List.getElem?_eq_getElem within] using placed
    simp [abilities, relevant, List.getElem?_eq_getElem within, solid, AbilitySet.singleton,
      AbilitySet.has_insert]
  | .vector elem, inScope, placed, has => by
    simp only [abilities, AbilitySet.has_inter, Bool.and_eq_true] at has ⊢
    exact ⟨has_abilities_relevant elem inScope placed has.1, has.2⟩
  | .struct id args, inScope, placed, has => by
    cases found : u.struct? id with
    | none => simp [abilities, found] at has
    | some struct =>
      rw [has_abilities_struct_iff found, same] at has ⊢
      simp only [phantomFaults, found, phantomArgumentFaults_eq_flatMap,
        List.flatMap_eq_nil_iff] at placed
      refine has.imp_right fun each ⟨param, arg⟩ listed => ?_
      have member : arg ∈ args := (List.of_mem_zip listed).2
      have argPlain := arePlain_iff.mp (isPlain_struct_iff.mp inScope).2 arg member
      cases phantom : param.phantom with
      | true => exact .inl rfl
      | false =>
        have argPlaced : u.phantomFaults owner arg = [] := by simpa [phantom] using placed _ listed
        exact .inr (has_abilities_relevant arg argPlain argPlaced
          ((each _ listed).resolve_left (by simp [phantom])))
  | .ref _ _, _, _, has | .unit, _, _, has | .bool, _, _, has | .u8, _, _, has | .u64, _, _, has
  | .u128, _, _, has | .address, _, _, has | .signer, _, _, has => has

end Phantom

/-! ## Fields of instantiations -/

/-- What the parts of a value owe, their own parts owe as well. -/
theorem requirement_requirement (ability : Ability) :
    ability.requirement.requirement = ability.requirement := by
  cases ability <;> rfl

/-- The arguments of an instantiation that keeps an ability answer for every parameter that is not
phantom. -/
theorem supplies_of_abilities (declared : u.struct? id = some struct)
    (count : struct.typeParams.length = args.length)
    (has : (u.abilities context (.struct id args)).has ability = true) :
    u.Supplies context args (relevant struct.typeParams ability.requirement) := by
  refine supplies_of_entries count fun entry listed other otherHas => ?_
  cases phantom : entry.1.phantom with
  | true => simp [phantom] at otherHas
  | false =>
    obtain rfl : other = ability.requirement := by
      simpa [phantom, AbilitySet.singleton, AbilitySet.has_insert] using otherHas
    exact (((has_abilities_struct_iff declared).mp has).2 entry listed).resolve_left
      (by simp [phantom])

/-- A declared ability is supported by every field, phantom parameters left out. -/
theorem Accepted.has_relevant (accepted : u.Accepted) (declared : u.struct? id = some struct)
    (claimed : struct.abilities.has ability = true) (member : field ∈ struct.fields) :
    (u.abilities (relevant struct.typeParams ability.requirement) field.2).has
      ability.requirement = true := by
  have faults := accepted.fields_sound declared field member
  simp only [fieldFaults, List.append_eq_nil_iff, List.map_eq_nil_iff, List.filter_eq_nil_iff]
    at faults
  obtain ⟨⟨supported, _⟩, placed⟩ := faults
  have optimistic : (u.abilities (struct.typeParams.map fun _ => all) field.2).has
      ability.requirement = true := by
    simpa using supported ability ((mem_toList _ _).mpr claimed)
  exact has_abilities_relevant (requirement_requirement ability) field.2
    (accepted.fields_plain declared field member) placed optimistic

/-- The fields of an instantiation have what its abilities require of them, whatever is assumed of
the parameters in scope. -/
theorem Accepted.has_requirement (accepted : u.Accepted) (declared : u.struct? id = some struct)
    (count : struct.typeParams.length = args.length)
    (has : (u.abilities context (.struct id args)).has ability = true)
    (member : field ∈ struct.fields) : (u.abilities context (field.2.subst args)).has
    ability.requirement = true := by
  have claimed : struct.abilities.has ability = true :=
    ((has_abilities_struct_iff declared).mp has).1
  exact has_abilities_subst (supplies_of_abilities declared count has) field.2 ability.requirement
    (accepted.has_relevant declared claimed member)

/-- The fields of an instantiation have the abilities that it keeps. -/
theorem Accepted.has_field (accepted : u.Accepted) (same : ability.requirement = ability)
    (declared : u.struct? id = some struct) (count : struct.typeParams.length = args.length)
    (has : (u.abilities [] (.struct id args)).has ability = true) (member : field ∈ struct.fields) :
    (u.abilities [] (field.2.subst args)).has ability = true :=
  same ▸ accepted.has_requirement declared count has member

theorem accepted_of_built {modules : List Module} (built : build modules = (u, []))
    (clean : u.checkStructs = []) : u.Accepted := by
  have same : (build modules).1 = u := congrArg Prod.fst built
  rw [← same] at clean ⊢
  exact accepted_of_build (congrArg Prod.snd built) clean

/-- Where types resolve and the struct declarations pass their checks, an instantiation with its
number of arguments has fields, and each has what every ability of the instantiation requires of it:
under any assumption on the parameters in scope, and whatever the arguments are. -/
theorem instantiated_fields_meet_requirements {modules : List Module} {u : Universe}
    (built : build modules = (u, [])) (clean : u.checkStructs = []) {tag : StructTag}
    {struct : StructDef} (declared : u.struct? tag.id = some struct)
    (count : tag.args.length = struct.typeParams.length) (context : List AbilitySet) :
    ∃ fields, u.instantiateFields? tag = some fields ∧
      ∀ ability, (u.abilities context tag.ty).has ability = true →
        ∀ field ∈ fields, (u.abilities context field.2).has ability.requirement = true := by
  have accepted := accepted_of_built built clean
  refine ⟨struct.fieldsAt tag.args, by simp [instantiateFields?, declared], ?_⟩
  intro ability has field member
  obtain ⟨source, inside, rfl⟩ := List.mem_map.mp member
  exact accepted.has_requirement declared count.symm has inside

/-- A vault that names its owner by a phantom parameter, around a box in a vector. -/
def vaults : List Module := [
  { name := "Vault"
    structs := [
      { name := "Box"
        typeParams := [{ name := "T" }]
        abilities := ⟨true, true, true, false⟩
        fields := [⟨"item", .param "T"⟩] },
      { name := "Vault"
        typeParams := [{ name := "Owner", phantom := true }, { name := "T" }]
        abilities := ⟨true, true, false, true⟩
        fields := [⟨"boxes", .vector (.struct none "Box" [.param "T"])⟩] }] }]

/-- The vault of a signer, over a parameter that may be stored and dropped: it keeps `drop` and
`key` and loses `copy`. -/
def signerVault : StructTag := ⟨⟨"Vault", "Vault"⟩, [.signer, .param 0 "S"]⟩

theorem signerVault_fields_meet_requirements :
    (build vaults).1.abilities [⟨false, true, true, false⟩] signerVault.ty =
        ⟨false, true, false, true⟩ ∧
      ∃ fields, (build vaults).1.instantiateFields? signerVault = some fields ∧
        ∀ ability, ((build vaults).1.abilities [⟨false, true, true, false⟩] signerVault.ty).has
            ability = true →
          ∀ field ∈ fields, ((build vaults).1.abilities [⟨false, true, true, false⟩] field.2).has
            ability.requirement = true := by
  have built : build vaults = ((build vaults).1, []) := Prod.ext rfl (by decide +kernel)
  have declared : ((build vaults).1.struct? signerVault.id).map (·.typeParams.length) = some 2 := by
    decide +kernel
  obtain ⟨struct, found, count⟩ := Option.map_eq_some_iff.mp declared
  exact ⟨by decide +kernel, instantiated_fields_meet_requirements built (by decide +kernel) found
    count.symm [⟨false, true, true, false⟩]⟩

end Universe

end Custody
