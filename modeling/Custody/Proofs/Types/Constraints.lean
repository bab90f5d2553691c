import Custody.Proofs.Types.Abilities
/-!
# Constraints inside instances

The constraints inside a field type are checked where the struct is declared, against what the
parameters of the struct are constrained to. An instance of the struct puts its own arguments there,
at any depth. If they meet the constraints of the parameters, and the constraints inside themselves,
then those inside the field are met as well: instantiation loses no ability, and a parameter becomes
an argument that was looked into already. So one look at a type is enough for everything that can be
reached from its values.
-/

namespace Custody

variable {types args : List Ty} {id : StructId} {struct : StructDef} {u : Universe} {arity : Nat}

namespace Universe

/-! ## Numbers of arguments -/

section Saturated

mutual

/-- Every declared struct inside has its number of arguments. -/
def isSaturated (u : Universe) : Ty → Bool
  | .vector elem => isSaturated u elem
  | .ref _ inner => isSaturated u inner
  | .struct id args =>
    (match u.struct? id with
      | some struct => decide (struct.typeParams.length = args.length)
      | none => true) && areSaturated u args
  | .unit | .bool | .u8 | .u64 | .u128 | .address | .signer | .param _ _ => true

/-- Every type is saturated. -/
def areSaturated (u : Universe) : List Ty → Bool
  | [] => true
  | ty :: types => isSaturated u ty && areSaturated u types

end

theorem areSaturated_iff : u.areSaturated types = true ↔ ∀ ty ∈ types, u.isSaturated ty = true := by
  induction types with
  | nil => simp [areSaturated]
  | cons ty types ih => simp [areSaturated, ih]

theorem isSaturated_struct_iff :
    u.isSaturated (.struct id args) = true ↔
      (∀ struct, u.struct? id = some struct → struct.typeParams.length = args.length) ∧
        u.areSaturated args = true := by
  cases found : u.struct? id <;> simp [isSaturated, found]

/-- An instance of a plain type by saturated arguments is saturated. -/
theorem isSaturated_subst (saturated : u.areSaturated types = true) :
    (ty : Ty) → u.isPlain arity ty = true → u.isSaturated (ty.subst types) = true
  | .param index name, _ => by
    rw [Ty.subst]
    cases found : types[index]? with
    | none => rfl
    | some ty => exact areSaturated_iff.mp saturated ty (List.mem_of_getElem? found)
  | .vector elem, plain => isSaturated_subst saturated elem plain
  | .struct id args, plain => by
    obtain ⟨⟨struct, found, count⟩, argsPlain⟩ := isPlain_struct_iff.mp plain
    rw [Ty.subst, Ty.substAll_eq_map, isSaturated_struct_iff, List.length_map, areSaturated_iff,
      List.forall_mem_map]
    refine ⟨fun other found' => ?_, fun arg member =>
      isSaturated_subst saturated arg (arePlain_iff.mp argsPlain arg member)⟩
    obtain rfl : struct = other := Option.mem_unique found found'
    exact count
  | .ref _ _, impossible => by simp [isPlain] at impossible
  | .unit, _ | .bool, _ | .u8, _ | .u64, _ | .u128, _ | .address, _ | .signer, _ => rfl

end Saturated

/-! ## Constraints of instances -/

section Constraints

variable {context : List AbilitySet}

/-- The constraints of an instantiation are met if each argument has what its parameter asks for and
meets the constraints inside itself. -/
theorem constraintFaults_struct_eq_nil_iff (declared : u.struct? id = some struct) :
    u.constraintFaults context (.struct id args) = [] ↔
      ∀ entry ∈ struct.typeParams.zip args,
        entry.1.constraints.subset (u.abilities context entry.2) = true ∧
          u.constraintFaults context entry.2 = [] := by
  simp only [constraintFaults, declared]
  rw [argumentFaults_eq_flatMap, List.flatMap_eq_nil_iff]
  refine forall₂_congr fun entry _ => ?_
  cases met : entry.1.constraints.subset (u.abilities context entry.2) <;>
    simp [argumentFaults, met]

section Instantiation

variable {params : List AbilitySet}

/-- Arguments that have what is assumed of the parameters, and are in order themselves, put nothing
out of order. -/
theorem constraintFaults_subst (held : u.Supplies context types params)
    (sound : ∀ ty ∈ types, u.constraintFaults context ty = []) :
    (ty : Ty) → u.constraintFaults params ty = [] → u.constraintFaults context (ty.subst types) = []
  | .param index name, _ => by
    rw [Ty.subst]
    cases found : types[index]? with
    | none => rfl
    | some ty => exact sound ty (List.mem_of_getElem? found)
  | .vector elem, met => constraintFaults_subst held sound elem met
  | .ref _ inner, met => constraintFaults_subst held sound inner met
  | .struct id args, met => by
    cases found : u.struct? id with
    | none => simp [Ty.subst, constraintFaults, found]
    | some struct =>
      rw [constraintFaults_struct_eq_nil_iff found] at met
      rw [Ty.subst, Ty.substAll_eq_map, constraintFaults_struct_eq_nil_iff found,
        List.zip_map_right, List.forall_mem_map]
      intro ⟨param, arg⟩ listed
      have member : arg ∈ args := (List.of_mem_zip listed).2
      obtain ⟨asked, inside⟩ := met _ listed
      refine ⟨?_, constraintFaults_subst held sound arg inside⟩
      rw [AbilitySet.subset_iff] at asked ⊢
      exact fun ability required => has_abilities_subst held arg ability (asked ability required)
  | .unit, _ | .bool, _ | .u8, _ | .u64, _ | .u128, _ | .address, _ | .signer, _ => rfl

end Instantiation

/-! ## What is reached from a type -/

/-- The type of a part that is reached from values of the first type: through the fields of structs,
the elements of vectors and the referents of references. -/
inductive Reaches (u : Universe) (start : Ty) : Ty → Prop where
  | start : u.Reaches start start
  | field {tag : StructTag} {fields : List (String × Ty)} {name : String} {ty : Ty} :
    u.Reaches start tag.ty → u.instantiateFields? tag = some fields → (name, ty) ∈ fields →
      u.Reaches start ty
  | elem {ty : Ty} : u.Reaches start (.vector ty) → u.Reaches start ty
  | referent {mutable : Bool} {ty : Ty} : u.Reaches start (.ref mutable ty) → u.Reaches start ty

variable {field : String × Ty}

/-- The constraints inside a field of an instantiation are met with its own. -/
theorem Accepted.constraintFaults_field (accepted : u.Accepted)
    (declared : u.struct? id = some struct) (count : args.length = struct.typeParams.length)
    (met : u.constraintFaults context (.struct id args) = []) (member : field ∈ struct.fields) :
    u.constraintFaults context (field.2.subst args) = [] := by
  have entries := (constraintFaults_struct_eq_nil_iff declared).mp met
  have held : u.Supplies context args (constraintSets struct.typeParams) :=
    supplies_of_constraints count fun entry listed => (entries entry listed).1
  have sound : ∀ ty ∈ args, u.constraintFaults context ty = [] := by
    intro ty listed
    obtain ⟨index, within, rfl⟩ := List.getElem_of_mem listed
    have paired : (struct.typeParams[index], args[index]) ∈ struct.typeParams.zip args :=
      List.mem_of_getElem? (i := index) (by simp [within, ← count])
    exact (entries _ paired).2
  have faults := accepted.fields_sound declared field member
  simp only [fieldFaults, List.append_eq_nil_iff] at faults
  exact constraintFaults_subst held sound field.2 faults.1.2

/-- From a saturated type that meets its constraints only such types are reached. -/
theorem Accepted.reached (accepted : u.Accepted) {start reached : Ty}
    (saturated : u.isSaturated start = true) (met : u.constraintFaults context start = [])
    (reaches : u.Reaches start reached) :
    u.isSaturated reached = true ∧ u.constraintFaults context reached = [] := by
  induction reaches with
  | start => exact ⟨saturated, met⟩
  | field _ instantiated member ih =>
    obtain ⟨struct, declared, rfl⟩ := Option.map_eq_some_iff.mp instantiated
    obtain ⟨source, inside, same⟩ := List.mem_map.mp member
    obtain ⟨_, rfl⟩ := Prod.mk.inj same
    obtain ⟨counts, argsSaturated⟩ := isSaturated_struct_iff.mp ih.1
    exact ⟨isSaturated_subst argsSaturated source.2 (accepted.fields_plain declared source inside),
      accepted.constraintFaults_field declared (counts struct declared).symm ih.2 inside⟩
  | elem _ ih => exact ih
  | referent _ ih => exact ih

end Constraints

/-- Where types resolve and the struct declarations pass their checks: an instantiation with its
number of arguments that meets its constraints has fields, and their types meet the constraints
inside them, under the same assumption on the parameters in scope. So does every type that is
reached from one that meets its constraints and gives its structs their numbers of arguments, and
that one gives them as well. -/
theorem constraints_are_inherited {modules : List Module} {u : Universe}
    (built : build modules = (u, [])) (clean : u.checkStructs = []) (context : List AbilitySet) :
    (∀ (tag : StructTag) (struct : StructDef), u.struct? tag.id = some struct →
      tag.args.length = struct.typeParams.length → u.tagConstraintFaults context tag = [] →
        ∃ fields, u.instantiateFields? tag = some fields ∧
          ∀ field ∈ fields, u.constraintFaults context field.2 = []) ∧
    ∀ start reached : Ty, u.isSaturated start = true → u.constraintFaults context start = [] →
      u.Reaches start reached →
        u.isSaturated reached = true ∧ u.constraintFaults context reached = [] := by
  have accepted := accepted_of_built built clean
  refine ⟨?fields, ?reached⟩
  case fields =>
    intro tag struct declared count met
    refine ⟨struct.fieldsAt tag.args, by simp [instantiateFields?, declared], ?_⟩
    intro field member
    obtain ⟨source, inside, rfl⟩ := List.mem_map.mp member
    exact accepted.constraintFaults_field declared count met inside
  case reached =>
    intro start reached saturated met reaches
    exact accepted.reached saturated met reaches

/-- Rows of cells, and cells whose contents may be copied and dropped. -/
def ledgers : List Module := [
  { name := "Ledger"
    structs := [
      { name := "Cell"
        typeParams := [{ name := "T", constraints := ⟨true, true, false, false⟩ }]
        abilities := ⟨true, true, true, false⟩
        fields := [⟨"item", .param "T"⟩] },
      { name := "Row"
        typeParams := [{ name := "K", constraints := ⟨false, false, true, false⟩ },
          { name := "V", constraints := ⟨true, true, false, false⟩ }]
        fields := [⟨"key", .param "K"⟩,
          ⟨"cells", .vector (.struct none "Cell" [.struct none "Cell" [.param "V"]])⟩] }] }]

/-- A cell of the type. -/
def cellOf (ty : Ty) : StructTag := ⟨⟨"Ledger", "Cell"⟩, [ty]⟩

/-- A row of cells of a parameter. -/
def cellRow : StructTag := ⟨⟨"Ledger", "Row"⟩, [.address, (cellOf (.param 0 "S")).ty]⟩

/-- The constraints of the row are met where the parameter may be copied and dropped, and so are
those of the cells inside its cells. Where the parameter may be dropped only, the row does not meet
its own. -/
theorem cellRow_constraints_are_inherited :
    let u := (build ledgers).1
    let context : List AbilitySet := [⟨true, true, false, false⟩]
    u.tagConstraintFaults context cellRow = [] ∧
      (∃ fields, u.instantiateFields? cellRow = some fields ∧
        ∀ field ∈ fields, u.constraintFaults context field.2 = []) ∧
      u.constraintFaults context (cellOf (cellOf (.param 0 "S")).ty).ty = [] ∧
      u.tagConstraintFaults [⟨false, true, false, false⟩] cellRow ≠ [] := by
  intro u context
  have built : build ledgers = (u, []) := Prod.ext rfl (by decide +kernel)
  have met : u.tagConstraintFaults context cellRow = [] := by decide +kernel
  have declared : (u.struct? cellRow.id).map (·.typeParams.length) = some 2 := by decide +kernel
  obtain ⟨struct, found, count⟩ := Option.map_eq_some_iff.mp declared
  obtain ⟨fields, reached⟩ := constraints_are_inherited built (by decide +kernel) context
  refine ⟨met, fields cellRow struct found count.symm met, ?_, by decide +kernel⟩
  -- From the row to its cells, to one of them, and to what that one holds.
  let held := (cellOf (cellOf (.param 0 "S")).ty).ty
  have inRow : u.instantiateFields? cellRow =
      some [("key", .address), ("cells", .vector (cellOf held).ty)] := by decide +kernel
  have inCell : u.instantiateFields? (cellOf held) = some [("item", held)] := by decide +kernel
  have reaches : u.Reaches cellRow.ty held :=
    .field (.elem (.field .start inRow (.tail _ (.head _)))) inCell (.head _)
  exact (reached _ _ (by decide +kernel) met reaches).2

end Universe

end Custody
