import Custody.Universe.Basic
/-!
# Abilities of types

The abilities of a struct instantiation are a function of the declared set and the abilities of the
arguments, so they are computed anew for each instantiation. Phantom parameters have no influence.
Declarations are held to this formula: what a struct declares its fields must support.
-/

namespace Custody

/-- The set of the abilities that pass a test. -/
def AbilitySet.collect (keep : Ability → Bool) : AbilitySet :=
  ⟨keep .copy, keep .drop, keep .store, keep .key⟩

@[simp] theorem AbilitySet.has_collect (keep : Ability → Bool) (ability : Ability) :
    (AbilitySet.collect keep).has ability = keep ability := by
  cases ability <;> rfl

/-- The abilities of an instantiation whose arguments have the given sets: a declared ability stays
if every argument of a parameter that is not phantom meets its requirement. -/
def StructDef.abilitiesAt (struct : StructDef) (args : List AbilitySet) : AbilitySet :=
  .collect fun ability =>
    struct.abilities.has ability &&
      (struct.typeParams.zip args).all fun entry =>
        entry.1.phantom || entry.2.has ability.requirement

namespace Universe

variable (u : Universe) (params : List AbilitySet)

mutual

/-- The abilities of a type, where `params` are those assumed of the parameters in scope. -/
def abilities : Ty → AbilitySet
  | .unit => .reference
  | .bool | .u8 | .u64 | .u128 | .address => .data
  | .signer => .signer
  | .ref _ _ => .reference
  | .vector elem => (abilities elem).inter .data
  | .param index _ => (params[index]?).getD .none
  | .struct id args =>
    match u.struct? id with
    | none => .none
    | some struct => struct.abilitiesAt (abilitiesAll args)

def abilitiesAll : List Ty → List AbilitySet
  | [] => []
  | ty :: types => abilities ty :: abilitiesAll types

end

/-! ## Constraints -/

mutual

/-- Every type argument inside the type meets the constraints of its parameter. -/
def constraintFaults : Ty → List Fault
  | .vector elem => constraintFaults elem
  | .ref _ inner => constraintFaults inner
  | .struct id args =>
    match u.struct? id with
    | none => []
    | some struct => argumentFaults id struct.typeParams args
  | .unit | .bool | .u8 | .u64 | .u128 | .address | .signer | .param _ _ => []

/-- The arguments of `owner`, each against its parameter and then inside. -/
def argumentFaults (owner : StructId) : List TypeParam → List Ty → List Fault
  | param :: rest, arg :: args =>
    let held := u.abilities params arg
    let own : List Fault :=
      if param.constraints.subset held then []
      else [.ability (.argument arg param.name owner (param.constraints.diff held) (some held))]
    own ++ constraintFaults arg ++ argumentFaults owner rest args
  | [], _ => []
  | _ :: _, [] => []

end

/-- The constraints of an instantiation. -/
def tagConstraintFaults (tag : StructTag) : List Fault :=
  u.constraintFaults params tag.ty

/-! ## Struct declarations -/

mutual

/-- Phantom parameters of `owner` occur only as arguments of phantom parameters. -/
def phantomFaults (owner : List TypeParam) : Ty → List Fault
  | .param index name =>
    match owner[index]? with
    | some param => if param.phantom then [.shape (.phantomUsed name)] else []
    | none => []
  | .vector elem => phantomFaults owner elem
  | .struct id args =>
    match u.struct? id with
    | none => []
    | some struct => phantomArgumentFaults owner struct.typeParams args
  | .unit | .bool | .u8 | .u64 | .u128 | .address | .signer | .ref _ _ => []

def phantomArgumentFaults (owner : List TypeParam) : List TypeParam → List Ty → List Fault
  | param :: rest, arg :: args =>
    (if param.phantom then [] else phantomFaults owner arg) ++
      phantomArgumentFaults owner rest args
  | [], _ => []
  | _ :: _, [] => []

end

/-- One field of a struct: it supports the declared abilities, as if every parameter had all of
them, respects constraints, and keeps phantom parameters in their places. -/
def fieldFaults (struct : StructDef) (field : String × Ty) : List Fault :=
  let optimistic := struct.typeParams.map fun _ => AbilitySet.all
  let held := u.abilities optimistic field.2
  let unsupported := struct.abilities.toList.filter fun ability => !held.has ability.requirement
  unsupported.map (fun ability => .ability (.field struct.id ability field.1 field.2)) ++
    u.constraintFaults (constraintSets struct.typeParams) field.2 ++
    u.phantomFaults struct.typeParams field.2

def structDiagnostics (struct : StructDef) : List Diagnostic :=
  struct.fields.flatMap fun field =>
    let location : Location :=
      { module := struct.id.module, site := .structField struct.id.name field.1 }
    (u.fieldFaults struct field).map (⟨location, ·⟩)

/-- Everything wrong with the struct declarations, in name order. -/
def checkStructs : List Diagnostic := u.structs.values.flatMap u.structDiagnostics

end Universe

end Custody
