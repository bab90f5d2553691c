import Custody.Declaration.Module
import Custody.Diagnostic
import Custody.Table
/-!
# Universes of declared types

The struct definitions and function signatures that written types are resolved against. A definition
keeps its field types in terms of its own parameters; instantiating it substitutes the arguments.
-/

namespace Custody

/-- A struct with its field types resolved; parameter `i` of the types is `typeParams[i]`. -/
structure StructDef where
  id : StructId
  typeParams : List TypeParam := []
  abilities : AbilitySet := .none
  fields : List (String × Ty) := []

namespace StructDef

/-- Position of the first field of that name. -/
def fieldIndex? (struct : StructDef) (field : String) : Option Nat :=
  struct.fields.findIdx? (·.1 = field)

def isGeneric (struct : StructDef) : Bool := !struct.typeParams.isEmpty

/-- The fields with the arguments in place of the parameters. -/
def fieldsAt (struct : StructDef) (args : List Ty) : List (String × Ty) :=
  struct.fields.map fun field => (field.1, field.2.subst args)

end StructDef

/-- A function as its callers see it. -/
structure Signature where
  id : FunctionId
  typeParams : List TypeParam := []
  params : List (String × Ty) := []
  ret : Ty := .unit
  acquires : List String := []

/-- The abilities assumed of the parameters in scope: what each is constrained to. -/
def constraintSets (params : List TypeParam) : List AbilitySet := params.map (·.constraints)

/-- Every struct and function of a declaration set. -/
structure Universe where
  structs : Table StructId StructDef := ∅
  functions : Table FunctionId Signature := ∅

namespace Universe

variable (u : Universe)

def struct? (id : StructId) : Option StructDef := u.structs.get? id

def function? (id : FunctionId) : Option Signature := u.functions.get? id

/-- Fields of an instantiation. -/
def instantiateFields? (tag : StructTag) : Option (List (String × Ty)) :=
  (u.struct? tag.id).map (·.fieldsAt tag.args)

/-- Type of one field of an instantiation. -/
def fieldType? (tag : StructTag) (field : String) : Option Ty := do
  let struct ← u.struct? tag.id
  let index ← struct.fieldIndex? field
  let entry ← struct.fields[index]?
  return entry.2.subst tag.args

/-! ## Resolution -/

/-- A struct of this name exists and takes this many arguments. -/
def checkArity (id : StructId) (count : Nat) : Except Fault Unit :=
  match u.struct? id with
  | none => .error (.unknownStruct id)
  | some struct =>
    if struct.typeParams.length = count then .ok ()
    else .error (.arityMismatch id struct.typeParams.length count)

/-- References stand only at the top of a parameter, a result or a local; `top` says whether this
is such a position. -/
def checkRefs (top : Bool) (ty : Ty) : Except Fault Ty :=
  let misplaced :=
    match ty with
    | .ref _ inner => !top || inner.mentionsRef
    | other => other.mentionsRef
  if misplaced then .error (.shape (.misplacedRef ty)) else .ok ty

variable (module : String) (params : List TypeParam)

mutual

/-- The type that `type` denotes inside `module`, where `params` are in scope. -/
def resolve : TypeExpr → Except Fault Ty
  | .bool => .ok .bool
  | .u8 => .ok .u8
  | .u64 => .ok .u64
  | .u128 => .ok .u128
  | .address => .ok .address
  | .signer => .ok .signer
  | .vector elem => do return .vector (← resolve elem)
  | .struct owner name args => do
    let id : StructId := ⟨owner.getD module, name⟩
    u.checkArity id args.length
    return .struct id (← resolveArgs args)
  | .param name =>
    match params.findIdx? (·.name = name) with
    | some index => .ok (.param index name)
    | none => .error (.unboundTypeParam name)
  | .ref mutable inner => do return .ref mutable (← resolve inner)

/-- Type arguments; none of them holds a reference. -/
def resolveArgs : List TypeExpr → Except Fault (List Ty)
  | [] => .ok []
  | arg :: args => do
    let ty ← resolve arg
    let ty ← checkRefs false ty
    return ty :: (← resolveArgs args)

end

/-- The instantiation a written struct denotes. -/
def resolveStruct (struct : StructExpr) : Except Fault StructTag := do
  let id : StructId := ⟨struct.module.getD module, struct.name⟩
  u.checkArity id struct.args.length
  return ⟨id, ← u.resolveArgs module params struct.args⟩

/-- Resolve a type at a position where references may or may not stand. -/
def resolveAt (top : Bool) (type : TypeExpr) : Except Fault Ty := do
  checkRefs top (← u.resolve module params type)

end Universe

end Custody
