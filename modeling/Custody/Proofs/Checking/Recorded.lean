import Custody.Proofs.Checking.StatementSteps
/-!
# What accepted code has on record

The checker walks a body once, along paths that need not be taken, and stops where no path goes on.
All the same, every call and every operation on storage that can be evaluated has passed it: the
callee is declared and its type arguments are in order, the struct belongs to the module of the body
and has `key`, and what the body calls and reaches is on the record that its walk leaves behind.
This is said of the code itself, so that an execution need not be compared with the walk any more.
-/

namespace Custody

variable {ctx : BodyContext} {access : Access} {scope : List String} {s : BodyState}

/-- The operation refers to what a slot holds, or takes it out. -/
def StructUse.acquires : StructUse → Bool
  | .moveFrom | .borrowGlobal _ => true
  | .pack | .unpack | .moveTo | .existsAt => false

/-- The name that is bound, if any. -/
def Binder.name? : Binder → Option String
  | .bind name => some name
  | .ignore => none

/-- The names a statement adds to the scope it stands in. -/
def Stmt.binds : Stmt → List String
  | .bind name _ _ => [name]
  | .unpack _ binders _ => binders.filterMap (·.2.name?)
  | _ => []

/-- The names of the bindings, in the order of their declaration. -/
def Locals.names (locals : Locals) : List String := locals.shapes.map (·.1)

theorem Locals.mem_names_of_lookup {locals : Locals} {name : String} {id : BindingId}
    (found : locals.lookup name = some id) : name ∈ locals.names := by
  obtain ⟨slot, present, rfl⟩ := Check.slot?_of_lookup found
  exact List.mem_map.mpr ⟨slot.shape, List.mem_of_getElem? (shape_of_slot? present), rfl⟩

namespace Stmt

mutual

/-- No path goes on behind the statement. -/
def ends : Stmt → Bool
  | .ret _ | .abort _ => true
  | .branch _ onTrue (some onFalse) => blockEnds onTrue && blockEnds onFalse
  | .branch _ _ none | .bind _ _ _ | .unpack _ _ _ | .assign _ _ | .write _ _ | .loop _ _
  | .assert _ _ | .eval _ => false

/-- No path goes on behind the block. -/
def blockEnds : List Stmt → Bool
  | [] => false
  | stmt :: stmts => stmt.ends || blockEnds stmts

end

end Stmt

namespace Check

/-! ## Calls and operations that pass -/

/-- A call that passed: the callee is declared, and takes the type arguments that are written and as
many arguments. -/
structure CallSite (ctx : BodyContext) (access : Access) (module : Option String)
    (function : String) (typeArgs : List TypeExpr) (count : Nat) : Prop where
  recorded : ⟨module.getD ctx.module, function⟩ ∈ access.calls
  declared : ∃ callee types,
    ctx.types.function? ⟨module.getD ctx.module, function⟩ = some callee ∧
    callee.typeParams.length = typeArgs.length ∧
    List.Forall₂ ctx.Means typeArgs types ∧
    callConstraintFaults ctx callee types = [] ∧ callee.params.length = count

/-- An operation on storage that passed: the struct is one of the body's own module and has
`key`. -/
def StorageSite (ctx : BodyContext)
    (access : Access) (use : StructUse) (struct : StructExpr) : Prop :=
  ∃ tag, ctx.Names struct tag ∧ tag.id.module = ctx.module ∧ (ctx.abilities tag.ty).key = true ∧
    (use.acquires = true → tag.id ∈ access.direct)

theorem storedStruct_owned {use : StructUse} {struct : StructExpr} {tag : StructTag}
    (resolved : ctx.Names struct tag)
    (stored : storedStruct ctx use struct s = (some tag, s)) (clean : s.problems = []) :
    tag.id.module = ctx.module ∧ (ctx.abilities tag.ty).key = true := by
  replace clean : (storedStruct ctx use struct s).2.problems = [] := by rwa [stored]
  by_cases own : tag.id.module = ctx.module
  · refine ⟨own, ?_⟩
    cases key : (ctx.abilities tag.ty).key with
    | true => rfl
    | false => simp [storedStruct, ownStruct, resolved, own, key] at clean
  · simp [storedStruct, ownStruct, resolved, own] at clean

/-! ## Expressions -/

variable (ctx access scope)

mutual

/-- Every call and every operation on storage in an expression has passed and is on record, and
every name is one of those in scope. -/
def Recorded : Expr → Prop
  | .unit | .bool _ | .u8 _ | .u64 _ | .u128 _ | .address _ => True
  | .var name | .move name | .copy name | .borrow _ name => name ∈ scope
  | .borrowField _ inner _ | .freeze inner | .deref inner | .not inner | .signerAddress inner =>
    Recorded inner
  | .pack _ fields => RecordedFields fields
  | .call module function typeArgs args =>
    RecordedAll args ∧ CallSite ctx access module function typeArgs args.length
  | .binary _ left right => Recorded left ∧ Recorded right
  | .vector _ items => RecordedAll items
  | .moveTo struct signer value =>
    Recorded signer ∧ Recorded value ∧ StorageSite ctx access .moveTo struct
  | .moveFrom struct addr => Recorded addr ∧ StorageSite ctx access .moveFrom struct
  | .borrowGlobal struct mutable addr =>
    Recorded addr ∧ StorageSite ctx access (.borrowGlobal mutable) struct
  | .existsAt struct addr => Recorded addr ∧ StorageSite ctx access .existsAt struct

/-- The same of every expression. -/
def RecordedAll : List Expr → Prop
  | [] => True
  | e :: es => Recorded e ∧ RecordedAll es

/-- The same of every field. -/
def RecordedFields : List (String × Expr) → Prop
  | [] => True
  | (_, e) :: fields => Recorded e ∧ RecordedFields fields

end

variable {ctx access scope}

theorem recordedFields_iff {fields : List (String × Expr)} :
    RecordedFields ctx access scope fields ↔ RecordedAll ctx access scope (fields.map (·.2)) := by
  induction fields with
  | nil => rfl
  | cons field fields ih => exact and_congr_right fun _ => ih

/-! ## Statements -/

variable (ctx access)

mutual

/-- Everything that a statement may evaluate is on record. -/
def RecordedStmt (scope : List String) : Stmt → Prop
  | .bind _ _ value | .unpack _ _ value | .ret (some value) | .abort value | .assert value _
  | .eval value => Recorded ctx access scope value
  | .assign name value => Recorded ctx access scope value ∧ name ∈ scope
  | .ret none => True
  | .write target value => Recorded ctx access scope value ∧ Recorded ctx access scope target
  | .branch cond onTrue none => Recorded ctx access scope cond ∧ RecordedBlock scope onTrue
  | .branch cond onTrue (some onFalse) =>
    Recorded ctx access scope cond ∧ RecordedBlock scope onTrue ∧ RecordedBlock scope onFalse
  | .loop cond body => Recorded ctx access scope cond ∧ RecordedBlock scope body

/-- The statements of a block up to the first that ends every path. -/
def RecordedBlock (scope : List String) : List Stmt → Prop
  | [] => True
  | stmt :: stmts =>
    RecordedStmt scope stmt ∧ (stmt.ends = false → RecordedBlock (scope ++ stmt.binds) stmts)

end

end Check

end Custody
