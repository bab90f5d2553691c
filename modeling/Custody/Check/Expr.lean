import Custody.Check.State
/-!
# Checking expressions

Operands are checked from left to right and before the operation they belong to. What remains to be
done once the operands are known is a step of its own for each form of expression, so that the walk
itself is one recursion over the expression.
-/

namespace Custody

namespace Check

variable [Watch] (ctx : BodyContext)

/-! ## Locals -/

/-- How an expression uses a local. -/
inductive LocalUse where
  | implicit
  | move
  | copy

/-- Use a local by value: a copy leaves it as it is, a move consumes it. -/
def useLocal (use : LocalUse) (name : String) : Check (Option Operand) := do
  let state ← get
  look state.locals state.locals.visible
  match state.locals.lookup name with
  | none =>
    report ctx (.localUse name none) (.unknownLocal name)
    return none
  | some id =>
    if id ∈ state.poisoned then return none
    look state.locals [id]
    match state.locals.slot? id with
    | none => return none
    | some slot =>
      if slot.state ≠ .live then
        report ctx (.localUse name (some slot.state)) (.usedAfterMove name)
        return none
      let place : Place := { root := .local id }
      let copies :=
        match use with
        | .copy => true
        | .move => false
        | .implicit => slot.canCopy
      if copies then
        if !slot.canCopy then
          report ctx (.localCopy name) (.missingCopy slot.ty)
          return none
        if !slot.ty.isRef then
          if let some loan := state.loans.conflicting? place .shared then
            report ctx (.localCopy name) (.borrow (.read name (label state loan.place)))
            return none
        return some { ty := slot.ty, loans := slot.loans, place := slot.place }
      if let some loan := state.loans.conflicting? place .exclusive then
        report ctx (.localMove name) (.borrow (.move name loan.mode (label state loan.place)))
      consume id
      return some { ty := slot.ty, loans := slot.loans, place := slot.place }

/-- A local that may be borrowed: in scope, holding its value, and no reference itself. -/
def borrowable (site : Site) (name : String) : Check (Option (BindingId × Ty)) := do
  let state ← get
  look state.locals state.locals.visible
  match state.locals.lookup name with
  | none =>
    report ctx site (.unknownLocal name)
    return none
  | some id =>
    if id ∈ state.poisoned then return none
    look state.locals [id]
    match state.locals.slot? id with
    | none => return none
    | some slot =>
      if slot.state ≠ .live then
        report ctx site (.usedAfterMove name)
        return none
      if slot.ty.isRef then
        report ctx site (.shape (.borrowedRef name))
        return none
      return some (id, slot.ty)

def borrowLocal (mutable : Bool) (name : String) : Check (Option Operand) := do
  let site := Site.localBorrow name
  match ← borrowable ctx site name with
  | none => return none
  | some (id, ty) => grant ctx site { root := .local id } mutable ∅ ty

/-- A local as the base of a field borrow: only the field is borrowed, so no loan of the local. -/
def localBase (site : Site) (mutable : Bool) (name : String) : Check (Option Operand) := do
  match ← borrowable ctx site name with
  | none => return none
  | some (id, ty) =>
    return some { ty := .ref mutable ty, place := some { root := .local id } }

/-! ## References -/

/-- Borrow a field of what `base` refers to. -/
def borrowField (mutable : Bool) (field : String) (base : Operand) : Check (Option Operand) := do
  let site := Site.fieldBorrow field
  match base.ty with
  | .ref baseMutable inner =>
    if mutable && !baseMutable then
      report ctx site (.shape (.sharedBase field base.ty))
      return none
    match inner with
    | .struct id args =>
      let tag : StructTag := ⟨id, args⟩
      if id.module ≠ ctx.module then
        report ctx site (.shape (.foreignFields tag))
        return none
      match ctx.types.fieldType? tag field with
      | none =>
        report ctx site (.shape (.noField tag field))
        return none
      | some ty =>
        match base.place with
        | some place => grant ctx site (place.child field) mutable base.loans ty
        -- A reference that a call returned: its loans already cover the field.
        | none => return some { ty := .ref mutable ty, loans := base.loans }
    | _ =>
      report ctx site (.mismatch .structRef base.ty)
      return none
  | _ =>
    report ctx site (.mismatch .structRef base.ty)
    return none

def freeze (operand : Operand) : Check (Option Operand) := do
  match operand.ty with
  | .ref true inner => return some { operand with ty := .ref false inner }
  | _ =>
    report ctx .freeze (.mismatch .mutableRef operand.ty)
    return none

def dereference (operand : Operand) : Check (Option Operand) := do
  match operand.ty.referent? with
  | none =>
    report ctx .dereference (.mismatch .anyRef operand.ty)
    return none
  | some target =>
    checkAccess ctx .dereference .shared operand
    releaseUnheld operand.loans
    if (ctx.abilities target).copy then return some { ty := target }
    report ctx .dereference (.missingCopy target)
    return none

def signerAddress (operand : Operand) : Check (Option Operand) := do
  releaseUnheld operand.loans
  if operand.ty.referent?.getD operand.ty = .signer then return some { ty := .address }
  report ctx .signerAddress (.mismatch .signerRef operand.ty)
  return none

/-! ## Values -/

def negate (operand : Operand) : Check (Option Operand) := do
  if ← expect ctx .negation operand.ty .bool then return some { ty := .bool }
  return none

/-- Values against the types of the fields they are given for. -/
def expectFields (struct : String) (fields : List (String × Ty)) :
    List (String × Option Operand) → Check Bool
  | [] => return true
  | (_, none) :: rest => do
    let _ ← expectFields struct fields rest
    return false
  | (name, some value) :: rest => do
    let fits ←
      match fields.lookup name with
      | some ty => expect ctx (.useField .pack struct name) value.ty ty
      | none => pure true
    let others ← expectFields struct fields rest
    return fits && others

/-- Make a struct of the values given for its fields. -/
def pack (struct : StructExpr) (given : List (String × Option Operand)) :
    Check (Option Operand) := do
  match ← ownStruct ctx .pack struct with
  | none => return none
  | some tag =>
    match ctx.types.instantiateFields? tag with
    | none => return none
    | some fields =>
      if ← coversFields ctx .pack struct.name tag (fields.map (·.1)) (given.map (·.1)) then
        if ← expectFields ctx struct.name fields given then return some { ty := tag.ty }
      return none

/-- Values against one type. -/
def expectItems (elem : Ty) : List (Option Operand) → Check Bool
  | [] => return true
  | none :: rest => do
    let _ ← expectItems elem rest
    return false
  | some value :: rest => do
    let fits ← expect ctx .vectorItem value.ty elem
    let others ← expectItems elem rest
    return fits && others

def vector (elem : TypeExpr) (items : List (Option Operand)) : Check (Option Operand) := do
  match ← resolveType ctx .vectorType false elem with
  | none => return none
  | some ty =>
    if ← expectItems ctx ty items then return some { ty := .vector ty }
    return none

/-- Operators that evaluate both operands. -/
def binary (op : BinOp) (left right : Operand) : Check (Option Operand) := do
  let site := Site.operator op
  if op.isArithmetic || op.isOrdering then
    if !left.ty.isInteger then
      report ctx site (.mismatch .integer left.ty)
      return none
    if ← expect ctx site right.ty left.ty then
      return some { ty := if op.isArithmetic then left.ty else .bool }
    return none
  else
    let fits ← expect ctx site right.ty left.ty
    releaseUnheld left.loans
    releaseUnheld right.loans
    -- Comparison consumes both operands.
    if !(ctx.abilities left.ty).drop then
      report ctx site (.missingDrop left.ty)
      return none
    return if fits then some { ty := .bool } else none

/-- `&&` and `||`, once the path around the right operand is merged. -/
def logical (op : BinOp) (left right : Operand) : Check (Option Operand) := do
  let site := Site.operator op
  let leftFits ← expect ctx site left.ty .bool
  let rightFits ← expect ctx site right.ty .bool
  return if leftFits && rightFits then some { ty := .bool } else none

/-! ## Calls -/

/-- Resolve the type arguments of a call, reporting on each. -/
def resolveTypeArgs (site : Site) : List TypeExpr → Check (Option (List Ty))
  | [] => return some []
  | type :: types => do
    let head ← resolveType ctx site false type
    let tail ← resolveTypeArgs site types
    return do return (← head) :: (← tail)

/-- Type arguments against the constraints of the callee's parameters. -/
def callConstraintFaults (callee : Signature) (args : List Ty) : List Fault :=
  (callee.typeParams.zip args).filterMap fun entry =>
    let held := ctx.abilities entry.2
    if entry.1.constraints.subset held then none
    else some (.ability
      (.argument entry.2 entry.1.name callee.id (entry.1.constraints.diff held) none))

/-- Arguments against the parameter types. -/
def expectArguments (callee : FunctionId) (types : List Ty) :
    List (String × Ty) → List Operand → Check Bool
  | (name, ty) :: params, value :: values => do
    let fits ← expect ctx (.argument name callee) value.ty (ty.subst types)
    let others ← expectArguments callee types params values
    return fits && others
  | _, _ => return true

/-- The places that reference arguments point at, and whether mutably. -/
def referencePlaces (values : List Operand) : List (Bool × Place) :=
  values.filterMap fun value =>
    if value.ty.isRef then value.place.map (value.ty.isMutableRef, ·) else none

/-- The first mutable reference argument that shares a part with another, and that other one. -/
def aliasedPair? (places : List (Bool × Place)) : Option (Place × Place) :=
  places.zipIdx.findSome? fun ((mutable, place), index) =>
    if mutable then
      (places.zipIdx.find? fun ((_, other), position) =>
        decide (position ≠ index) && other.overlaps place).map fun ((_, other), _) => (place, other)
    else none

/-- No mutable reference is passed together with another one into the same place. -/
def checkAliasing (site : Site) (values : List Operand) : Check Unit := do
  let state ← get
  match aliasedPair? (referencePlaces values) with
  | none => return
  | some (place, other) =>
    report ctx site (.borrow (.aliased (label state place) (label state other)))

/-- The first live loan of a slot of this struct. -/
def loanOf? (loans : Loans) (struct : StructId) : Option Loan :=
  loans.live.values.find? fun loan =>
    match loan.place.root with
    | .global tag => decide (tag.id = struct)
    | _ => false

/-- Nothing the callee acquires is borrowed. -/
def checkAcquired (site : Site) (callee : Signature) : Check Unit :=
  callee.acquires.forM fun name => do
    let state ← get
    let struct : StructId := ⟨callee.id.module, name⟩
    match loanOf? state.loans struct with
    | none => return
    | some loan =>
      report ctx site (.borrow (.acquire callee.id struct (label state loan.place)))

/-- What a call returns: a returned reference comes from the reference arguments, keeps their loans
alive, and points where the only one of them does. -/
def callResult (ret : Ty) (values : List Operand) : Operand :=
  if ret.isRef then
    let references := values.filter (·.ty.isRef)
    { ty := ret
      loans := references.foldl (fun loans value => loans.union value.loans) ∅
      place :=
        match references with
        | [only] => only.place
        | _ => none }
  else { ty := ret }

/-- The operands, if all of them have a type. -/
def allOperands? : List (Option Operand) → Option (List Operand)
  | [] => some []
  | some value :: rest => (allOperands? rest).map (value :: ·)
  | none :: _ => none

/-- A call with arguments that all have a type. -/
def applyCall (site : Site) (callee : Signature) (types : List Ty)
    (values : List Operand) : Check (Option Operand) := do
  let fits ← expectArguments ctx callee.id types callee.params values
  checkAliasing ctx site values
  checkAcquired ctx site callee
  let result := callResult (callee.ret.subst types) values
  values.forM fun value => releaseUnheld (value.loans.diff result.loans)
  return if fits then some result else none

/-- A call, once its arguments have been checked. -/
def call (module : Option String) (function : String) (typeArgs : List TypeExpr)
    (values : List (Option Operand)) : Check (Option Operand) := do
  let id : FunctionId := ⟨module.getD ctx.module, function⟩
  let site := Site.call id
  match ctx.types.function? id with
  | none =>
    report ctx site (.unknownFunction id)
    return none
  | some callee =>
    modify fun state =>
      { state with access := { state.access with calls := state.access.calls.insert id } }
    if callee.typeParams.length ≠ typeArgs.length then
      report ctx site (.arityMismatch id callee.typeParams.length typeArgs.length)
      return none
    match ← resolveTypeArgs ctx site typeArgs with
    | none => return none
    | some types =>
      reportAll ctx site (callConstraintFaults ctx callee types)
      if callee.params.length ≠ values.length then
        report ctx site (.argumentCount id callee.params.length values.length)
        return none
      match allOperands? values with
      | none => return none
      | some operands => applyCall ctx site callee types operands

/-! ## Storage -/

/-- Remember that the body reaches a struct in storage. -/
def recordAccess (struct : StructId) : Check Unit :=
  modify fun state =>
    { state with access := { state.access with direct := state.access.direct.insert struct } }

/-- Publish a value under a signer's address. -/
def moveTo (tag : StructTag) (signer value : Operand) : Check (Option Operand) := do
  releaseUnheld signer.loans
  let signs := decide (signer.ty.referent? = some .signer)
  unless signs do report ctx .publishSigner (.mismatch .signerRef signer.ty)
  let fits ← expect ctx .publishValue value.ty tag.ty
  return if signs && fits then some { ty := .unit } else none

/-- Take a value out of storage; nothing of its type may be borrowed. -/
def moveFrom (tag : StructTag) (addr : Operand) : Check (Option Operand) := do
  let _ ← expect ctx (.storageAddress .moveFrom) addr.ty .address
  recordAccess tag.id
  let state ← get
  if let some loan := state.loans.conflicting? { root := .global tag } .exclusive then
    report ctx .takeOut (.borrow (.moveOut tag loan.mode (label state loan.place)))
  return some { ty := tag.ty }

/-- Borrow a value in storage. -/
def borrowGlobal (tag : StructTag) (mutable : Bool) (addr : Operand) : Check (Option Operand) := do
  let _ ← expect ctx (.storageAddress (.borrowGlobal mutable)) addr.ty .address
  recordAccess tag.id
  grant ctx (.storageBorrow (.borrowGlobal mutable)) { root := .global tag } mutable ∅ tag.ty

def existsAt (addr : Operand) : Check (Option Operand) := do
  if ← expect ctx (.storageAddress .existsAt) addr.ty .address then return some { ty := .bool }
  return none

/-! ## The walk -/

/-- Go on with an operand that has a type. -/
def withOperand (operand : Option Operand) (next : Operand → Check (Option Operand)) :
    Check (Option Operand) :=
  match operand with
  | some value => next value
  | none => return none

mutual

/-- The type and the loans of an expression; none if it has no type. -/
def expr : Expr → Check (Option Operand)
  | .unit => return some { ty := .unit }
  | .bool _ => return some { ty := .bool }
  | .u8 _ => return some { ty := .u8 }
  | .u64 _ => return some { ty := .u64 }
  | .u128 _ => return some { ty := .u128 }
  | .address _ => return some { ty := .address }
  | .var name => useLocal ctx .implicit name
  | .move name => useLocal ctx .move name
  | .copy name => useLocal ctx .copy name
  | .borrow mutable name => borrowLocal ctx mutable name
  | .borrowField mutable (.borrow baseMutable name) field => do
    withOperand (← localBase ctx (.fieldBorrow field) baseMutable name)
      (borrowField ctx mutable field)
  | .borrowField mutable base field => do
    withOperand (← expr base) (borrowField ctx mutable field)
  | .freeze inner => do withOperand (← expr inner) (freeze ctx)
  | .deref inner => do withOperand (← expr inner) (dereference ctx)
  | .pack struct fields => do pack ctx struct (← fieldValues fields)
  | .call module function typeArgs args => do
    call ctx module function typeArgs (← exprs args)
  | .binary op left right => do
    if op.isLogical then
      let leftOperand ← expr left
      let before ← get
      let rightOperand ← expr right
      let after ← get
      set (rewind after before.locals before.loans)
      let _ ← mergePaths before.locals.size ⟨after.locals, after.loans, false⟩ false
      withOperand leftOperand fun leftValue =>
        withOperand rightOperand (logical ctx op leftValue)
    else
      let leftOperand ← expr left
      let rightOperand ← expr right
      withOperand leftOperand fun leftValue =>
        withOperand rightOperand (binary ctx op leftValue)
  | .not inner => do withOperand (← expr inner) (negate ctx)
  | .vector elem items => do vector ctx elem (← exprs items)
  | .signerAddress inner => do withOperand (← expr inner) (signerAddress ctx)
  | .moveTo struct signer value => do
    let signerOperand ← expr signer
    let valueOperand ← expr value
    let tag ← storedStruct ctx .moveTo struct
    withOperand signerOperand fun signer =>
      withOperand valueOperand fun value =>
        match tag with
        | some tag => moveTo ctx tag signer value
        | none => return none
  | .moveFrom struct addr => do
    let operand ← expr addr
    let tag ← storedStruct ctx .moveFrom struct
    withOperand operand fun value =>
      match tag with
      | some tag => moveFrom ctx tag value
      | none => return none
  | .borrowGlobal struct mutable addr => do
    let operand ← expr addr
    let tag ← storedStruct ctx (.borrowGlobal mutable) struct
    withOperand operand fun value =>
      match tag with
      | some tag => borrowGlobal ctx tag mutable value
      | none => return none
  | .existsAt struct addr => do
    let operand ← expr addr
    let tag ← storedStruct ctx .existsAt struct
    withOperand operand fun value =>
      match tag with
      | some _ => existsAt ctx value
      | none => return none

/-- Expressions from left to right. -/
def exprs : List Expr → Check (List (Option Operand))
  | [] => return []
  | head :: tail => do
    let operand ← expr head
    let operands ← exprs tail
    return operand :: operands

/-- Field values from left to right. -/
def fieldValues : List (String × Expr) → Check (List (String × Option Operand))
  | [] => return []
  | (field, value) :: tail => do
    let operand ← expr value
    let operands ← fieldValues tail
    return (field, operand) :: operands

end

end Check

end Custody
