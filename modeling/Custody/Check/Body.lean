import Custody.Check.Expr
/-!
# Checking statements and bodies

Statements are checked in order. Behind each one, references that are not read again give up their
loans, and loans that nothing holds end. The paths of a branch and of a loop are followed from one
point and merged where they meet.
-/

namespace Custody

namespace Check

variable [Watch] (ctx : BodyContext)

/-! ## Statements without blocks -/

def bindStmt (name : String) (type : Option TypeExpr) (value : Option Operand) : Check Unit := do
  let site := Site.binding name
  let annotated ←
    match type with
    | some type => resolveType ctx site true type
    | none => pure none
  match value with
  | none => bindPoisoned ctx name
  | some operand =>
    match annotated with
    | none => bind ctx name operand
    | some ty =>
      if ← expect ctx site operand.ty ty then bind ctx name { operand with ty := ty }
      else bind ctx name operand

/-- Bind every name of an unpacking whose value could not be checked. -/
def poisonBinders (binders : List (String × Binder)) : Check Unit :=
  binders.forM fun entry =>
    match entry.2 with
    | .bind name => bindPoisoned ctx name
    | .ignore => return

/-- Bind the fields of an unpacked struct; what is ignored has to be droppable. -/
def bindFields (struct : String) (fields : List (String × Ty))
    (binders : List (String × Binder)) : Check Unit :=
  binders.forM fun entry =>
    match fields.lookup entry.1 with
    | none => return
    | some ty =>
      match entry.2 with
      | .bind name => bind ctx name { ty := ty }
      | .ignore =>
        if (ctx.abilities ty).drop then return
        else report ctx (.ignoredField struct entry.1) (.missingDrop ty)

def unpackStmt (struct : StructExpr) (binders : List (String × Binder))
    (value : Option Operand) : Check Unit := do
  let tag ← ownStruct ctx .unpack struct
  match value, tag with
  | some operand, some tag =>
    if ← expect ctx (.use .unpack struct.name) operand.ty tag.ty then
      let fields := (ctx.types.instantiateFields? tag).getD []
      if ← coversFields ctx .unpack struct.name tag (fields.map (·.1)) (binders.map (·.1)) then
        bindFields ctx struct.name fields binders
      else poisonBinders ctx binders
    else poisonBinders ctx binders
  | _, _ => poisonBinders ctx binders

def assignStmt (name : String) (value : Option Operand) : Check Unit := do
  let site := Site.assignment name
  let state ← get
  look state.locals state.locals.visible
  match state.locals.lookup name with
  | none => report ctx site (.unknownLocal name)
  | some id =>
    if id ∈ state.poisoned then return
    look state.locals [id]
    match value, state.locals.slot? id with
    | some operand, some slot =>
      if ← expect ctx site operand.ty slot.ty then
        if slot.isOwed then report ctx site (.missingDrop slot.ty)
        if let some loan := state.loans.conflicting? { root := .local id } .exclusive then
          report ctx site (.borrow (.assign name loan.mode (label state loan.place)))
        look (← get).locals [id]
        modify fun state =>
          { state with
            locals := state.locals.modify id fun slot =>
              { slot with state := .live, loans := operand.loans, place := operand.place } }
    | _, _ => return

def writeStmt (value target : Option Operand) : Check Unit := do
  match value, target with
  | some value, some target =>
    match target.ty with
    | .ref true inner =>
      checkAccess ctx .writeThrough .exclusive target
      let _ ← expect ctx .writeThrough value.ty inner
      if !(ctx.abilities inner).drop then report ctx .writeThrough (.missingDrop inner)
    | _ => report ctx .writeThrough (.mismatch .mutableRef target.ty)
  | _, _ => return

/-- Only what reference parameters point at outlives the call. -/
def checkReturned (operand : Operand) : Check Unit := do
  let state ← get
  let escaping := operand.loans.toList.findSome? fun id =>
    match state.loans.get? id with
    | none => none
    | some loan =>
      match loan.place.root with
      | .param _ => none
      | _ => some (label state loan.place)
  match escaping with
  | none => return
  | some target => report ctx .ret (.borrow (.escapes target))

def returnStmt (value : Option Operand) : Check Unit := do
  if let some operand := value then
    if ← expect ctx .ret operand.ty ctx.signature.ret then
      if ctx.signature.ret.isRef then checkReturned ctx operand
  let state ← get
  checkUnconsumed ctx .ret state.locals.visible

/-- An operand of a fixed type. -/
def expectOperand (site : Site) (value : Option Operand) (ty : Ty) : Check Unit := do
  if let some operand := value then
    let _ ← expect ctx site operand.ty ty

def discardStmt (value : Option Operand) : Check Unit := do
  if let some operand := value then
    if operand.ty ≠ .unit && !(ctx.abilities operand.ty).drop then
      report ctx .discarded (.missingDrop operand.ty)

/-! ## Blocks -/

/-- Walk a block in a scope of its own. The walk is told which names may be read behind the
block. -/
def inScope (walk : List String → Check Bool) : Check Bool := do
  modify fun state => { state with locals := state.locals.pushScope }
  let outer := (← get).liveAfter
  let ended ← walk outer
  let state ← get
  let (popped, locals) := state.locals.popScope
  set { state with liveAfter := outer, locals := locals }
  unless ended do
    checkUnconsumed ctx .endOfBlock popped
    releaseTemporaries
    checkOutlived ctx popped
  return ended

/-- One statement of a block, with the names that may be read behind it. -/
def settle (liveAfter : List String) (walk : Check Bool) : Check Bool := do
  modify fun state => { state with liveAfter := liveAfter }
  let ended ← walk
  lookAround
  modify fun state => { state with locals := state.locals.expire state.liveAfter }
  releaseTemporaries
  return ended

/-- A value that the body of a loop consumes would be consumed again the next time round. -/
def checkLoopMoves (before : Locals) : Check Unit :=
  (List.range before.size).forM fun id => do
    let state ← get
    if id ∈ state.poisoned then return
    look before [id]
    look state.locals [id]
    match before.slot? id, state.locals.slot? id with
    | some old, some slot =>
      if old.state = .live ∧ slot.state ≠ .live then
        report ctx .insideLoop (.usedAfterMove slot.name)
    | _, _ => return

/-- The two paths of a branch. -/
def branchPaths (onTrue onFalse : Check Bool) : Check Bool := do
  releaseTemporaries
  let before ← get
  let endedTrue ← onTrue
  let after ← get
  set (rewind after before.locals before.loans)
  let endedFalse ← onFalse
  mergePaths before.locals.size ⟨after.locals, after.loans, endedTrue⟩ endedFalse

/-- The paths of a loop: its body may run or not, so a loop never ends the block around it. `names`
are those the loop itself may read the next time round. -/
def loopPaths (names : List String) (body : Check Bool) : Check Unit := do
  releaseTemporaries
  let before ← get
  set { before with liveAfter := names ++ before.liveAfter }
  let ended ← body
  modify fun state => { state with liveAfter := before.liveAfter }
  unless ended do checkLoopMoves ctx before.locals
  let after ← get
  set (rewind after before.locals before.loans)
  let _ ← mergePaths before.locals.size ⟨after.locals, after.loans, ended⟩ false

mutual

/-- Check a statement; the answer says whether every path through it ends in a return or an
abort. -/
def stmt : Stmt → Check Bool
  | .bind name type value => do
    bindStmt ctx name type (← expr ctx value)
    return false
  | .unpack struct binders value => do
    unpackStmt ctx struct binders (← expr ctx value)
    return false
  | .assign name value => do
    assignStmt ctx name (← expr ctx value)
    return false
  | .write target value => do
    let operand ← expr ctx value
    writeStmt ctx operand (← expr ctx target)
    return false
  | .branch cond onTrue none => do
    expectOperand ctx .branchCondition (← expr ctx cond) .bool
    branchPaths (inScope ctx fun outer => stmts outer onTrue) (return false)
  | .branch cond onTrue (some onFalse) => do
    expectOperand ctx .branchCondition (← expr ctx cond) .bool
    branchPaths (inScope ctx fun outer => stmts outer onTrue)
      (inScope ctx fun outer => stmts outer onFalse)
  | .loop cond body => do
    expectOperand ctx .loopCondition (← expr ctx cond) .bool
    loopPaths ctx (cond.names ++ Stmt.blockNames body)
      (inScope ctx fun outer => stmts outer body)
    return false
  | .ret none => do
    returnStmt ctx (some { ty := .unit })
    return true
  | .ret (some value) => do
    returnStmt ctx (← expr ctx value)
    return true
  | .abort code => do
    expectOperand ctx .abortCode (← expr ctx code) .u64
    return true
  | .assert cond _ => do
    expectOperand ctx .assertCondition (← expr ctx cond) .bool
    return false
  | .eval value => do
    discardStmt ctx (← expr ctx value)
    return false

/-- Check the statements of a block up to the first that ends every path; `outer` may be read behind
the block. -/
def stmts (outer : List String) : List Stmt → Check Bool
  | [] => return false
  | head :: tail => do
    if ← settle (Stmt.blockNames tail ++ outer) (stmt head) then return true
    stmts outer tail

end

/-! ## Bodies -/

/-- Declare a parameter. What a reference parameter points at counts as borrowed: the caller keeps
it free of conflicts while the call lasts. -/
def declareParam (name : String) (ty : Ty) : Check Unit := do
  let state ← get
  let id := state.locals.size
  let slot : Slot := { name := name, ty := ty, abilities := ctx.abilities ty }
  match ty with
  | .ref mutable _ =>
    let place : Place := { root := .param id }
    let (loan, loans) := state.loans.insert ⟨place, .ofMutable mutable, ∅⟩
    tell (.issued loan ⟨place, .ofMutable mutable, ∅⟩)
    let (_, locals) := state.locals.declare
      { slot with loans := SortedSet.ofList [loan], place := some place }
    set { state with locals := locals, loans := loans }
  | _ => set { state with locals := (state.locals.declare slot).2 }
  look (← get).locals [id]

/-- Declare the parameters; a repeated name is reported and left out. -/
def params (seen : List String) : List (String × Ty) → Check Unit
  | [] => return
  | (name, ty) :: rest => do
    if name ∈ seen then
      report ctx (.param name) (.duplicate name)
      params seen rest
    else
      reportAll ctx (.param name) (ctx.constraintFaults ty)
      declareParam ctx name ty
      params (name :: seen) rest

/-- Check a whole body. -/
def body (block : List Stmt) : Check Unit := do
  params ctx [] ctx.signature.params
  reportAll ctx .returnType (ctx.constraintFaults ctx.signature.ret)
  let ended ← inScope ctx fun outer => stmts ctx outer block
  unless ended do
    if ctx.signature.ret ≠ .unit then
      report ctx .endOfFunction (.mismatch (.type ctx.signature.ret) .unit)
    let state ← get
    checkUnconsumed ctx .endOfFunction state.locals.visible

end Check

/-- What checking a body leaves behind. -/
def Check.runBody (ctx : BodyContext) (block : List Stmt) : BodyState := (body ctx block {}).2

end Custody
