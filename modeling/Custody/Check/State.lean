import Custody.Acquires
import Custody.Liveness
import Custody.Locals
import Custody.Universe.Abilities
/-!
# Checking a body: state and basic steps

A body is walked once, forward. The state holds the locals and the live loans of the path being
followed, and collects problems and storage accesses on the way. A step that finds a problem reports
it and the walk goes on; an expression that cannot be given a type has none, and what depends on it
is not reported again.
-/

namespace Custody

/-- What a body is checked against. -/
structure BodyContext where
  types : Universe
  signature : Signature

namespace BodyContext

variable (ctx : BodyContext)

/-- The module the body belongs to. -/
def module : String := ctx.signature.id.module

/-- Abilities of a type inside the body, where parameters have what they are constrained to. -/
def abilities (ty : Ty) : AbilitySet :=
  ctx.types.abilities (constraintSets ctx.signature.typeParams) ty

def constraintFaults (ty : Ty) : List Fault :=
  ctx.types.constraintFaults (constraintSets ctx.signature.typeParams) ty

end BodyContext

/-- What is known at a point of a body. -/
structure BodyState where
  locals : Locals := {}
  loans : Loans := {}
  /-- Bindings whose value could not be checked; their uses are not reported again. -/
  poisoned : List BindingId := []
  /-- Names that may be read after the current statement. -/
  liveAfter : List String := []
  access : Access := {}
  problems : List Diagnostic := []

/-- The type of an expression, the loans its value keeps alive and the place it points at. -/
structure Operand where
  ty : Ty
  loans : LoanSet := ∅
  place : Option Place := none

/-- What there is to be told of loans. -/
inductive Notice where
  /-- The loan gets a number. -/
  | issued (id : LoanId) (loan : Loan)
  /-- The loans of two paths are about to be joined. -/
  | joined (loans other : Loans)

/-- Somebody to be told which slots checking looks up and what becomes of loans, who may have an
effect of their own. -/
class Watch where
  Effect : Type → Type
  monad : Monad Effect
  /-- Slots of these numbers are about to be read or written, in a table of this size. -/
  look : List BindingId → Nat → Effect PUnit
  tell : Notice → Effect PUnit := fun _ => pure ⟨⟩

attribute [reducible, instance] Watch.monad

/-- Nobody is told, and checking is a function of the state. -/
instance unwatched : Watch where
  Effect := Id
  monad := inferInstance
  look _ _ := pure ⟨⟩

/-- A step of checking a body. -/
abbrev Check [Watch] := StateT BodyState Watch.Effect

namespace Check

variable [Watch] (ctx : BodyContext)

/-- Slots of a table are about to be read or written. -/
def look (locals : Locals) (ids : List BindingId) : Check PUnit :=
  StateT.lift (Watch.look ids locals.size)

def tell (notice : Notice) : Check PUnit := StateT.lift (Watch.tell notice)

/-- All bindings in scope are about to be looked up. -/
def lookAround : Check PUnit := do
  let state ← get
  look state.locals state.locals.visible

/-! ## Reporting -/

variable (site : Site)

def report (fault : Fault) : Check Unit :=
  modify fun state =>
    { state with
      problems := state.problems ++ [⟨.inFunction ctx.signature.id site, fault⟩] }

def reportAll (faults : List Fault) : Check Unit :=
  modify fun state =>
    { state with
      problems := state.problems ++ faults.map (⟨.inFunction ctx.signature.id site, ·⟩) }

/-- The found type may stand for the expected one; otherwise report it. -/
def expect (found expected : Ty) : Check Bool := do
  if found.flowsInto expected then return true
  report ctx site (.mismatch (.type expected) found)
  return false

/-- How diagnostics name a place. A place may outlast its slot, so here the table is asked first
whether it has the slot. -/
def label (state : BodyState) (place : Place) : PlaceLabel :=
  let root :=
    match place.root with
    | .local id | .param id =>
      match state.locals.slot? id with
      | some slot => .binding slot.name
      | none => .someLocal
    | .global tag => .global tag
  ⟨root, place.fields⟩

/-! ## Types -/

/-- Resolve a written type and hold it to the constraints inside it. -/
def resolveType (top : Bool) (type : TypeExpr) : Check (Option Ty) := do
  match ctx.types.resolveAt ctx.module ctx.signature.typeParams top type with
  | .ok ty =>
    reportAll ctx site (ctx.constraintFaults ty)
    return some ty
  | .error fault =>
    report ctx site fault
    return none

/-- A struct of the body's own module; no other module may pack, unpack, open or store it. -/
def ownStruct (action : StructUse) (struct : StructExpr) : Check (Option StructTag) := do
  let site := Site.use action struct.name
  match ctx.types.resolveStruct ctx.module ctx.signature.typeParams struct with
  | .error fault =>
    report ctx site fault
    return none
  | .ok tag =>
    reportAll ctx site (ctx.constraintFaults tag.ty)
    if tag.id.module = ctx.module then return some tag
    report ctx site (.shape (.foreignUse action tag))
    return none

/-- A struct of the body's own module that has `key`. -/
def storedStruct (action : StructUse) (struct : StructExpr) : Check (Option StructTag) := do
  match ← ownStruct ctx action struct with
  | none => return none
  | some tag =>
    if (ctx.abilities tag.ty).key then return some tag
    report ctx (.use action struct.name) (.ability (.keyless action tag))
    return none

/-- Names given again, and names that are no field. -/
def givenFaults (tag : StructTag) (fields : List String) (seen : List String) :
    List String → List (String × Fault)
  | [] => []
  | name :: names =>
    if name ∈ seen then (name, .duplicate name) :: givenFaults tag fields seen names
    else if name ∈ fields then givenFaults tag fields (name :: seen) names
    else (name, .shape (.noField tag name)) :: givenFaults tag fields (name :: seen) names

/-- What keeps a list of given names from being exactly the fields of a struct, each once. -/
def coverageFaults (action : StructUse) (struct : String) (tag : StructTag) (fields : List String)
    (given : List String) : List (Site × Fault) :=
  (givenFaults tag fields [] given).map (fun entry => (.useField action struct entry.1, entry.2)) ++
    (fields.filter fun field => !decide (field ∈ given)).map fun field =>
      (.use action struct, .shape (.missingField tag field))

/-- The names given for the fields of a struct are exactly its fields, each once. -/
def coversFields (action : StructUse) (struct : String) (tag : StructTag)
    (fields : List String) (given : List String) : Check Bool := do
  let faults := coverageFaults action struct tag fields given
  faults.forM fun entry => report ctx entry.1 entry.2
  return faults.isEmpty

/-! ## Loans -/

/-- Let go of every loan that no binding holds. -/
def releaseTemporaries : Check Unit := do
  lookAround
  modify fun state => { state with loans := state.loans.retain state.locals.heldLoans }

/-- Let go of those of the given loans that no binding holds. -/
def releaseUnheld (ids : LoanSet) : Check Unit := do
  lookAround
  modify fun state =>
    let held := state.locals.heldLoans
    { state with
      loans := ids.toList.foldl
        (fun loans id => if held.contains id then loans else loans.release id) state.loans }

/-- Take out a loan; the operand refers to the place and keeps the loan and its parents alive. -/
def grant (site : Site) (place : Place) (mutable : Bool) (parents : LoanSet)
    (referent : Ty) : Check (Option Operand) := do
  let state ← get
  let mode := LoanMode.ofMutable mutable
  match state.loans.grant ⟨place, mode, parents⟩ with
  | .ok (id, loans) =>
    tell (.issued id ⟨place, mode, parents⟩)
    set { state with loans := loans }
    return some { ty := .ref mutable referent, loans := parents.insert id, place := some place }
  | .error existing =>
    report ctx site (.borrow
      (.grant mode (label state place) existing.mode (label state existing.place)))
    return none

/-- Reading or writing through a reference is not blocked by a loan it was not derived from. -/
def checkAccess (mode : LoanMode) (reference : Operand) : Check Unit := do
  let state ← get
  match reference.place with
  | none => return
  | some place =>
    match state.loans.conflictingAccess? place mode reference.loans with
    | none => return
    | some loan =>
      report ctx site (.borrow
        (.through mode (label state place) loan.mode (label state loan.place)))

/-! ## Bindings -/

/-- Move the value of a binding out. -/
def consume (id : BindingId) : Check Unit := do
  look (← get).locals [id]
  modify fun state => { state with locals := (state.locals.consume id).2 }

/-- A new binding in one scope discards the value of an older one of that name. -/
def dropShadowed (name : String) : Check Unit := do
  let state ← get
  look state.locals state.locals.scope
  match state.locals.lookupScope name with
  | none => return
  | some id =>
    look state.locals [id]
    match state.locals.slot? id with
    | none => return
    | some slot =>
      if !decide (id ∈ state.poisoned) && slot.isOwed then
        report ctx (.shadowed name) (.unconsumed name slot.ty)
      consume id

/-- Bind a name to a checked value. -/
def bind (name : String) (value : Operand) : Check Unit := do
  dropShadowed ctx name
  let id := (← get).locals.size
  modify fun state =>
    { state with
      locals := (state.locals.declare
        { name := name, ty := value.ty, abilities := ctx.abilities value.ty, loans := value.loans,
          place := value.place }).2 }
  look (← get).locals [id]

/-- Bind a name whose value could not be checked. -/
def bindPoisoned (name : String) : Check Unit := do
  dropShadowed ctx name
  modify fun state =>
    let (id, locals) := state.locals.declare { name := name, ty := .unit, abilities := .all }
    { state with locals := locals, poisoned := id :: state.poisoned }

/-- Values that may not be discarded are gone from the given bindings. -/
def checkUnconsumed (ids : List BindingId) : Check Unit :=
  ids.forM fun id => do
    let state ← get
    look state.locals [id]
    match state.locals.slot? id with
    | none => return
    | some slot =>
      if !decide (id ∈ state.poisoned) && slot.isOwed then
        report ctx site (.unconsumed slot.name slot.ty)

/-- No reference outlives the local it borrows. -/
def checkOutlived (ended : List BindingId) : Check Unit := do
  let state ← get
  look state.locals ended
  let dangling := state.loans.live.values.filterMap fun loan =>
    match loan.place.root with
    | .local id => if id ∈ ended then (state.locals.slot? id).map (·.name) else none
    | _ => none
  dangling.forM fun name => report ctx (.endOfScope name) (.borrow (.outlived name))

/-! ## Paths -/

/-- Where a path through the body stands: its locals and loans, and whether it has ended in a return
or an abort. -/
structure Path where
  locals : Locals
  loans : Loans
  ended : Bool

/-- Go back to an earlier point to follow another path from it; loan numbers go on. -/
def rewind (state : BodyState) (locals : Locals) (loans : Loans) : BodyState :=
  { state with locals := locals, loans := loans.continueFrom state.loans }

/-- Merge another path into the current one behind the point where they meet. Bindings from number
`size` on are out of scope there, and a path that has ended does not get there. The answer says
whether no path does. -/
def mergePaths (size : Nat) (other : Path) (ended : Bool) : Check Bool := do
  modify fun state =>
    { state with
      locals := state.locals.truncate size
      poisoned := state.poisoned.filter (· < size) }
  let locals := other.locals.truncate size
  match other.ended, ended with
  | true, _ => return ended
  | false, true =>
    modify fun state =>
      { state with locals := locals, loans := other.loans.continueFrom state.loans }
    return false
  | false, false =>
    let state ← get
    let shared := List.range (min state.locals.size locals.size)
    look state.locals shared
    look locals shared
    tell (.joined state.loans other.loans)
    modify fun state =>
      { state with locals := state.locals.join locals, loans := state.loans.join other.loans }
    return false

end Check

end Custody
