import Custody.Machine.Operators
import Custody.Machine.State
/-!
# Evaluation

Expressions and statements, each given how to run a call. A call runs at one level less than its
caller may still go, so evaluation is structural in the remaining levels and in the body.
-/

namespace Custody.Exec

/-- How a declared function is run on type arguments and arguments. -/
abbrev Invoke := FunctionId → FunctionDecl → List Ty → List Value → Exec Value

/-- Where control goes after a statement. -/
inductive Flow where
  | next
  | ret (value : Value)

variable (setup : Setup) (invoke : Invoke)

/-! ## Expressions -/

def asBool : Value → Exec Bool
  | .bool value => pure value
  | value => breach (.expected .bool value.kind)

def asAddress : Value → Exec Address
  | .address value => pure value
  | value => breach (.expected .address value.kind)

/-- The address of a signer, or of a signer referred to. -/
def signerOf (value : Value) : Exec Address := do
  match ← readThrough value with
  | .signer address => return address
  | value => breach (.expected .signer value.kind)

/-- An operator on evaluated operands. Equality looks through references. -/
def binary (op : BinOp) (left right : Value) : Exec Value := do
  match op with
  | .eq => return .bool (decide ((← readThrough left) = (← readThrough right)))
  | .neq => return .bool (decide ((← readThrough left) ≠ (← readThrough right)))
  | .and | .or => breach (.eagerOperator op)
  | .lt | .le | .gt | .ge => sound (op.compareValues left right)
  | .add | .sub | .mul | .div | .mod =>
    match ← sound (op.combineValues left right) with
    | .ok value => return value
    | .error fault => fail (.arithmetic op fault (← get).current.function)

/-- A reference to a field of what a reference refers to. -/
def borrowField (mutable : Bool) (base : Value) (field : String) : Exec Value := do
  match base with
  | .ref reference =>
    match ← readPlace reference with
    | .struct tag _ =>
      let struct ← structDef setup tag
      let index ← require (struct.fieldIndex? field) (.unknownField tag field)
      return .ref (reference.field index mutable)
    | value => breach (.fieldBorrow value.kind)
  | _ => breach .fieldBorrowNonReference

def freeze : Value → Exec Value
  | .ref reference => return .ref { reference with mutable := false }
  | value => breach (.freeze value.kind)

def dereference : Value → Exec Value
  | .ref reference => readPlace reference
  | value => breach (.dereference value.kind)

/-- A reference to a local of the running function. -/
def borrowLocal (mutable : Bool) (name : String) : Exec Value := do
  let index ← bindingIndex name
  return .ref { root := .local (← get).top index, mutable }

def pack (struct : StructExpr) (given : List (String × Value)) : Exec Value := do
  let tag ← resolveStruct setup struct
  let struct ← structDef setup tag
  let value ← sound (struct.pack tag given)
  countPacked tag.id
  return value

/-- The function a call names, with its type arguments, run on evaluated arguments. -/
def callFunction (module : Option String) (function : String)
    (typeArgs : List TypeExpr) (args : List Value) : Exec Value := do
  let types ← typeArgs.mapM (resolveType setup)
  let id : FunctionId := ⟨module.getD (← get).current.function.module, function⟩
  match setup.program.function? id with
  | some decl => invoke id decl types args
  | none => fail (.unknownFunction id)

/-- The slot of a written struct at an address. -/
def slotKey (struct : StructExpr) (address : Value) : Exec SlotKey := do
  let address ← asAddress address
  return ⟨address, ← resolveStruct setup struct⟩

mutual

/-- The value of an expression. -/
def eval : Expr → Exec Value
  | .unit => pure .unit
  | .bool value => pure (.bool value)
  | .u8 value => pure (.u8 value)
  | .u64 value => pure (.u64 value)
  | .u128 value => pure (.u128 value)
  | .address value => pure (.address value)
  | .var name => readLocal name
  | .copy name => readLocal name
  | .move name => takeLocal name
  | .borrow mutable name => borrowLocal mutable name
  | .borrowField mutable base field => do
    borrowField setup mutable (← eval base) field
  | .freeze inner => do freeze (← eval inner)
  | .deref inner => do dereference (← eval inner)
  | .pack struct fields => do pack setup struct (← evalFields fields)
  | .call module function typeArgs args => do
    callFunction setup invoke module function typeArgs (← evalAll args)
  | .binary .and left right => do
    if ← asBool (← eval left) then
      return .bool (← asBool (← eval right))
    else return .bool false
  | .binary .or left right => do
    if ← asBool (← eval left) then return .bool true
    else return .bool (← asBool (← eval right))
  | .binary op left right => do
    let left ← eval left
    binary op left (← eval right)
  | .not inner => do return .bool !(← asBool (← eval inner))
  | .vector _ items => do return .vector (← evalAll items)
  | .signerAddress inner => do return .address (← signerOf (← eval inner))
  | .moveTo struct signer value => do
    let address ← signerOf (← eval signer)
    let value ← eval value
    let tag ← resolveStruct setup struct
    countReached .moveTo ⟨address, tag⟩
    storage fun tx store => tx.moveTo store ⟨address, tag⟩ value
    return .unit
  | .moveFrom struct addr => do
    let key ← slotKey setup struct (← eval addr)
    countReached .moveFrom key
    storage fun tx store => tx.moveFrom store key
  | .borrowGlobal struct mutable addr => do
    let key ← slotKey setup struct (← eval addr)
    countReached (.borrowGlobal mutable) key
    let _ ← storage fun tx store => tx.read store key
    return .ref { root := .global key, mutable }
  | .existsAt struct addr => do
    let key ← slotKey setup struct (← eval addr)
    countReached .existsAt key
    return .bool (← look fun tx store => tx.existsAt store key)

def evalAll : List Expr → Exec (List Value)
  | [] => pure []
  | expr :: exprs => do
    let value ← eval expr
    return value :: (← evalAll exprs)

def evalFields : List (String × Expr) → Exec (List (String × Value))
  | [] => pure []
  | (field, expr) :: rest => do
    let value ← eval expr
    return (field, value) :: (← evalFields rest)

end

/-! ## Statements -/

/-- Run a block: what it binds goes away at its end. -/
def inScope (block : Exec Flow) : Exec Flow := do
  let mark := (← get).current.bindings.length
  let flow ← block
  modify fun machine =>
    { machine with
      current := { machine.current with bindings := machine.current.bindings.take mark } }
  return flow

/-- Repeat a body while a condition holds. -/
def repeatWhile (cond : Exec Bool) (body : Exec Flow) : Nat → Exec Flow
  | 0 => throw .outOfFuel
  | bound + 1 => do
    if ← cond then
      match ← body with
      | .ret value => return .ret value
      | .next => repeatWhile cond body bound
    else return .next

/-- Stop with a code of the program. -/
def abort {α : Type} (code : BitVec 64) : Exec α := do
  fail (.aborted code (← get).current.function)

def abortWith : Value → Exec Flow
  | .u64 code => abort code
  | _ => breach .abortCode

def unpack (fields : List (String × Binder)) : Value → Exec Unit
  | .struct tag values => do
    let struct ← structDef setup tag
    let bound ← sound (struct.unpack fields (values.map some))
    countUnpacked tag.id
    bindAll bound
  | _ => breach .unpackNonStruct

def writeThrough (target value : Value) : Exec Unit :=
  match target with
  | .ref reference => if reference.mutable then writePlace reference value else breach .writeShared
  | _ => breach .writeNonReference

mutual

/-- Run one statement. -/
def run : Stmt → Exec Flow
  | .bind name _ value => do
    bind name (← eval setup invoke value)
    return .next
  | .unpack _ fields value => do
    unpack setup fields (← eval setup invoke value)
    return .next
  | .assign name value => do
    assign name (← eval setup invoke value)
    return .next
  | .write target value => do
    let value ← eval setup invoke value
    writeThrough (← eval setup invoke target) value
    return .next
  | .branch cond onTrue onFalse => do
    if ← asBool (← eval setup invoke cond) then inScope (runAll onTrue)
    else runOtherwise onFalse
  | .loop cond body =>
    repeatWhile (do asBool (← eval setup invoke cond)) (inScope (runAll body))
      setup.loopBound
  | .ret none => return .ret .unit
  | .ret (some value) => do return .ret (← eval setup invoke value)
  | .abort code => do abortWith (← eval setup invoke code)
  | .assert cond code => do
    if ← asBool (← eval setup invoke cond) then return .next else abort code
  | .eval value => do
    let _ ← eval setup invoke value
    return .next

/-- Run statements up to the first that returns. -/
def runAll : List Stmt → Exec Flow
  | [] => pure .next
  | stmt :: stmts => do
    match ← run stmt with
    | .ret value => return .ret value
    | .next => runAll stmts

def runOtherwise : Option (List Stmt) → Exec Flow
  | none => pure .next
  | some block => inScope (runAll block)

end

/-! ## Calls -/

/-- The frame a call starts with: one binding per parameter. -/
def callFrame (id : FunctionId) (decl : FunctionDecl) (typeArgs : List Ty) (args : List Value) :
    Frame :=
  { function := id
    typeParams := decl.typeParams
    typeArgs
    bindings := decl.params.zipWith (fun param value => ⟨param.name, some value⟩) args }

/-- The result of a body: the end of a body returns the unit. -/
def Flow.result : Flow → Value
  | .next => .unit
  | .ret value => value

/-- The body of a function, run in the current frame. -/
def runBody (decl : FunctionDecl) : Exec Value := do
  return (← inScope (runAll setup invoke decl.body)).result

/-- Run a function in a frame of its own, where at most `depth` more calls may be active. -/
def call : Nat → Invoke
  | 0 => fun _ _ _ _ => fail (.callDepthExceeded setup.maxCallDepth)
  | depth + 1 => fun id decl typeArgs args => do
    countEntered (callFrame id decl typeArgs args)
    visiting id args
      (inFrame (callFrame id decl typeArgs args) (runBody setup (call depth) decl))

end Custody.Exec
