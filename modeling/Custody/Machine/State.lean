import Custody.Check.Program
import Custody.Transaction
/-!
# The machine

The state of an execution: a frame of bindings per active call, the cells the host supplied, and a
transaction over storage. A machine stops with a failure, or because a loop ran longer than the host
allows; the two are kept apart, since the second says nothing about the program.
-/

namespace Custody

/-- A local of a running function; its value is absent once moved out. -/
structure Binding where
  name : String
  value : Option Value

/-- Position of the last binding of that name. -/
def Binding.lastIndex? (name : String) : List Binding → Option Nat
  | [] => none
  | binding :: bindings =>
    match lastIndex? name bindings with
    | some index => some (index + 1)
    | none => if binding.name = name then some 0 else none

/-- An active call; the bindings stand in the order of their introduction. -/
structure Frame where
  function : FunctionId
  typeParams : List TypeParam := []
  typeArgs : List Ty := []
  bindings : List Binding := []

/-- An operation on a slot of storage. -/
structure Reach where
  use : StructUse
  key : SlotKey
  /-- The calls that were active, newest first. -/
  calls : List Frame

/-- A call that returned. -/
structure Visit where
  function : FunctionId
  args : List Value
  /-- What each argument led to when the call began, if it was a reference. -/
  began : List (Option Value)
  /-- What each argument led to when the call returned. -/
  ended : List (Option Value)

/-- What an execution did. The host may look at it; programs cannot. -/
structure Tally where
  /-- The structs packed so far, newest first. -/
  packed : List StructId := []
  /-- The structs unpacked so far, newest first. -/
  unpacked : List StructId := []
  /-- The calls begun so far, as they began, newest first. -/
  entered : List Frame := []
  /-- The operations on storage so far, newest first. -/
  reached : List Reach := []
  /-- The calls that returned so far, newest first. -/
  returned : List Visit := []

/-- All that a run reads or changes. -/
structure Machine where
  /-- The frame of the running function. -/
  current : Frame
  /-- The frames waiting for it, newest first. -/
  callers : List Frame := []
  /-- Values supplied by the host for reference parameters. -/
  host : List Value := []
  /-- Committed storage as it was when the execution began. -/
  store : Store
  tx : Transaction := .begin
  tally : Tally := {}

/-- Why a machine stopped without a result. -/
inductive Stop where
  | failure (failure : Failure)
  /-- A loop ran longer than allowed. -/
  | outOfFuel
deriving DecidableEq

/-- What an execution is held to. -/
structure Setup where
  program : Program
  /-- How many calls may be active at once. -/
  maxCallDepth : Nat := 1024
  /-- How often one loop may repeat. -/
  loopBound : Nat

/-- A step of a run. -/
abbrev Exec := EStateM Stop Machine

namespace Machine

/-- A machine about to run the function of a frame, for the host. -/
def start (frame : Frame) (host : List Value) (store : Store) : Machine :=
  { current := frame, host, store, tally := { entered := [frame] } }

variable (machine : Machine)

/-- The frames of a machine, oldest first. -/
def frames : List Frame := (machine.current :: machine.callers).reverse

/-- Frame number `n`, counted from the first call. -/
def frame? (n : Nat) : Option Frame :=
  let depth := machine.callers.length
  if n = depth then some machine.current
  else if n < depth then machine.callers[depth - 1 - n]?
  else none

def modifyFrame (n : Nat) (change : Frame → Frame) : Machine :=
  let depth := machine.callers.length
  if n = depth then { machine with current := change machine.current }
  else if n < depth then { machine with callers := machine.callers.modify (depth - 1 - n) change }
  else machine

/-- The value of a binding that has not been moved out. -/
def local? (frame index : Nat) : Option Value := do
  let frame ← machine.frame? frame
  let binding ← frame.bindings[index]?
  binding.value

def setLocal (frame index : Nat) (value : Option Value) : Machine :=
  machine.modifyFrame frame fun frame =>
    { frame with bindings := frame.bindings.modify index fun binding => { binding with value } }

/-- The number of the running function's frame. -/
def top : Nat := machine.callers.length

/-- The value at which a reference starts, if there is one. -/
def root? : RefRoot → Option Value
  | .local frame index => machine.local? frame index
  | .global key => (machine.tx.entry machine.store key).value
  | .host index => machine.host[index]?

/-- The value a reference refers to, if there is one. -/
def at? (reference : Reference) : Option Value :=
  (machine.root? reference.root).bind fun whole => (whole.descend reference.path).toOption

/-- What a value leads to, if it is a reference that leads somewhere. -/
def behind? : Value → Option Value
  | .ref reference => machine.at? reference
  | _ => none

/-- Begin a call. -/
def enter (frame : Frame) : Machine :=
  { machine with current := frame, callers := machine.current :: machine.callers }

/-- End a call: the frame that waited longest for nothing but this one runs on. -/
def leave : Machine :=
  match machine.callers with
  | [] => machine
  | caller :: callers => { machine with current := caller, callers := callers }

end Machine

namespace Exec

def fail {α : Type} (failure : Failure) : Exec α := throw (.failure failure)

def breach {α : Type} (breach : Breach) : Exec α := fail (.invariantViolation breach)

/-- A result that is there, or a breach. -/
def require {α : Type} (result : Option α) (otherwise : Breach) : Exec α :=
  match result with
  | some value => pure value
  | none => breach otherwise

def sound {α : Type} (result : Except Breach α) : Exec α :=
  match result with
  | .ok value => pure value
  | .error reason => breach reason

/-- A step of the transaction that cannot fail. -/
def look {α : Type} (step : Operation α) : Exec α :=
  modifyGet fun machine =>
    let (result, tx) := step machine.tx machine.store
    (result, { machine with tx })

/-- A step of the transaction. -/
def storage {α : Type} (step : Operation (Except Failure α)) : Exec α := do
  match ← look step with
  | .ok value => pure value
  | .error failure => fail failure

/-- A step of the transaction to which a reference led. -/
def referred {α : Type} (step : Operation (Except Failure α)) : Exec α :=
  storage fun tx store =>
    let (result, tx) := step tx store
    (result.mapError Failure.viaReference, tx)

/-- Count a struct made. -/
def countPacked (id : StructId) : Exec Unit :=
  modify fun machine =>
    { machine with tally := { machine.tally with packed := id :: machine.tally.packed } }

/-- Count a struct taken apart. -/
def countUnpacked (id : StructId) : Exec Unit :=
  modify fun machine =>
    { machine with tally := { machine.tally with unpacked := id :: machine.tally.unpacked } }

/-- Count a call begun. -/
def countEntered (frame : Frame) : Exec Unit :=
  modify fun machine =>
    { machine with tally := { machine.tally with entered := frame :: machine.tally.entered } }

/-- Count an operation on a slot. -/
def countReached (use : StructUse) (key : SlotKey) : Exec Unit :=
  modify fun machine =>
    { machine with tally := { machine.tally with
        reached := ⟨use, key, machine.current :: machine.callers⟩ :: machine.tally.reached } }

/-- Run a call and, if it returns, note what its arguments led to before it and after it. -/
def visiting (id : FunctionId) (args : List Value) (run : Exec Value) : Exec Value := do
  let began := args.map (← get).behind?
  let value ← run
  modify fun machine =>
    { machine with tally := { machine.tally with
        returned := ⟨id, args, began, args.map machine.behind?⟩ :: machine.tally.returned } }
  return value

/-! ## Bindings -/

def bindingIndex (name : String) : Exec Nat := do
  require (Binding.lastIndex? name (← get).current.bindings) (.unknownLocal name)

def bind (name : String) (value : Value) : Exec Unit :=
  modify fun machine =>
    { machine with
      current := { machine.current with
        bindings := machine.current.bindings ++ [{ name, value := some value }] } }

def bindAll (values : List (String × Value)) : Exec Unit :=
  values.forM fun entry => bind entry.1 entry.2

def assign (name : String) (value : Value) : Exec Unit := do
  let index ← bindingIndex name
  modify fun machine => machine.setLocal machine.top index (some value)

def readLocal (name : String) : Exec Value := do
  let index ← bindingIndex name
  let machine ← get
  require (machine.local? machine.top index) (.movedRead name)

def takeLocal (name : String) : Exec Value := do
  let index ← bindingIndex name
  let machine ← get
  let value ← require (machine.local? machine.top index) (.movedMove name)
  set (machine.setLocal machine.top index none)
  return value

/-! ## Places -/

def misstep (step : Value.Misstep) : Breach :=
  match step with
  | .outOfRange => .fieldOutOfRange
  | .notStruct kind => .fieldAccess kind

def follow (result : Except Value.Misstep Value) : Exec Value :=
  sound (result.mapError misstep)

/-- The value at the root of a reference. -/
def readRoot (root : RefRoot) : Exec Value := do
  match root with
  | .local frame index => require ((← get).local? frame index) .danglingLocal
  | .global key => referred fun tx store => tx.read store key
  | .host index => require (← get).host[index]? .danglingHost

/-- The value a reference refers to. -/
def readPlace (reference : Reference) : Exec Value := do
  follow ((← readRoot reference.root).descend reference.path)

/-- Replace the value a reference refers to. -/
def writePlace (reference : Reference) (part : Value) : Exec Unit := do
  match reference.root with
  | .local frame index =>
    let whole ← require ((← get).local? frame index) .danglingLocal
    let changed ← follow (whole.replaceAt reference.path part)
    modify fun machine => machine.setLocal frame index (some changed)
  | .global key =>
    match ← referred fun tx store => tx.update store key (·.replaceAt reference.path part) with
    | .ok () => pure ()
    | .error step => breach (misstep step)
  | .host index =>
    let whole ← require (← get).host[index]? .danglingHost
    let changed ← follow (whole.replaceAt reference.path part)
    modify fun machine => { machine with host := machine.host.set index changed }

/-- The value itself, or what it refers to. -/
def readThrough : Value → Exec Value
  | .ref reference => readPlace reference
  | value => pure value

/-! ## Types -/

/-- Something a written type denotes in the running function. -/
def resolved {α : Type} (result : Except Fault α) : Exec α := do
  match result with
  | .ok value => pure value
  | .error fault =>
    let frame := (← get).current
    breach (.unresolved ⟨.inFunction frame.function .execution, fault⟩)

/-- The instantiation a written struct denotes in the running function. -/
def resolveStruct (setup : Setup) (struct : StructExpr) : Exec StructTag := do
  let frame := (← get).current
  let tag ← resolved <|
    setup.program.types.resolveStruct frame.function.module frame.typeParams struct
  return tag.subst frame.typeArgs

def resolveType (setup : Setup) (type : TypeExpr) : Exec Ty := do
  let frame := (← get).current
  let ty ← resolved <| setup.program.types.resolve frame.function.module frame.typeParams type
  return ty.subst frame.typeArgs

def structDef (setup : Setup) (tag : StructTag) : Exec StructDef :=
  require (setup.program.types.struct? tag.id) (.unknownStruct tag)

/-- Run a call in a frame of its own, which goes away however the call ends. -/
def inFrame {α : Type} (frame : Frame) (body : Exec α) : Exec α := fun machine =>
  match body (machine.enter frame) with
  | .ok value machine => .ok value machine.leave
  | .error stop machine => .error stop machine.leave

end Exec

end Custody
