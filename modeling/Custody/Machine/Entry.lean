import Custody.Machine.Eval
/-!
# Executions

A function called by the host. The request is checked against the signature, the body runs over a
fresh transaction, and the transaction is committed only if the call returns.
-/

namespace Custody

namespace Universe

variable (u : Universe)

mutual

/-- Concrete, free of references, and naming only declared structs with their number of
arguments. -/
def isValueType : Ty → Bool
  | .param _ _ => false
  | .ref _ _ => false
  | .vector elem => isValueType elem
  | .struct id args =>
    (match u.struct? id with
      | some struct => decide (struct.typeParams.length = args.length)
      | none => false) && areValueTypes args
  | .unit | .bool | .u8 | .u64 | .u128 | .address | .signer => true

def areValueTypes : List Ty → Bool
  | [] => true
  | ty :: types => isValueType ty && areValueTypes types

end

/-- A type argument against its parameter. -/
def checkTypeArgument (function : FunctionId) (param : TypeParam) (arg : Ty) :
    Except ArgumentFault Unit :=
  let held := u.abilities [] arg
  if !u.isValueType arg then .error (.notValueType arg)
  else if !param.constraints.subset held then
    .error (.missingAbilities arg param.name (param.constraints.diff held))
  else
    match u.constraintFaults [] arg with
    | [] => .ok ()
    | fault :: _ => .error (.unmetConstraint ⟨.inFunction function .typeArgument, fault⟩)

/-- The type arguments of a call from the host. -/
def checkTypeArguments (signature : Signature) (args : List Ty) : Except ArgumentFault Unit :=
  if args.length ≠ signature.typeParams.length then
    .error (.typeArgumentCount signature.id signature.typeParams.length args.length)
  else (signature.typeParams.zip args).forM fun entry =>
    u.checkTypeArgument signature.id entry.1 entry.2

/-- What a parameter is bound to, given the cells that references already take. A reference to a
signer takes a signer, which gets a cell of its own. -/
def entryArgument (host : List Value) (param : String) (ty : Ty) (arg : Value) :
    Except ArgumentFault (Value × List Value) :=
  match ty with
  | .ref mutable .signer =>
    match arg with
    | .signer _ => .ok (.ref { root := .host host.length, mutable }, host ++ [arg])
    | _ => .error (.notSigner param arg.kind)
  | .ref _ _ => .error (.hostReference param ty)
  | _ =>
    if arg.conformsTo u ty then .ok (arg, host) else .error (.nonconforming param ty arg)

/-- The arguments of a call from the host, with the cells they take. -/
def entryArguments (typeArgs : List Ty) :
    List (String × Ty) → List Value → List Value → Except ArgumentFault (List Value × List Value)
  | (param, ty) :: params, arg :: args, host => do
    let (value, host) ← u.entryArgument host param (ty.subst typeArgs) arg
    let (values, host) ← entryArguments typeArgs params args host
    return (value :: values, host)
  | [], _, host => .ok ([], host)
  | _ :: _, [], host => .ok ([], host)

/-- A call from the host against the signature: the values of the parameters and the cells. -/
def acceptCall (signature : Signature) (typeArgs : List Ty) (args : List Value) :
    Except ArgumentFault (List Value × List Value) := do
  u.checkTypeArguments signature typeArgs
  if signature.ret.isRef then .error (.returnsReference signature.id)
  else if args.length ≠ signature.params.length then
    .error (.argumentCount signature.id signature.params.length args.length)
  else u.entryArguments typeArgs signature.params args []

end Universe

/-- What an execution that returned leaves behind. -/
structure Receipt where
  value : Value
  /-- Number of slots written. -/
  writes : Nat
  store : Store
  tally : Tally

namespace Setup

variable (setup : Setup) (store : Store) (function : FunctionId) (typeArgs : List Ty)
  (args : List Value)

/-- Run a function that the host calls: why the request is refused, or how the run ends. -/
def launch : Except Stop (EStateM.Result Stop Machine Value) := do
  let u := setup.program.types
  match setup.program.function? function, u.function? function with
  | some decl, some signature =>
    let (values, host) ←
      (u.acceptCall signature typeArgs args).mapError fun fault => .failure (.invalidArgument fault)
    match setup.maxCallDepth with
    | 0 => .error (.failure (.callDepthExceeded 0))
    | depth + 1 =>
      let frame := Exec.callFrame function decl typeArgs values
      let body := Exec.runBody setup (Exec.call setup depth) decl
      return Exec.visiting function values body (.start frame host store)
  | _, _ => .error (.failure (.unknownFunction function))

/-- Call a function from the host. Storage changes only if the call returns and its transaction
commits. -/
def execute : Except Stop Receipt := do
  match ← setup.launch store function typeArgs args with
  | .error stop _ => .error stop
  | .ok value machine =>
    let (writes, store) ← (machine.tx.commit store).mapError .failure
    return ⟨value, writes, store, machine.tally⟩

/-- What a call from the host did, however it ended. -/
def tally : Tally :=
  match setup.launch store function typeArgs args with
  | .error _ => {}
  | .ok (.ok _ machine) => machine.tally
  | .ok (.error _ machine) => machine.tally

end Setup

end Custody
