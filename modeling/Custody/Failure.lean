import Custody.Value.Render
/-!
# Failures of executions

Why an execution stopped without a result. Every failure undoes the storage writes of the execution
that raised it. A breach is a state that an accepted program never reaches.
-/

namespace Custody

/-- What is wrong with a request of the host. -/
inductive ArgumentFault where
  | notStorable (kind : Value.Kind)
  | returnsReference (function : FunctionId)
  | argumentCount (function : FunctionId) (expected actual : Nat)
  | typeArgumentCount (function : FunctionId) (expected actual : Nat)
  | notValueType (ty : Ty)
  | missingAbilities (ty : Ty) (param : String) (missing : AbilitySet)
  | unmetConstraint (diagnostic : Diagnostic)
  | notSigner (param : String) (kind : Value.Kind)
  | hostReference (param : String) (ty : Ty)
  | nonconforming (param : String) (ty : Ty) (value : Value)
deriving DecidableEq

def ArgumentFault.describe : ArgumentFault → String
  | .notStorable kind => "only struct values can be stored, got a " ++ kind.name
  | .returnsReference function =>
    "`" ++ function.render ++ "` returns a reference and cannot be called from the host"
  | .argumentCount function expected actual =>
    "`" ++ function.render ++ "` expects " ++ toString expected ++ " argument(s), got " ++
      toString actual
  | .typeArgumentCount function expected actual =>
    "`" ++ function.render ++ "` expects " ++ toString expected ++ " type argument(s), got " ++
      toString actual
  | .notValueType ty => "`" ++ ty.render ++ "` is not a concrete value type"
  | .missingAbilities ty param missing =>
    "type argument `" ++ ty.render ++ "` for `" ++ param ++ "` lacks " ++ missing.render
  | .unmetConstraint diagnostic => diagnostic.message
  | .notSigner param kind => "parameter `" ++ param ++ "` expects a signer, got a " ++ kind.name
  | .hostReference param ty =>
    "parameter `" ++ param ++ "` of type `" ++ ty.render ++ "` cannot be supplied by the host"
  | .nonconforming param ty value =>
    "parameter `" ++ param ++ "` expects `" ++ ty.render ++ "`, got " ++ value.render

/-- What a broken invariant of execution was. -/
inductive Breach where
  | unresolved (diagnostic : Diagnostic)
  | unknownStruct (tag : StructTag)
  | unknownField (tag : StructTag) (field : String)
  | unknownLocal (name : String)
  | movedRead (name : String)
  | movedMove (name : String)
  | danglingLocal
  | danglingHost
  | fieldOutOfRange
  | fieldAccess (kind : Value.Kind)
  | unpackNonStruct
  | unpackField (field : String)
  | writeNonReference
  | writeShared
  | abortCode
  | expected (wanted actual : Value.Kind)
  | fieldBorrowNonReference
  | fieldBorrow (kind : Value.Kind)
  | freeze (kind : Value.Kind)
  | dereference (kind : Value.Kind)
  | unsetField (tag : StructTag)
  | eagerOperator (op : BinOp)
  | operands (op : BinOp) (left right : Value.Kind)
deriving DecidableEq

def Breach.describe : Breach → String
  | .unresolved diagnostic => diagnostic.message
  | .unknownStruct tag => "unknown struct `" ++ tag.render ++ "`"
  | .unknownField tag field => "`" ++ tag.render ++ "` has no field `" ++ field ++ "`"
  | .unknownLocal name => "unknown local `" ++ name ++ "`"
  | .movedRead name => "read of moved local `" ++ name ++ "`"
  | .movedMove name => "move of moved local `" ++ name ++ "`"
  | .danglingLocal => "dangling reference to a local"
  | .danglingHost => "dangling host reference"
  | .fieldOutOfRange => "field index out of range"
  | .fieldAccess kind => "field access on a " ++ kind.name
  | .unpackNonStruct => "unpack of a non-struct value"
  | .unpackField field => "bad unpack of field `" ++ field ++ "`"
  | .writeNonReference => "write through a non-reference"
  | .writeShared => "write through a shared reference"
  | .abortCode => "abort code is not a u64"
  | .expected wanted actual => "expected " ++ wanted.name ++ ", got " ++ actual.name
  | .fieldBorrowNonReference => "field borrow through a non-reference"
  | .fieldBorrow kind => "field borrow on a " ++ kind.name
  | .freeze kind => "freeze of a " ++ kind.name
  | .dereference kind => "dereference of a " ++ kind.name
  | .unsetField tag => "pack of `" ++ tag.render ++ "` left a field unset"
  | .eagerOperator op => "operator `" ++ op.symbol ++ "` evaluated without short-circuiting"
  | .operands op left right =>
    "operator `" ++ op.symbol ++ "` on " ++ left.name ++ " and " ++ right.name

/-- Why an arithmetic operation has no result. -/
inductive ArithmeticFault where
  | overflow
  | underflow
  | divisionByZero
  | unsupported
deriving DecidableEq

def ArithmeticFault.describe : ArithmeticFault → String
  | .overflow => "overflow"
  | .underflow => "underflow"
  | .divisionByZero => "division by zero"
  | .unsupported => "unsupported operator"

/-- A slot in which something was sought that is not there. -/
structure Absence where
  key : SlotKey
  /-- A reference led to the slot. -/
  viaReference : Bool := false
deriving DecidableEq

instance : Coe SlotKey Absence := ⟨fun key => { key }⟩

/-- Failure of one execution. -/
inductive Failure where
  | alreadyExists (key : SlotKey)
  | missing (absence : Absence)
  | aborted (code : BitVec 64) (function : FunctionId)
  | arithmetic (op : BinOp) (fault : ArithmeticFault) (function : FunctionId)
  | callDepthExceeded (limit : Nat)
  | unknownFunction (function : FunctionId)
  | invalidArgument (fault : ArgumentFault)
  /-- A slot was written by another transaction after this one had looked at it. -/
  | conflict (key : SlotKey)
  | invariantViolation (breach : Breach)
deriving DecidableEq

namespace Failure

def message : Failure → String
  | .alreadyExists key => "`" ++ key.tag.render ++ "` already exists at " ++ key.address.render
  | .missing absence => "no `" ++ absence.key.tag.render ++ "` at " ++ absence.key.address.render
  | .aborted code function => function.render ++ ": aborted with code " ++ toString code.toNat
  | .arithmetic op fault function =>
    function.render ++ ": arithmetic error in `" ++ op.symbol ++ "`: " ++ fault.describe
  | .callDepthExceeded limit => "call depth limit of " ++ toString limit ++ " exceeded"
  | .unknownFunction function => "unknown function `" ++ function.render ++ "`"
  | .invalidArgument fault => "invalid argument: " ++ fault.describe
  | .conflict key =>
    "`" ++ key.tag.render ++ "` at " ++ key.address.render ++
      " was changed by a concurrent transaction"
  | .invariantViolation breach => "internal invariant violated: " ++ breach.describe

def code : Failure → String
  | .alreadyExists _ => "slate::runtime::resource_already_exists"
  | .missing _ => "slate::runtime::missing_resource"
  | .aborted _ _ => "slate::runtime::aborted"
  | .arithmetic _ _ _ => "slate::runtime::arithmetic"
  | .callDepthExceeded _ => "slate::runtime::call_depth_exceeded"
  | .unknownFunction _ => "slate::runtime::unknown_function"
  | .invalidArgument _ => "slate::runtime::invalid_argument"
  | .conflict _ => "slate::runtime::conflict"
  | .invariantViolation _ => "slate::runtime::invariant_violation"

def help? : Failure → Option String
  | .alreadyExists _ =>
    some "an address holds at most one resource of each type; `move_from` it first"
  | .missing _ => some "guard the access with `exists`"
  | .callDepthExceeded _ =>
    some "raise `runtime.max_call_depth` in slate.toml if the recursion is intended"
  | .conflict _ => some "nothing was written; the invocation can be retried"
  | _ => none

/-- A failure to find something, where a reference led to it. -/
def viaReference : Failure → Failure
  | .missing absence => .missing { absence with viaReference := true }
  | failure => failure

/-- The code of a failure that the program itself raised. -/
def abortCode? : Failure → Option (BitVec 64)
  | .aborted code _ => some code
  | _ => none

end Failure

end Custody
