import Custody.Declaration.Body
import Custody.Fault
/-!
# Diagnostics

A diagnostic is a fault at a location: a module, perhaps a function of it, and the construct at
fault there.
-/

namespace Custody

/-- How far a local's value has been given away. -/
inductive Ownership where
  /-- The binding owns its value. -/
  | live
  /-- The value has been moved out. -/
  | consumed
  /-- Moved out on some paths and not on others. -/
  | maybeConsumed
deriving DecidableEq

def Ownership.name : Ownership → String
  | .live => "live"
  | .consumed => "consumed"
  | .maybeConsumed => "possibly consumed"

/-- The construct a fault was found in. -/
inductive Site where
  /-- A site named by the host. -/
  | named (text : String)
  | struct (name : String)
  | structField (owner field : String)
  | signature
  | param (name : String)
  | returnType
  | endOfFunction
  | endOfBlock
  | endOfScope (name : String)
  | shadowed (name : String)
  | binding (name : String)
  | assignment (name : String)
  | writeThrough
  | branchCondition
  | loopCondition
  | insideLoop
  | ret
  | abortCode
  | assertCondition
  | discarded
  | use (action : StructUse) (name : String)
  | useField (action : StructUse) (name field : String)
  | ignoredField (name field : String)
  | freeze
  | dereference
  | operator (op : BinOp)
  | negation
  | vectorType
  | vectorItem
  | signerAddress
  | publishSigner
  | publishValue
  | takeOut
  | storageAddress (action : StructUse)
  | storageBorrow (action : StructUse)
  | localUse (name : String) (state : Option Ownership)
  | localCopy (name : String)
  | localMove (name : String)
  | localBorrow (name : String)
  | fieldBorrow (field : String)
  | call (callee : FunctionId)
  | argument (name : String) (callee : FunctionId)
  | acquires
  | storageAccess (id : StructId)
  | typeArgument
  | execution
deriving DecidableEq

def Site.render : Site → String
  | .named text => text
  | .struct name => "struct " ++ name
  | .structField owner field => "struct " ++ owner ++ " field `" ++ field ++ "`"
  | .signature => "signature"
  | .param name => "parameter `" ++ name ++ "`"
  | .returnType => "return type"
  | .endOfFunction => "end of function"
  | .endOfBlock => "end of block"
  | .endOfScope name => "end of scope of `" ++ name ++ "`"
  | .shadowed name => "`" ++ name ++ "` shadowed"
  | .binding name => "let `" ++ name ++ "`"
  | .assignment name => "assignment to `" ++ name ++ "`"
  | .writeThrough => "write through reference"
  | .branchCondition => "if condition"
  | .loopCondition => "while condition"
  | .insideLoop => "moved inside loop"
  | .ret => "return"
  | .abortCode => "abort code"
  | .assertCondition => "assert condition"
  | .discarded => "discarded expression value"
  | .use action name => action.word ++ " `" ++ name ++ "`"
  | .useField action name field => action.word ++ " `" ++ name ++ "` field `" ++ field ++ "`"
  | .ignoredField name field => "unpack `" ++ name ++ "` field `" ++ field ++ "` bound to `_`"
  | .freeze => "freeze"
  | .dereference => "dereference"
  | .operator op => "operator `" ++ op.symbol ++ "`"
  | .negation => "operator `!`"
  | .vectorType => "vector element type"
  | .vectorItem => "vector element"
  | .signerAddress => "signer address"
  | .publishSigner => "move_to signer"
  | .publishValue => "move_to value"
  | .takeOut => "move_from"
  | .storageAddress action => action.word ++ " address"
  | .storageBorrow action => action.word
  | .localUse name none => "use of `" ++ name ++ "`"
  | .localUse name (some state) => "use of `" ++ name ++ "` (" ++ state.name ++ ")"
  | .localCopy name => "copy of `" ++ name ++ "`"
  | .localMove name => "move of `" ++ name ++ "`"
  | .localBorrow name => "borrow of `" ++ name ++ "`"
  | .fieldBorrow field => "borrow of field `" ++ field ++ "`"
  | .call callee => "call `" ++ callee.render ++ "`"
  | .argument name callee => "argument `" ++ name ++ "` of `" ++ callee.render ++ "`"
  | .acquires => "acquires"
  | .storageAccess id => "access to `" ++ id.render ++ "`"
  | .typeArgument => "type argument"
  | .execution => "runtime"

/-- Where a fault was found. -/
structure Location where
  module : String
  function : Option String := none
  site : Site
deriving DecidableEq

namespace Location

/-- A location inside a function. -/
def inFunction (id : FunctionId) (site : Site) : Location := ⟨id.module, some id.name, site⟩

def render (location : Location) : String :=
  let subject :=
    match location.function with
    | some name => location.module ++ "::" ++ name
    | none => location.module
  let detail := location.site.render
  if detail.isEmpty then subject else subject ++ " (" ++ detail ++ ")"

end Location

/-- A fault at a location. -/
structure Diagnostic where
  location : Location
  fault : Fault
deriving DecidableEq

def Diagnostic.message (diagnostic : Diagnostic) : String :=
  diagnostic.location.render ++ ": " ++ diagnostic.fault.describe

end Custody
