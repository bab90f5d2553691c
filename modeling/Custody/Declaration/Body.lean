import Custody.Address
/-!
# Function bodies

Types as they are written, and the expressions and statements of function bodies. Nothing here is
resolved: a struct is named by an optional module and a name, a type parameter by its name.
-/

namespace Custody

/-- A type as written. A struct without a module belongs to the module that mentions it. -/
inductive TypeExpr where
  | bool
  | u8
  | u64
  | u128
  | address
  | signer
  | vector (elem : TypeExpr)
  | struct (module : Option String) (name : String) (args : List TypeExpr)
  | param (name : String)
  | ref (mutable : Bool) (inner : TypeExpr)

/-- A struct as written, with its type arguments. -/
structure StructExpr where
  module : Option String := none
  name : String
  args : List TypeExpr := []

/-- The struct taken as a type. -/
def StructExpr.type (struct : StructExpr) :
    TypeExpr := .struct struct.module struct.name struct.args

/-- Binary operators. -/
inductive BinOp where
  | add
  | sub
  | mul
  | div
  | mod
  | eq
  | neq
  | lt
  | le
  | gt
  | ge
  | and
  | or
deriving DecidableEq

namespace BinOp

def symbol : BinOp → String
  | .add => "+"
  | .sub => "-"
  | .mul => "*"
  | .div => "/"
  | .mod => "%"
  | .eq => "=="
  | .neq => "!="
  | .lt => "<"
  | .le => "<="
  | .gt => ">"
  | .ge => ">="
  | .and => "&&"
  | .or => "||"

def isArithmetic : BinOp → Bool
  | .add | .sub | .mul | .div | .mod => true
  | _ => false

def isOrdering : BinOp → Bool
  | .lt | .le | .gt | .ge => true
  | _ => false

/-- The right operand may be left out. -/
def isLogical : BinOp → Bool
  | .and | .or => true
  | _ => false

end BinOp

/-- Expressions. -/
inductive Expr where
  | unit
  | bool (value : Bool)
  | u8 (value : BitVec 8)
  | u64 (value : BitVec 64)
  | u128 (value : BitVec 128)
  | address (value : Address)
  /-- Use of a local: a copy if its type permits, a move otherwise. -/
  | var (name : String)
  | move (name : String)
  | copy (name : String)
  /-- A reference to a local. -/
  | borrow (mutable : Bool) (name : String)
  /-- A reference to a field of what `base` refers to. -/
  | borrowField (mutable : Bool) (base : Expr) (field : String)
  /-- A mutable reference taken as a shared one. -/
  | freeze (inner : Expr)
  | deref (inner : Expr)
  | pack (struct : StructExpr) (fields : List (String × Expr))
  | call (module : Option String) (function : String) (typeArgs : List TypeExpr) (args : List Expr)
  | binary (op : BinOp) (left right : Expr)
  | not (inner : Expr)
  | vector (elem : TypeExpr) (items : List Expr)
  /-- The address of a signer. -/
  | signerAddress (inner : Expr)
  | moveTo (struct : StructExpr) (signer value : Expr)
  | moveFrom (struct : StructExpr) (addr : Expr)
  | borrowGlobal (struct : StructExpr) (mutable : Bool) (addr : Expr)
  | existsAt (struct : StructExpr) (addr : Expr)

/-- What becomes of one field of an unpacked struct. -/
inductive Binder where
  | bind (name : String)
  | ignore
deriving DecidableEq

/-- Statements. A block is a list of them. -/
inductive Stmt where
  /-- Introduce a local. -/
  | bind (name : String) (type : Option TypeExpr) (value : Expr)
  /-- Take a struct apart. -/
  | unpack (struct : StructExpr) (fields : List (String × Binder)) (value : Expr)
  | assign (name : String) (value : Expr)
  /-- Replace what a mutable reference refers to. -/
  | write (target value : Expr)
  | branch (cond : Expr) (onTrue : List Stmt) (onFalse : Option (List Stmt))
  | loop (cond : Expr) (body : List Stmt)
  | ret (value : Option Expr)
  | abort (code : Expr)
  | assert (cond : Expr) (code : BitVec 64)
  /-- Evaluate and discard. -/
  | eval (value : Expr)

end Custody
