import Custody.Ty
/-!
# Places

A place is what a reference may point at: a root followed by a chain of fields. Roots of storage are
known by their type only, since addresses are not known before execution; two of them are kept apart
only if no instantiation of their parameters can make them the same slot.
-/

namespace Custody

/-- Position of a local among all bindings of a function body. -/
abbrev BindingId := Nat

/-! ## Aliasing of instantiations -/

namespace Ty

mutual

/-- Some choice of the parameters may make the two types the same. -/
def mayAlias : Ty → Ty → Bool
  | .param _ _, _ => true
  | _, .param _ _ => true
  | .vector left, .vector right => mayAlias left right
  | .struct leftId left, .struct rightId right =>
    decide (leftId = rightId) && allMayAlias left right
  | left, right => decide (left = right)

/-- The lists have one length and may alias position by position. -/
def allMayAlias : List Ty → List Ty → Bool
  | [], [] => true
  | left :: lefts, right :: rights => mayAlias left right && allMayAlias lefts rights
  | _, _ => false

end

end Ty

/-- Two instantiations may denote the same storage slot once their parameters are known. -/
def StructTag.mayAlias (left right : StructTag) : Bool :=
  decide (left.id = right.id) && Ty.allMayAlias left.args right.args

/-! ## Places -/

/-- Where a place starts. -/
inductive Root where
  | local (id : BindingId)
  /-- What a reference parameter points at; the caller owns it. -/
  | param (id : BindingId)
  /-- The storage slots of a type, all addresses taken together. -/
  | global (tag : StructTag)
deriving DecidableEq

def Root.mayAlias : Root → Root → Bool
  | .local left, .local right => decide (left = right)
  | .param left, .param right => decide (left = right)
  | .global left, .global right => left.mayAlias right
  | _, _ => false

/-- A root and a chain of fields below it. -/
structure Place where
  root : Root
  fields : List String := []
deriving DecidableEq

namespace Place

def child (place : Place) (field : String) : Place :=
  { place with fields := place.fields ++ [field] }

/-- One field chain continues the other. -/
def chainsMeet : List String → List String → Bool
  | [], _ => true
  | _, [] => true
  | left :: lefts, right :: rights => decide (left = right) && chainsMeet lefts rights

/-- The places have a part in common: their roots may be the same and one lies inside the other. -/
def overlaps (left right : Place) : Bool :=
  left.root.mayAlias right.root && chainsMeet left.fields right.fields

def render (place : Place) : String :=
  let root :=
    match place.root with
    | .local id => "local#" ++ toString id
    | .param id => "param#" ++ toString id
    | .global tag => "global<" ++ tag.render ++ ">"
  root ++ String.join (place.fields.map ("." ++ ·))

end Place

/-! ## Loan modes -/

/-- How a reference holds its place. -/
inductive LoanMode where
  | shared
  | exclusive
deriving DecidableEq

namespace LoanMode

def ofMutable (mutable : Bool) : LoanMode := if mutable then .exclusive else .shared

/-- Loans of one place exclude each other unless both are shared. -/
def conflictsWith (left right : LoanMode) : Bool :=
  decide (left = .exclusive) || decide (right = .exclusive)

def name : LoanMode → String
  | .shared => "shared"
  | .exclusive => "exclusive"

end LoanMode

end Custody
