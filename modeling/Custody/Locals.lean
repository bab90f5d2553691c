import Custody.Diagnostic
import Custody.Loans
/-!
# Locals

Every binding of a function body has a slot for good; scopes list the bindings that names can reach.
A slot records whether its value is still owned, which loans a reference in it keeps alive, and what
such a reference points at. Paths through a body are followed on copies and joined afterwards.
-/

namespace Custody

namespace Ownership

/-- Two paths that disagree leave the matter open. -/
def join (left right : Ownership) : Ownership := if left = right then left else .maybeConsumed

/-- A value may still be there and has to be accounted for. -/
def holdsValue : Ownership → Bool
  | .consumed => false
  | _ => true

end Ownership

/-- What is known of one binding. -/
structure Slot where
  name : String
  ty : Ty
  abilities : AbilitySet
  state : Ownership := .live
  /-- Loans that the reference in this binding keeps alive. -/
  loans : LoanSet := ∅
  /-- What the reference in this binding points at, if known. -/
  place : Option Place := none

namespace Slot

def canDrop (slot : Slot) : Bool := slot.abilities.drop

def canCopy (slot : Slot) : Bool := slot.abilities.copy

/-- A value is left that may not be discarded. -/
def isOwed (slot : Slot) : Bool := slot.state.holdsValue && !slot.canDrop

def join (left right : Slot) : Slot :=
  { left with state := left.state.join right.state, loans := left.loans.union right.loans }

end Slot

/-- Slots by number, and the scopes: the innermost one, then those around it from the inside out. -/
structure Locals where
  slots : List Slot := []
  scope : List BindingId := []
  outer : List (List BindingId) := []

namespace Locals

variable (locals : Locals)

def size : Nat := locals.slots.length

def isEmpty (locals : Locals) : Bool := locals.slots.isEmpty

def slot? (id : BindingId) : Option Slot := locals.slots[id]?

def modify (locals : Locals) (id : BindingId) (change : Slot → Slot) : Locals :=
  { locals with slots := locals.slots.modify id change }

/-- Add a binding to the innermost scope. -/
def declare (slot : Slot) : BindingId × Locals :=
  (locals.size,
    { locals with slots := locals.slots ++ [slot], scope := locals.scope ++ [locals.size] })

/-- Every binding in scope, from the outermost. -/
def visible : List BindingId := (locals.scope :: locals.outer).reverse.flatten

def isNamed (name : String) (id : BindingId) : Bool :=
  match locals.slot? id with
  | some slot => decide (slot.name = name)
  | none => false

/-- The innermost binding of that name. -/
def lookup (name : String) : Option BindingId :=
  locals.visible.reverse.find? (locals.isNamed name)

/-- The latest binding of that name in the innermost scope. -/
def lookupScope (name : String) : Option BindingId :=
  locals.scope.reverse.find? (locals.isNamed name)

def pushScope : Locals :=
  { locals with scope := [], outer := locals.scope :: locals.outer }

/-- Leave the innermost scope and answer with its bindings; the outermost scope is never left. -/
def popScope : List BindingId × Locals :=
  match locals.outer with
  | [] => ([], locals)
  | next :: rest => (locals.scope, { locals with scope := next, outer := rest })

/-- Move the value out and answer with the loans it carried. -/
def consume (id : BindingId) : LoanSet × Locals :=
  (((locals.slot? id).map (·.loans)).getD ∅,
    locals.modify id fun slot => { slot with state := .consumed, loans := ∅ })

/-- Loans kept alive by bindings in scope that still hold a value. -/
def heldLoans : LoanSet :=
  locals.visible.foldl
    (fun held id =>
      match locals.slot? id with
      | some slot => if slot.state.holdsValue then held.union slot.loans else held
      | none => held)
    ∅

/-- Forget the bindings from number `size` on. -/
def truncate (size : Nat) : Locals :=
  { slots := locals.slots.take size
    scope := locals.scope.filter (· < size)
    outer := locals.outer.map fun scope => scope.filter (· < size) }

/-- Slots of two paths, as far as both have them. -/
def joinSlots : List Slot → List Slot → List Slot
  | left :: lefts, right :: rights => left.join right :: joinSlots lefts rights
  | lefts, _ => lefts

/-- Merge what another path knows of the slots that both paths have. -/
def join (other : Locals) : Locals :=
  { locals with slots := joinSlots locals.slots other.slots }

/-- A reference that is never read again keeps no loan alive. -/
def expire (read : List String) : Locals :=
  locals.visible.foldl
    (fun table id => table.modify id fun slot =>
      if slot.ty.isRef && !decide (slot.name ∈ read) then { slot with loans := ∅ } else slot)
    locals

end Locals

end Custody
