import Custody.Failure
/-!
# Operators on values

Checked arithmetic, comparison, and the assembly of structs from named fields.
-/

namespace Custody

/-- Unsigned arithmetic of one width; a result that does not fit is a fault. -/
def BinOp.arithmetic {width : Nat} (op : BinOp) (left right : BitVec width) :
    Except ArithmeticFault (BitVec width) :=
  match op with
  | .add => if left.toNat + right.toNat < Nat.pow 2 width then .ok (left + right)
      else .error .overflow
  | .sub => if right.toNat ≤ left.toNat then .ok (left - right) else .error .underflow
  | .mul => if left.toNat * right.toNat < Nat.pow 2 width then .ok (left * right)
      else .error .overflow
  | .div => if right.toNat = 0 then .error .divisionByZero else .ok (left / right)
  | .mod => if right.toNat = 0 then .error .divisionByZero else .ok (left % right)
  | _ => .error .unsupported

/-- The four orderings; any other operator asks for "at least". -/
def BinOp.holds {width : Nat} (op : BinOp) (left right : BitVec width) : Bool :=
  match op with
  | .lt => left.toNat < right.toNat
  | .le => left.toNat ≤ right.toNat
  | .gt => right.toNat < left.toNat
  | _ => right.toNat ≤ left.toNat

/-- An ordering of two numbers of one width. -/
def BinOp.compareValues (op : BinOp) : Value → Value → Except Breach Value
  | .u8 left, .u8 right => .ok (.bool (op.holds left right))
  | .u64 left, .u64 right => .ok (.bool (op.holds left right))
  | .u128 left, .u128 right => .ok (.bool (op.holds left right))
  | left, right => .error (.operands op left.kind right.kind)

/-- Arithmetic on two numbers of one width. -/
def BinOp.combineValues (op : BinOp) : Value → Value → Except Breach (Except ArithmeticFault Value)
  | .u8 left, .u8 right => .ok ((op.arithmetic left right).map .u8)
  | .u64 left, .u64 right => .ok ((op.arithmetic left right).map .u64)
  | .u128 left, .u128 right => .ok ((op.arithmetic left right).map .u128)
  | left, right => .error (.operands op left.kind right.kind)

/-! ## Structs -/

/-- Values that stand in named places, in the places' order. -/
def StructDef.placeFields (struct : StructDef) (tag : StructTag) :
    List (String × Value) → List (Option Value) → Except Breach (List (Option Value))
  | [], places => .ok places
  | (field, value) :: rest, places =>
    match struct.fieldIndex? field with
    | some index => struct.placeFields tag rest (places.set index (some value))
    | none => .error (.unknownField tag field)

/-- Every place, provided that all are filled. -/
def allFilled? {α : Type} : List (Option α) → Option (List α)
  | [] => some []
  | none :: _ => none
  | some value :: rest => (allFilled? rest).map (value :: ·)

/-- A struct from its fields, given in any order. -/
def StructDef.pack (struct : StructDef) (tag : StructTag) (given : List (String × Value)) :
    Except Breach Value := do
  let places ← struct.placeFields tag given (struct.fields.map fun _ => none)
  match allFilled? places with
  | some fields => return .struct tag fields
  | none => .error (.unsetField tag)

/-- Take the named fields out one after another, and keep those that are given a name. -/
def StructDef.unpack (struct : StructDef) :
    List (String × Binder) → List (Option Value) → Except Breach (List (String × Value))
  | [], _ => .ok []
  | (field, binder) :: rest, places => do
    let index ← (struct.fieldIndex? field).elim (.error (.unpackField field)) .ok
    match places[index]? with
    | some (some value) =>
      let bound ← struct.unpack rest (places.set index none)
      match binder with
      | .bind name => return (name, value) :: bound
      | .ignore => return bound
    | _ => .error (.unpackField field)

end Custody
