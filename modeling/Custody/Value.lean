import Custody.Ty
import Custody.Universe.Basic
/-!
# Values

What programs compute with and storage holds. A reference is a path: a root and the positions of the
fields below it. References exist only while a program runs.
-/

namespace Custody

/-- A storage slot: an address and the type of resource kept there. -/
structure SlotKey where
  address : Address
  tag : StructTag
deriving DecidableEq

namespace SlotKey

/-- Slots are ordered by address first. -/
def order (left right : SlotKey) : Ordering :=
  (compare left.address right.address).then (compare left.tag right.tag)

instance : Ord SlotKey := ⟨order⟩

instance : Std.TransOrd SlotKey :=
  inferInstanceAs (Std.TransCmp (compareLex (compareOn address) (compareOn tag)))

instance : Std.LawfulEqOrd SlotKey where
  eq_of_compare {left right} equal := by
    have parts : compare left.address right.address = .eq ∧ compare left.tag right.tag = .eq :=
      Ordering.then_eq_eq.mp equal
    cases left
    cases right
    rw [mk.injEq]
    exact ⟨Std.LawfulEqOrd.eq_of_compare parts.1, Std.LawfulEqOrd.eq_of_compare parts.2⟩

def render (key : SlotKey) : String := key.tag.render ++ "@" ++ key.address.render

end SlotKey

/-- Where a reference starts. -/
inductive RefRoot where
  /-- A binding of a call frame; frames are numbered from the first call. -/
  | local (frame index : Nat)
  | global (key : SlotKey)
  /-- A value that the host supplied for a reference parameter. -/
  | host (index : Nat)
deriving DecidableEq

/-- A path from a root. -/
structure Reference where
  root : RefRoot
  path : List Nat := []
  mutable : Bool
deriving DecidableEq

/-- A reference to a field of what this one refers to. -/
def Reference.field (reference : Reference) (index : Nat) (mutable : Bool) : Reference :=
  { reference with path := reference.path ++ [index], mutable := mutable }

/-- Values; the fields of a struct stand in the order of declaration. -/
inductive Value where
  | unit
  | bool (value : Bool)
  | u8 (value : BitVec 8)
  | u64 (value : BitVec 64)
  | u128 (value : BitVec 128)
  | address (value : Address)
  | signer (value : Address)
  | vector (items : List Value)
  | struct (tag : StructTag) (fields : List Value)
  | ref (reference : Reference)

namespace Value

/-! ## Equality -/

mutual

/-- Structural equality. -/
def same : Value → Value → Bool
  | .unit, .unit => true
  | .bool left, .bool right => decide (left = right)
  | .u8 left, .u8 right => decide (left = right)
  | .u64 left, .u64 right => decide (left = right)
  | .u128 left, .u128 right => decide (left = right)
  | .address left, .address right => decide (left = right)
  | .signer left, .signer right => decide (left = right)
  | .vector left, .vector right => sameAll left right
  | .struct leftTag left, .struct rightTag right =>
    decide (leftTag = rightTag) && sameAll left right
  | .ref left, .ref right => decide (left = right)
  | _, _ => false

def sameAll : List Value → List Value → Bool
  | [], [] => true
  | left :: lefts, right :: rights => same left right && sameAll lefts rights
  | _, _ => false

end

mutual

theorem eq_of_same : (left right : Value) → same left right = true → left = right
  | .unit, right, h | .bool _, right, h | .u8 _, right, h | .u64 _, right, h | .u128 _, right, h
  | .address _, right, h | .signer _, right, h | .ref _, right, h => by
    cases right <;> simp_all [same]
  | .vector left, right, h => by
    cases right <;> simp only [same, Bool.false_eq_true] at h
    rw [eq_of_sameAll left _ h]
  | .struct leftTag left, right, h => by
    cases right <;> simp only [same, Bool.false_eq_true, Bool.and_eq_true, decide_eq_true_eq] at h
    rw [h.1, eq_of_sameAll left _ h.2]

theorem eq_of_sameAll : (lefts rights : List Value) → sameAll lefts rights = true → lefts = rights
  | [], [], _ => rfl
  | [], _ :: _, h => by simp [sameAll] at h
  | _ :: _, [], h => by simp [sameAll] at h
  | left :: lefts, right :: rights, h => by
    simp only [sameAll, Bool.and_eq_true] at h
    rw [eq_of_same left right h.1, eq_of_sameAll lefts rights h.2]

end

mutual

theorem same_self : (value : Value) → same value value = true
  | .unit => rfl
  | .bool _ | .u8 _ | .u64 _ | .u128 _ | .address _ | .signer _ | .ref _ => by simp [same]
  | .vector items => sameAll_self items
  | .struct _ fields => by simp [same, sameAll_self fields]

theorem sameAll_self : (values : List Value) → sameAll values values = true
  | [] => rfl
  | value :: values => by simp [sameAll, same_self value, sameAll_self values]

end

theorem same_iff {left right : Value} : same left right = true ↔ left = right :=
  ⟨eq_of_same left right, fun h => h ▸ same_self left⟩

instance : DecidableEq Value := fun _ _ => decidable_of_iff _ same_iff

/-! ## Kinds -/

/-- The forms of values. -/
inductive Kind where
  | unit
  | bool
  | u8
  | u64
  | u128
  | address
  | signer
  | vector
  | struct
  | reference
deriving DecidableEq

def Kind.name : Kind → String
  | .unit => "unit"
  | .bool => "bool"
  | .u8 => "u8"
  | .u64 => "u64"
  | .u128 => "u128"
  | .address => "address"
  | .signer => "signer"
  | .vector => "vector"
  | .struct => "struct"
  | .reference => "reference"

def kind : Value → Kind
  | .unit => .unit
  | .bool _ => .bool
  | .u8 _ => .u8
  | .u64 _ => .u64
  | .u128 _ => .u128
  | .address _ => .address
  | .signer _ => .signer
  | .vector _ => .vector
  | .struct _ _ => .struct
  | .ref _ => .reference

def tag? : Value → Option StructTag
  | .struct tag _ => some tag
  | _ => none

/-! ## Conformance -/

mutual

/-- The value is a well-formed inhabitant of the type. A reference inhabits every reference type:
what it refers to is not looked at. -/
def conformsTo (u : Universe) : Value → Ty → Bool
  | .unit, .unit => true
  | .bool _, .bool => true
  | .u8 _, .u8 => true
  | .u64 _, .u64 => true
  | .u128 _, .u128 => true
  | .address _, .address => true
  | .signer _, .signer => true
  | .ref _, .ref _ _ => true
  | .vector items, .vector elem => allConformTo u elem items
  | .struct tag fields, .struct id args =>
    decide (tag.ty = .struct id args) &&
      match u.instantiateFields? tag with
      | none => false
      | some declared => fieldsConformTo u fields (declared.map (·.2))
  | _, _ => false

def allConformTo (u : Universe) (elem : Ty) : List Value → Bool
  | [] => true
  | value :: values => conformsTo u value elem && allConformTo u elem values

/-- As many values as types, each conforming to its own. -/
def fieldsConformTo (u : Universe) : List Value → List Ty → Bool
  | [], [] => true
  | value :: values, ty :: types => conformsTo u value ty && fieldsConformTo u values types
  | _, _ => false

end

/-! ## Paths into values -/

/-- Why a path leads nowhere in a value. -/
inductive Misstep where
  | outOfRange
  | notStruct (kind : Kind)
deriving DecidableEq

/-- The part of a value at a path of field positions. -/
def descend : Value → List Nat → Except Misstep Value
  | value, [] => .ok value
  | .struct _ fields, index :: path =>
    match fields[index]? with
    | some field => descend field path
    | none => .error .outOfRange
  | value, _ :: _ => .error (.notStruct value.kind)

/-- The value with the part at a path replaced. -/
def replaceAt : Value → List Nat → Value → Except Misstep Value
  | _, [], part => .ok part
  | .struct tag fields, index :: path, part =>
    match fields[index]? with
    | some field => do
      let replaced ← field.replaceAt path part
      return .struct tag (fields.set index replaced)
    | none => .error .outOfRange
  | value, _ :: _, _ => .error (.notStruct value.kind)

end Value

end Custody
