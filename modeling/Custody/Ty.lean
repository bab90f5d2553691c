import Custody.TypeOrder
/-!
# Operations on types

Questions about the shape of a type, substitution for its parameters, flow from one type into
another, and display.
-/

namespace Custody

namespace Ty

/-! ## Shape -/

def isRef : Ty → Bool
  | .ref _ _ => true
  | _ => false

def isMutableRef : Ty → Bool
  | .ref true _ => true
  | _ => false

def isInteger : Ty → Bool
  | .u8 | .u64 | .u128 => true
  | _ => false

/-- What a reference type refers to. -/
def referent? : Ty → Option Ty
  | .ref _ inner => some inner
  | _ => none

def tag? : Ty → Option StructTag
  | .struct id args => some ⟨id, args⟩
  | _ => none

mutual

/-- No type parameter occurs anywhere inside. -/
def isConcrete : Ty → Bool
  | .param _ _ => false
  | .vector elem => isConcrete elem
  | .ref _ inner => isConcrete inner
  | .struct _ args => allConcrete args
  | .unit | .bool | .u8 | .u64 | .u128 | .address | .signer => true

def allConcrete : List Ty → Bool
  | [] => true
  | ty :: types => isConcrete ty && allConcrete types

end

mutual

/-- A reference occurs somewhere outside the inside of another reference. -/
def mentionsRef : Ty → Bool
  | .ref _ _ => true
  | .vector elem => mentionsRef elem
  | .struct _ args => anyMentionsRef args
  | .unit | .bool | .u8 | .u64 | .u128 | .address | .signer | .param _ _ => false

def anyMentionsRef : List Ty → Bool
  | [] => false
  | ty :: types => mentionsRef ty || anyMentionsRef types

end

/-! ## Substitution -/

mutual

/-- Replace each parameter by the argument at its position; a position without an argument stays. -/
def subst (types : List Ty) : Ty → Ty
  | .param index name => (types[index]?).getD (.param index name)
  | .vector elem => .vector (subst types elem)
  | .ref mutable inner => .ref mutable (subst types inner)
  | .struct id args => .struct id (substAll types args)
  | .unit => .unit
  | .bool => .bool
  | .u8 => .u8
  | .u64 => .u64
  | .u128 => .u128
  | .address => .address
  | .signer => .signer

def substAll (types : List Ty) : List Ty → List Ty
  | [] => []
  | ty :: rest => subst types ty :: substAll types rest

end

theorem substAll_eq_map (types args : List Ty) : substAll types args = args.map (subst types) := by
  induction args with
  | nil => rfl
  | cons ty rest ih => simp [substAll, ih]

/-! ## Flow -/

/-- A value of the first type may stand where the second is expected: the types agree, or a mutable
reference serves as a shared one. -/
def flowsInto (found expected : Ty) : Bool :=
  if found = expected then true
  else
    match found, expected with
    | .ref true actual, .ref false wanted => decide (actual = wanted)
    | _, _ => false

/-! ## Display -/

mutual

/-- The type as it is written in diagnostics. -/
def render : Ty → String
  | .unit => "()"
  | .bool => "bool"
  | .u8 => "u8"
  | .u64 => "u64"
  | .u128 => "u128"
  | .address => "address"
  | .signer => "signer"
  | .vector elem => "vector<" ++ render elem ++ ">"
  | .struct id [] => id.render
  | .struct id (arg :: args) => id.render ++ "<" ++ render arg ++ renderTail args ++ ">"
  | .param _ name => name
  | .ref true inner => "&mut " ++ render inner
  | .ref false inner => "&" ++ render inner

/-- The arguments after the first, each behind a comma and a blank. -/
def renderTail : List Ty → String
  | [] => ""
  | arg :: args => ", " ++ render arg ++ renderTail args

end

end Ty

namespace StructTag

def subst (types : List Ty) (tag : StructTag) : StructTag := ⟨tag.id, Ty.substAll types tag.args⟩

def render (tag : StructTag) : String := tag.ty.render

@[simp] theorem ty_subst (types : List Ty) (tag : StructTag) :
    (tag.subst types).ty = tag.ty.subst types := by
  simp [subst, ty, Ty.subst]

end StructTag

end Custody
