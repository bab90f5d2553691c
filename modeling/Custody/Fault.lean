import Custody.Ability
import Custody.Place
/-!
# Static faults

What is wrong with a declaration set, as causes. A cause carries the things it is about; its
wording, its stable code and its advice are read off it here and nowhere else.
-/

namespace Custody

/-- What a body does with a struct that only the struct's own module may do. -/
inductive StructUse where
  | pack
  | unpack
  | moveTo
  | moveFrom
  | borrowGlobal (mutable : Bool)
  | existsAt
deriving DecidableEq

def StructUse.word : StructUse → String
  | .pack => "pack"
  | .unpack => "unpack"
  | .moveTo => "move_to"
  | .moveFrom => "move_from"
  | .borrowGlobal false => "borrow_global"
  | .borrowGlobal true => "borrow_global_mut"
  | .existsAt => "exists"

/-- A place as diagnostics name it: locals by name. -/
inductive RootLabel where
  | binding (name : String)
  | someLocal
  | global (tag : StructTag)
deriving DecidableEq

structure PlaceLabel where
  root : RootLabel
  fields : List String
deriving DecidableEq

def PlaceLabel.render (label : PlaceLabel) : String :=
  let root :=
    match label.root with
    | .binding name => "`" ++ name ++ "`"
    | .someLocal => "a local"
    | .global tag => "global `" ++ tag.render ++ "`"
  root ++ String.join (label.fields.map ("." ++ ·))

/-- What was expected where another type was found. -/
inductive Expectation where
  | type (ty : Ty)
  | mutableRef
  | anyRef
  | signerRef
  | structRef
  | integer
deriving DecidableEq

def Expectation.render : Expectation → String
  | .type ty => ty.render
  | .mutableRef => "&mut _"
  | .anyRef => "a reference"
  | .signerRef => "&signer"
  | .structRef => "a reference to a struct"
  | .integer => "an integer type"

/-- A type lacks an ability. -/
inductive AbilityFault where
  /-- A type argument does not meet its parameter's constraints. -/
  | argument (arg : Ty) (param : String) (owner : QualifiedName) (missing : AbilitySet)
      (held : Option AbilitySet)
  /-- A declared ability that a field does not support. -/
  | field (struct : StructId) (ability : Ability) (field : String) (ty : Ty)
  /-- A storage operation on a struct without `key`. -/
  | keyless (use : StructUse) (tag : StructTag)
deriving DecidableEq

def AbilityFault.describe : AbilityFault → String
  | .argument arg param owner missing held =>
    "type argument `" ++ arg.render ++ "` for `" ++ param ++ "` of `" ++ owner.render ++
      "` lacks " ++ missing.render ++
      match held with
      | some set => " (has " ++ set.render ++ ")"
      | none => ""
  | .field struct ability name ty =>
    "struct `" ++ struct.render ++ "` declares `" ++ ability.name ++ "` but field `" ++ name ++
      "` of type `" ++ ty.render ++ "` lacks `" ++ ability.requirement.name ++ "`"
  | .keyless use tag => "`" ++ use.word ++ "` requires `" ++ tag.render ++ "` to have `key`"

/-- A type, a field or a reference stands where it may not. -/
inductive ShapeFault where
  | phantomUsed (param : String)
  | containsItself (struct : StructId)
  | misplacedRef (ty : Ty)
  | foreignUse (use : StructUse) (tag : StructTag)
  | foreignFields (tag : StructTag)
  | noField (tag : StructTag) (field : String)
  | missingField (tag : StructTag) (field : String)
  | borrowedRef (name : String)
  | sharedBase (field : String) (ty : Ty)
  | acquiresKeyless (struct : StructId)
deriving DecidableEq

def ShapeFault.describe : ShapeFault → String
  | .phantomUsed param => "phantom parameter `" ++ param ++ "` used in a non-phantom position"
  | .containsItself struct => "struct `" ++ struct.render ++ "` contains itself"
  | .misplacedRef ty => "reference type not allowed in this position: `" ++ ty.render ++ "`"
  | .foreignUse use tag =>
    "`" ++ use.word ++ "` of `" ++ tag.render ++ "` is only allowed inside module `" ++
      tag.id.module ++ "`"
  | .foreignFields tag =>
    "fields of `" ++ tag.render ++ "` are only accessible inside module `" ++ tag.id.module ++ "`"
  | .noField tag field => "`" ++ tag.render ++ "` has no field `" ++ field ++ "`"
  | .missingField tag field => "field `" ++ field ++ "` of `" ++ tag.render ++ "` is missing"
  | .borrowedRef name => "`" ++ name ++ "` is already a reference and cannot be borrowed"
  | .sharedBase field ty =>
    "cannot mutably borrow field `" ++ field ++ "` through `" ++ ty.render ++ "`"
  | .acquiresKeyless struct =>
    "`" ++ struct.render ++ "` is listed in `acquires` but does not have `key`"

/-- An access that a live loan forbids. -/
inductive BorrowFault where
  /-- A local's scope ends while it is borrowed. -/
  | outlived (name : String)
  | assign (name : String) (mode : LoanMode) (held : PlaceLabel)
  /-- A returned reference into something the call does not leave behind. -/
  | escapes (target : PlaceLabel)
  | moveOut (tag : StructTag) (mode : LoanMode) (held : PlaceLabel)
  | read (name : String) (held : PlaceLabel)
  | move (name : String) (mode : LoanMode) (held : PlaceLabel)
  | through (access : LoanMode) (target : PlaceLabel) (mode : LoanMode) (held : PlaceLabel)
  | grant (wanted : LoanMode) (target : PlaceLabel) (mode : LoanMode) (held : PlaceLabel)
  | acquire (callee : FunctionId) (struct : StructId) (held : PlaceLabel)
  | aliased (target other : PlaceLabel)
deriving DecidableEq

def BorrowFault.describe : BorrowFault → String
  | .outlived name => "`" ++ name ++ "` goes out of scope while a reference to it is still live"
  | .assign name mode held =>
    "cannot assign to `" ++ name ++ "` while a " ++ mode.name ++ " borrow of " ++ held.render ++
      " is live"
  | .escapes target =>
    "returned reference points into " ++ target.render ++ ", which does not outlive the call"
  | .moveOut tag mode held =>
    "cannot move `" ++ tag.render ++ "` out of global storage while a " ++ mode.name ++
      " borrow of " ++ held.render ++ " is live"
  | .read name held =>
    "cannot read `" ++ name ++ "` while " ++ held.render ++ " is mutably borrowed"
  | .move name mode held =>
    "cannot move `" ++ name ++ "` while a " ++ mode.name ++ " borrow of " ++
      held.render ++ " is live"
  | .through access target mode held =>
    "cannot " ++ (if access = .exclusive then "write" else "read") ++ " " ++ target.render ++
      " while a " ++ mode.name ++ " borrow of " ++ held.render ++ " is live"
  | .grant wanted target mode held =>
    "cannot take a " ++ wanted.name ++ " borrow of " ++ target.render ++ " while a " ++ mode.name ++
      " borrow of " ++ held.render ++ " is live"
  | .acquire callee struct held =>
    "`" ++ callee.render ++ "` acquires `" ++ struct.render ++ "` while a borrow of " ++
      held.render ++ " is live"
  | .aliased target other =>
    "mutable reference to " ++ target.render ++ " is passed together with a reference to " ++
      other.render

/-- Causes of refusal. -/
inductive Fault where
  | arityMismatch (id : QualifiedName) (expected found : Nat)
  | unboundTypeParam (name : String)
  | ability (fault : AbilityFault)
  | unconsumed (name : String) (ty : Ty)
  | missingDrop (ty : Ty)
  | missingCopy (ty : Ty)
  | borrow (fault : BorrowFault)
  | missingAcquires (struct : StructId)
  | unknownStruct (id : StructId)
  | unknownFunction (id : FunctionId)
  | unknownLocal (name : String)
  | mismatch (expected : Expectation) (found : Ty)
  | shape (fault : ShapeFault)
  | usedAfterMove (name : String)
  | argumentCount (id : FunctionId) (expected found : Nat)
  | duplicate (name : String)
deriving DecidableEq

namespace Fault

def describe : Fault → String
  | .arityMismatch id expected found =>
    "`" ++ id.render ++ "` expects " ++ toString expected ++ " type argument(s), found " ++
      toString found
  | .unboundTypeParam name => "type parameter `" ++ name ++ "` is not bound in this context"
  | .ability fault => fault.describe
  | .unconsumed name ty =>
    "local `" ++ name ++ "` of type `" ++ ty.render ++
      "` is not consumed before it goes out of scope"
  | .missingDrop ty => "value of type `" ++ ty.render ++ "` is dropped but the type lacks `drop`"
  | .missingCopy ty => "value of type `" ++ ty.render ++ "` is copied but the type lacks `copy`"
  | .borrow fault => fault.describe
  | .missingAcquires struct =>
    "accesses `" ++ struct.render ++ "` in global storage without declaring it in `acquires`"
  | .unknownStruct id => "unknown struct `" ++ id.render ++ "`"
  | .unknownFunction id => "unknown function `" ++ id.render ++ "`"
  | .unknownLocal name => "unknown local `" ++ name ++ "`"
  | .mismatch expected found =>
    "expected `" ++ expected.render ++ "`, found `" ++ found.render ++ "`"
  | .shape fault => fault.describe
  | .usedAfterMove name => "local `" ++ name ++ "` is used after it was moved"
  | .argumentCount id expected found =>
    "`" ++ id.render ++ "` expects " ++ toString expected ++ " argument(s), found " ++
      toString found
  | .duplicate name => "`" ++ name ++ "` is declared more than once"

/-- Stable code of the kind of fault. -/
def code : Fault → String
  | .arityMismatch _ _ _ => "slate::check::arity_mismatch"
  | .unboundTypeParam _ => "slate::check::unbound_type_parameter"
  | .ability _ => "slate::check::ability_violation"
  | .unconsumed _ _ => "slate::check::unconsumed_resource"
  | .missingDrop _ => "slate::check::missing_drop_ability"
  | .missingCopy _ => "slate::check::missing_copy_ability"
  | .borrow _ => "slate::check::borrow_conflict"
  | .missingAcquires _ => "slate::check::missing_acquires"
  | .unknownStruct _ => "slate::check::unknown_struct"
  | .unknownFunction _ => "slate::check::unknown_function"
  | .unknownLocal _ => "slate::check::unknown_local"
  | .mismatch _ _ => "slate::check::type_mismatch"
  | .shape _ => "slate::check::invalid_type"
  | .usedAfterMove _ => "slate::check::use_after_move"
  | .argumentCount _ _ _ => "slate::check::argument_count_mismatch"
  | .duplicate _ => "slate::check::duplicate_declaration"

/-- Advice on the kinds of fault that have some. -/
def help? : Fault → Option String
  | .unboundTypeParam _ =>
    some "declare it as a type parameter of the enclosing struct or function"
  | .unconsumed _ _ =>
    some "move it into storage, pass it to a function, return it, or destructure it"
  | .missingAcquires _ => some "list the struct in the function's `acquires` clause"
  | _ => none

end Fault

end Custody
