import Custody.Declaration.Body
/-!
# Names a statement may read

Liveness of references goes by names: a name counts as read later if any statement that may run
later mentions it, in whatever scope.
-/

namespace Custody

namespace Expr

mutual

/-- Every local an expression mentions. -/
def names : Expr → List String
  | .var name | .move name | .copy name | .borrow _ name => [name]
  | .borrowField _ base _ => names base
  | .freeze inner | .deref inner | .not inner | .signerAddress inner => names inner
  | .pack _ fields => fieldNames fields
  | .call _ _ _ args => allNames args
  | .vector _ items => allNames items
  | .binary _ left right => names left ++ names right
  | .moveTo _ signer value => names signer ++ names value
  | .moveFrom _ addr | .borrowGlobal _ _ addr | .existsAt _ addr => names addr
  | .unit | .bool _ | .u8 _ | .u64 _ | .u128 _ | .address _ => []

def allNames : List Expr → List String
  | [] => []
  | expr :: exprs => names expr ++ allNames exprs

def fieldNames : List (String × Expr) → List String
  | [] => []
  | (_, value) :: fields => names value ++ fieldNames fields

end

end Expr

namespace Stmt

mutual

/-- Every local a statement may read or assign, nested blocks included. -/
def names : Stmt → List String
  | .bind _ _ value | .unpack _ _ value => value.names
  | .assign name value => name :: value.names
  | .write target value => target.names ++ value.names
  | .branch cond onTrue none => cond.names ++ blockNames onTrue
  | .branch cond onTrue (some onFalse) => cond.names ++ blockNames onTrue ++ blockNames onFalse
  | .loop cond body => cond.names ++ blockNames body
  | .ret (some value) | .abort value | .eval value => value.names
  | .assert cond _ => cond.names
  | .ret none => []

def blockNames : List Stmt → List String
  | [] => []
  | stmt :: stmts => names stmt ++ blockNames stmts

end

end Stmt

end Custody
