import Custody.Check.Body
import Custody.Universe.Build
/-!
# Checking programs

A declaration set is accepted if its universe is built without problems, its struct declarations
hold up, every body checks, and every `acquires` clause names what its function reaches. Problems
are listed in this order, those of bodies in the order of declaration.
-/

namespace Custody

/-- An accepted declaration set. -/
structure Program where
  types : Universe
  modules : List Module

namespace Program

/-- The first module of that name. -/
def module? (program : Program) (name : String) : Option Module :=
  program.modules.find? (·.name = name)

/-- The declaration of a function. -/
def function? (program : Program) (id : FunctionId) : Option FunctionDecl := do
  (← program.module? id.module).function? id.name

/-- Functions that carry a mark, in the order of declaration. -/
def functionsMarked (program : Program) (mark : String) : List FunctionId :=
  program.modules.flatMap fun module =>
    (module.functions.filter (·.hasAttribute mark)).map fun decl => ⟨module.name, decl.name⟩

end Program

/-- The functions of a declaration set that were registered, with their modules: of two of one name
the first. -/
def registeredFunctions (seen : List FunctionId) : List (String × FunctionDecl) →
    List (FunctionId × FunctionDecl)
  | [] => []
  | (module, decl) :: rest =>
    let id : FunctionId := ⟨module, decl.name⟩
    if id ∈ seen then registeredFunctions seen rest
    else (id, decl) :: registeredFunctions (id :: seen) rest

/-- Check the body of one registered function. -/
def checkFunction (u : Universe) (id : FunctionId) (decl : FunctionDecl) : Option BodyState :=
  (u.function? id).map fun signature => Check.runBody ⟨u, signature⟩ decl.body

/-- The bodies of a declaration set, checked in the order of declaration. -/
def checkBodies (u : Universe) (modules : List Module) : List (FunctionId × BodyState) :=
  let declared := modules.flatMap fun module => module.functions.map (module.name, ·)
  (registeredFunctions [] declared).filterMap fun (id, decl) =>
    (checkFunction u id decl).map (id, ·)

/-- Everything wrong with a declaration set, given its universe and what checking its bodies
left. -/
def problemsOf (built : Universe × List Diagnostic) (bodies : List (FunctionId × BodyState)) :
    List Diagnostic :=
  let accesses := Table.ofList (bodies.map fun body => (body.1, body.2.access))
  built.2 ++ built.1.checkStructs ++ bodies.flatMap (·.2.problems) ++ Access.verify built.1 accesses

/-- Everything wrong with a declaration set. -/
def problems (modules : List Module) : List Diagnostic :=
  let built := Universe.build modules
  problemsOf built (checkBodies built.1 modules)

/-- The program, or everything that is wrong. -/
def verdict (modules : List Module) : List Diagnostic → Except (List Diagnostic) Program
  | [] => .ok { types := (Universe.build modules).1, modules := modules }
  | first :: rest => .error (first :: rest)

/-- Check a declaration set. -/
def check (modules : List Module) : Except (List Diagnostic) Program := verdict modules
    (problems modules)

/-- The summary of a refusal. -/
def refusalMessage (count : Nat) : String := "check failed with " ++ toString count ++ " error(s)"

end Custody
