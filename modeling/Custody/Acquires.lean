import Custody.Access
import Custody.Universe.Basic
/-!
# Clauses about storage

Each function must name in its `acquires` clause what it reaches in storage of its own module's
structs.
-/

namespace Custody

namespace Access

/-- A name in an `acquires` clause: a struct of the module with `key`, or what is wrong with it. -/
def acquired (u : Universe) (id : FunctionId) (name : String) : Except Diagnostic StructId :=
  let struct : StructId := ⟨id.module, name⟩
  let location := Location.inFunction id .acquires
  match u.struct? struct with
  | none => .error ⟨location, .unknownStruct struct⟩
  | some definition =>
    if definition.abilities.key then .ok struct
    else .error ⟨location, .shape (.acquiresKeyless struct)⟩

/-- One function's clause against what it reaches. Structs of other modules are their owners'
business. -/
def verifyFunction (u : Universe) (id : FunctionId) (reached : SortedSet StructId) :
    List Diagnostic :=
  match u.function? id with
  | none => []
  | some signature =>
    let clause := signature.acquires.map (acquired u id)
    let flawed := clause.filterMap fun
      | .error diagnostic => some diagnostic
      | .ok _ => none
    let declared := clause.filterMap Except.toOption
    let undeclared := reached.toList.filter fun struct =>
      decide (struct.module = id.module) && !decide (struct ∈ declared)
    flawed ++ undeclared.map fun struct =>
      ⟨.inFunction id (.storageAccess struct), .missingAcquires struct⟩

/-- All clauses, in the order of function names. -/
def verify (u : Universe) (accesses : Table FunctionId Access) : List Diagnostic :=
  (closure accesses).entries.flatMap fun entry => verifyFunction u entry.1 entry.2

end Access

end Custody
