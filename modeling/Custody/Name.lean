/-!
# Qualified names

Structs and functions are identified by the module that declares them and a name inside it.
-/

namespace Custody

/-- The name of a declaration together with the module it belongs to. -/
structure QualifiedName where
  module : String
  name : String
deriving DecidableEq

namespace QualifiedName

/-- Names are ordered by module first. -/
def order (left right : QualifiedName) : Ordering :=
  (compare left.module right.module).then (compare left.name right.name)

instance : Ord QualifiedName := ⟨order⟩

instance : Std.TransOrd QualifiedName :=
  inferInstanceAs (Std.TransCmp (compareLex (compareOn module) (compareOn name)))

instance : Std.LawfulEqOrd QualifiedName where
  eq_of_compare {left right} equal := by
    have parts : compare left.module right.module = .eq ∧ compare left.name right.name = .eq :=
      Ordering.then_eq_eq.mp equal
    cases left
    cases right
    rw [mk.injEq]
    exact ⟨Std.LawfulEqOrd.eq_of_compare parts.1, Std.LawfulEqOrd.eq_of_compare parts.2⟩

def render (id : QualifiedName) : String := id.module ++ "::" ++ id.name

end QualifiedName

/-- Identity of a struct, whatever its type arguments. -/
abbrev StructId := QualifiedName

/-- Identity of a function, whatever its type arguments. -/
abbrev FunctionId := QualifiedName

end Custody
