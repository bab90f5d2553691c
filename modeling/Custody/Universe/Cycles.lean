import Custody.SortedSet
import Custody.Universe.Basic
/-!
# Structs that contain themselves

A struct contains another if one of its field types mentions it, inside vectors and type arguments
included. A depth-first search from every struct, in name order, reports a struct each time the path
being followed comes back to it.
-/

namespace Custody

namespace Ty

mutual

/-- Every struct named in the type. -/
def structIds : Ty → List StructId
  | .struct id args => id :: allStructIds args
  | .vector elem => structIds elem
  | .ref _ inner => structIds inner
  | .unit | .bool | .u8 | .u64 | .u128 | .address | .signer | .param _ _ => []

def allStructIds : List Ty → List StructId
  | [] => []
  | ty :: types => structIds ty ++ allStructIds types

end

end Ty

namespace Universe

/-- The structs that the fields of a struct mention, in name order. -/
def containedIn (u : Universe) (id : StructId) : List StructId :=
  match u.struct? id with
  | some struct => (SortedSet.ofList (Ty.allStructIds (struct.fields.map (·.2)))).toList
  | none => []

/-- Progress of the search: what has been left for good, and what was met again on its own path. -/
structure CycleSearch where
  done : List StructId := []
  found : List StructId := []

/-- Visit a struct below the given path. A path longer than the number of structs repeats one, so
that number of levels and one more is enough for every visit. -/
def visit (u : Universe) : Nat → List StructId → StructId → CycleSearch → CycleSearch
  | 0, _, _, search => search
  | levels + 1, path, id, search =>
    if id ∈ search.done then search
    else if id ∈ path then { search with found := search.found ++ [id] }
    else
      let below :=
        (u.containedIn id).foldl (fun state child => visit u levels (id :: path) child state) search
      { below with done := id :: below.done }

/-- The structs reported as containing themselves, in the order of the search. -/
def cyclicStructs (u : Universe) : List StructId :=
  (u.structs.keys.foldl (fun state id => u.visit (u.structs.size + 1) [] id state) {}).found

end Universe

end Custody
