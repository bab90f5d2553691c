import Mathlib.Data.List.Forall2
import Custody.Proofs.Types.Linking
/-!
# The order of declarations

Structs and functions may be declared in any order, and modules listed in any order. Headers,
definitions and signatures are collected in passes over the declarations, each of which puts what it
finds into a table. Where every declaration has a name of its own, no pass looks at what it has
collected before to decide about the next declaration, so it collects the same in any order: the
universe is the same, and every list of problems is a permutation of what it was. The searches over
the whole, for cycles and for what functions reach in storage, see nothing but these tables.
-/

namespace Custody

open Universe

variable {declared : List (String × FunctionDecl)}

/-! ## Declarations in another order -/

/-- The same module, with its structs and its functions in some order. -/
structure Module.Reordered (module other : Module) : Prop where
  address : other.address = module.address
  name : other.name = module.name
  structs : module.structs.Perm other.structs
  functions : module.functions.Perm other.functions

/-- The same modules in some order, each perhaps with its declarations in another order. -/
def Reordered (modules others : List Module) : Prop :=
  ∃ shuffled, List.Forall₂ Module.Reordered modules shuffled ∧ shuffled.Perm others

/-- What is listed module by module is listed in another order. -/
theorem Reordered.perm_flatMap {α : Type} {listed : Module → List α}
    (each : ∀ {module other}, module.Reordered other → (listed module).Perm (listed other))
    {modules others : List Module} (reordered : Reordered modules others) :
    (modules.flatMap listed).Perm (others.flatMap listed) := by
  obtain ⟨shuffled, inside, outside⟩ := reordered
  refine List.Perm.trans ?_ (outside.flatMap_right listed)
  clear outside
  induction inside with
  | nil => exact List.Perm.refl _
  | cons here _ ih =>
    simp only [List.flatMap_cons]
    exact (each here).append ih

/-- Every struct has a name of its own, and so has every function. -/
structure DistinctlyNamed (modules : List Module) : Prop where
  structs : ((declaredStructs modules).map structIdOf).Nodup
  functions : ((declaredFunctions modules).map functionIdOf).Nodup

section Reordered

variable {modules others : List Module}

theorem Reordered.declaredStructs (reordered : Reordered modules others) :
    (declaredStructs modules).Perm (declaredStructs others) := by
  refine reordered.perm_flatMap fun {module other} same => ?_
  rw [same.name]
  exact same.structs.map _

theorem Reordered.declaredFunctions (reordered : Reordered modules others) :
    (declaredFunctions modules).Perm (declaredFunctions others) := by
  refine reordered.perm_flatMap fun {module other} same => ?_
  rw [same.name]
  exact same.functions.map _

theorem DistinctlyNamed.reordered (distinct : DistinctlyNamed modules)
    (reordered : Reordered modules others) : DistinctlyNamed others :=
  ⟨(reordered.declaredStructs.map _).nodup_iff.mp distinct.structs,
    (reordered.declaredFunctions.map _).nodup_iff.mp distinct.functions⟩

end Reordered

namespace Universe

section Types

variable {modules others : List Module} (distinct : DistinctlyNamed modules)
  (reordered : Reordered modules others)

include distinct

/-! ## Structs -/

theorem registeredStructs_of_distinct : registeredStructs modules = declaredStructs modules :=
  (firsts_of_nodup distinct.structs fun _ _ => List.not_mem_nil).1

include reordered in
theorem outline_reordered : outline others = outline modules := by
  have tables := Table.foldl_insert_perm ∅ distinct.structs reordered.declaredStructs headerOf
  rw [outline, outline, headers_eq, headers_eq, registeredStructs_of_distinct distinct,
    registeredStructs_of_distinct (distinct.reordered reordered)]
  exact congrArg (mk · ∅) tables.symm

theorem structProblems_of_distinct :
    structProblems modules = (declaredStructs modules).flatMap headerProblems ++
      (declaredStructs modules).flatMap fun entry =>
        ((outline modules).defineStruct entry.1 entry.2).2 := by
  rw [structProblems_eq, registeredStructs_of_distinct distinct,
    (firsts_of_nodup distinct.structs fun _ _ => List.not_mem_nil).2]

include reordered

theorem structProblems_reordered : (structProblems modules).Perm (structProblems others) := by
  rw [structProblems_of_distinct distinct,
    structProblems_of_distinct (distinct.reordered reordered), outline_reordered distinct reordered]
  exact (reordered.declaredStructs.flatMap_right _).append
    (reordered.declaredStructs.flatMap_right _)

theorem structUniverse_reordered : structUniverse others = structUniverse modules := by
  have tables : (structUniverse others).structs = (structUniverse modules).structs := by
    refine Table.ext_get? fun id => ?_
    refine (struct?_structUniverse id).trans (Eq.trans ?_ (struct?_structUniverse id).symm)
    rw [outline_reordered distinct reordered,
      Table.find?_perm distinct.structs reordered.declaredStructs]
  exact congrArg (mk · ∅) tables

/-! ## Signatures -/

omit reordered

theorem registered_of_distinct :
    firsts functionIdOf [] (declaredFunctions modules) = declaredFunctions modules :=
  (firsts_of_nodup distinct.functions fun _ _ => List.not_mem_nil).1

theorem functionProblems_of_distinct :
    functionProblems modules = (declaredFunctions modules).flatMap fun entry =>
      ((structUniverse modules).defineFunction entry.1 entry.2).2 :=
  (firsts_of_nodup distinct.functions fun _ _ => List.not_mem_nil).2 _ _

include reordered in
/-- The universe does not depend on the order of the declarations, and neither does what is wrong
with its types, up to order. -/
theorem build_reordered :
    (build others).1 = (build modules).1 ∧ (build modules).2.Perm (build others).2 := by
  have structs := structUniverse_reordered distinct reordered
  have tables := Table.foldl_insert_perm ∅ distinct.functions reordered.declaredFunctions
    fun entry => ((structUniverse modules).defineFunction entry.1 entry.2).1
  have same : (build others).1 = (build modules).1 := by
    rw [build_eq, build_eq, structs, registered_of_distinct distinct,
      registered_of_distinct (distinct.reordered reordered)]
    exact congrArg (mk _) tables.symm
  refine ⟨same, ?_⟩
  rw [snd_build, snd_build, same, functionProblems_of_distinct distinct,
    functionProblems_of_distinct (distinct.reordered reordered), structs]
  exact ((structProblems_reordered distinct reordered).append
    (reordered.declaredFunctions.flatMap_right _)).append_right _

end Types

end Universe

/-! ## Bodies and clauses -/

section Bodies

variable {modules others : List Module} (distinct : DistinctlyNamed modules)
  (reordered : Reordered modules others)

include distinct

theorem checkBodies_of_distinct (u : Universe) :
    checkBodies u modules = (declaredFunctions modules).filterMap fun entry =>
      (checkFunction u (functionIdOf entry) entry.2).map (functionIdOf entry, ·) := by
  show (registeredFunctions [] (declaredFunctions modules)).filterMap _ = _
  rw [registeredFunctions_eq, registered_of_distinct distinct, List.filterMap_map]
  rfl

include reordered

theorem checkBodies_reordered (u : Universe) :
    (checkBodies u modules).Perm (checkBodies u others) := by
  rw [checkBodies_of_distinct distinct, checkBodies_of_distinct (distinct.reordered reordered)]
  exact reordered.declaredFunctions.filterMap _

/-- What the functions do in storage is put into the same table. -/
theorem accesses_reordered (u : Universe) :
    Table.ofList ((checkBodies u others).map fun body => (body.1, body.2.access)) =
      Table.ofList ((checkBodies u modules).map fun body => (body.1, body.2.access)) := by
  rw [Table.ofList, Table.ofList, List.foldl_map, List.foldl_map]
  exact (Table.foldl_insert_perm ∅ (nodup_checkBodies u modules)
    (checkBodies_reordered distinct reordered u) fun body => body.2.access).symm

theorem problems_reordered : (problems modules).Perm (problems others) := by
  obtain ⟨types, resolution⟩ := build_reordered distinct reordered
  simp only [problems, problemsOf, types]
  have bodies := checkBodies_reordered distinct reordered (build modules).1
  rw [accesses_reordered distinct reordered (build modules).1]
  exact ((resolution.append_right _).append (bodies.flatMap_right _)).append_right _

end Bodies

/-- The order of declarations does not matter: modules with names of their own for all structs and
functions are accepted in any order or in none, over the same universe, and what is wrong with them
in one order is a permutation of what is wrong with them in another. -/
theorem declaration_order_is_immaterial {modules others : List Module}
    (distinct : DistinctlyNamed modules) (reordered : Reordered modules others) :
    (problems modules).Perm (problems others) ∧
      ((∃ program, check modules = .ok program) ↔ ∃ program, check others = .ok program) ∧
      (∀ faults, check modules = .error faults →
        ∃ permuted, check others = .error permuted ∧ faults.Perm permuted) ∧
      ∀ program, check modules = .ok program → check others = .ok ⟨program.types, others⟩ := by
  have permuted := problems_reordered distinct reordered
  have accepts : ∀ program, check modules = .ok program → check others = .ok
      ⟨program.types, others⟩ := by
    intro program accepted
    obtain ⟨clean, rfl⟩ := problems_eq_nil accepted
    rw [clean] at permuted
    rw [check_of_clean permuted.nil_eq.symm, programOf,
      (Universe.build_reordered distinct reordered).1]
  refine ⟨permuted, ⟨fun accepted => ?_, fun accepted => ?_⟩, fun faults refused => ?_, accepts⟩
  · obtain ⟨program, accepted⟩ := accepted
    exact ⟨_, accepts program accepted⟩
  · obtain ⟨program, accepted⟩ := accepted
    rw [(problems_eq_nil accepted).1] at permuted
    exact ⟨_, check_of_clean permuted.eq_nil⟩
  · obtain ⟨rfl, nonempty⟩ := check_eq_error_iff.mp refused
    refine ⟨problems others, check_eq_error_iff.mpr ⟨rfl, fun clean => nonempty ?_⟩, permuted⟩
    rw [clean] at permuted
    exact permuted.eq_nil

/-- A module whose roads lead to gates declared elsewhere, with a field that cannot be resolved and
two bodies that go wrong. -/
def north : Module :=
  { name := "North"
    structs := [
      { name := "Road", fields := [⟨"to", .struct (some "South") "Gate" []⟩] },
      { name := "Toll", fields := [⟨"fee", .struct none "Coin" []⟩] }]
    functions := [
      { name := "open", body := [.eval (.var "gate")] },
      { name := "close", ret := some .u64 }] }

/-- A module whose gates lead back to the roads, so that both contain themselves. -/
def south : Module :=
  { name := "South"
    structs := [{ name := "Gate", fields := [⟨"back", .struct (some "North") "Road" []⟩] }]
    functions := [{ name := "pass", params := [⟨"gate", .struct none "Gate" []⟩] }] }

/-- The first of the two modules with its declarations the other way round. -/
def northReversed : Module :=
  { north with structs := north.structs.reverse, functions := north.functions.reverse }

/-- Declared the other way round, the modules have the same faults in another order. -/
theorem crossing_order_is_immaterial :
    DistinctlyNamed [north, south] ∧ Reordered [north, south] [south, northReversed] ∧
      problems [north, south] ≠ problems [south, northReversed] ∧
      ∃ faults permuted, check [north, south] = .error faults ∧ faults.length = 5 ∧
        check [south, northReversed] = .error permuted ∧ faults.Perm permuted := by
  have distinct : DistinctlyNamed [north, south] := ⟨by decide, by decide⟩
  have reversed : north.Reordered northReversed :=
    ⟨rfl, rfl, (List.reverse_perm _).symm, (List.reverse_perm _).symm⟩
  have kept : south.Reordered south := ⟨rfl, rfl, List.Perm.refl _, List.Perm.refl _⟩
  have reordered : Reordered [north, south] [south, northReversed] :=
    ⟨[northReversed, south], .cons reversed (.cons kept .nil), List.Perm.swap _ _ _⟩
  have count : (problems [north, south]).length = 5 := by decide +kernel
  have refused : check [north, south] = .error (problems [north, south]) :=
    check_eq_error_iff.mpr ⟨rfl, List.ne_nil_of_length_eq_add_one count⟩
  obtain ⟨permuted, refused', perm⟩ :=
    (declaration_order_is_immaterial distinct reordered).2.2.1 _ refused
  exact ⟨distinct, reordered, by decide +kernel, _, permuted, refused, count, refused', perm⟩

end Custody
