import Custody.Proofs.Types.Declared
/-!
# Registered functions

A universe registers functions from one flat list of declarations; an execution looks for a function
in the first module of its name. What it finds is what was registered. The other way round, a
registered function is found unless a module repeats the name of an earlier one: an accepted
declaration set declares nothing twice, so whatever the later module declares is missing from the
earlier one.
-/

namespace Custody

variable {modules : List Module} {id : FunctionId} {types : Universe} {module : Module}
  {decl : FunctionDecl} {rest : List Module}

namespace Universe

/-- The registered functions are the declared ones. -/
theorem isSome_function?_build :
    ((build modules).1.function? id).isSome = true ↔
      ∃ entry ∈ declaredFunctions modules, functionIdOf entry = id := by
  simp [function?_build]

theorem distinct_of_clean (clean : problems modules = []) :
    ((declaredFunctions modules).map functionIdOf).Nodup := by
  simp only [problems, problemsOf, snd_build, List.append_eq_nil_iff] at clean
  exact (functions_of_clean clean.1.1.1.1.2).1

end Universe

/-! ## Names that are found -/

/-- The registered signature is that of the declaration that executions find. -/
theorem signature_of_function? {signature : Signature}
    (found : Program.function? ⟨types, modules⟩ id = some decl)
    (registered : (Universe.build modules).1.function? id = some signature) :
    signature = ((Universe.build modules).1.defineFunction id.module decl).1 := by
  rw [Universe.function?_build, find?_of_function? found] at registered
  rw [Universe.defineFunction_congr (Universe.structs_build modules)]
  exact (Option.some.inj registered).symm

/-- A module that repeats the name of an earlier one declares no functions. -/
def Unrepeated (modules : List Module) : Prop :=
  modules.Pairwise fun earlier later => earlier.name = later.name → later.functions = []

/-- Where names are not repeated, a module that declares a function is the first of its name. -/
theorem Unrepeated.find? (unrepeated : Unrepeated modules) (listed : module ∈ modules)
    (declared : decl ∈ module.functions) : modules.find? (·.name = module.name) = some module := by
  induction unrepeated with
  | nil => cases listed
  | @cons head rest others _ ih =>
    rcases List.mem_cons.mp listed with rfl | later
    · simp
    · by_cases same : head.name = module.name
      · rw [others module later same] at declared
        cases declared
      · simp [same, ih later]

theorem function?_of_unrepeated (unrepeated : Unrepeated modules)
    (named : ∃ entry ∈ Universe.declaredFunctions modules, Universe.functionIdOf entry = id) :
    ∃ decl, Program.function? ⟨types, modules⟩ id = some decl := by
  obtain ⟨entry, listed, rfl⟩ := named
  obtain ⟨module, inside, listedHere⟩ := List.mem_flatMap.mp listed
  obtain ⟨decl, declared, rfl⟩ := List.mem_map.mp listedHere
  have found : (module.functions.find? (·.name = decl.name)).isSome = true := by
    rw [List.find?_isSome]
    exact ⟨decl, declared, by simp⟩
  obtain ⟨other, found⟩ := Option.isSome_iff_exists.mp found
  refine ⟨other, ?_⟩
  show ((modules.find? (·.name = module.name)).bind (·.function? decl.name)) = _
  rw [unrepeated.find? inside declared]
  exact found

/-- Where the declarations of different names are all found, module names are not repeated. -/
theorem unrepeated_of_found (types : Universe)
    (distinct : ((Universe.declaredFunctions modules).map Universe.functionIdOf).Nodup)
    (found : ∀ module ∈ modules, ∀ decl ∈ module.functions,
      ∃ other, Program.function? ⟨types, modules⟩ ⟨module.name, decl.name⟩ = some other) :
    Unrepeated modules := by
  rw [List.Nodup, List.pairwise_map] at distinct
  have apart := (List.pairwise_flatMap.mp distinct).2
  induction apart with
  | nil => exact .nil
  | @cons head rest others _ ih =>
    have silent : ∀ later ∈ rest, head.name = later.name → later.functions = [] := by
      intro later listed same
      cases declared : later.functions with
      | nil => rfl
      | cons decl _ =>
        have inside : decl ∈ later.functions := by simp [declared]
        obtain ⟨other, here⟩ := found later (List.mem_cons_of_mem _ listed) decl inside
        rw [function?_cons_of_eq same] at here
        have named : other.name = decl.name := by simpa using List.find?_some here
        have differs := others later listed _
          (List.mem_map.mpr ⟨other, List.mem_of_find?_eq_some here, rfl⟩)
          _ (List.mem_map.mpr ⟨decl, inside, rfl⟩)
        simp [Universe.functionIdOf, same, named] at differs
    refine List.pairwise_cons.mpr ⟨silent, ih ?_ fun module listed decl inside => ?_⟩
    · exact (List.pairwise_append.mp distinct).2.1
    · have differs : head.name ≠ module.name := by
        intro same
        rw [silent module listed same] at inside
        cases inside
      have here := found module (List.mem_cons_of_mem _ listed) decl inside
      rw [function?_cons_of_ne types differs] at here
      exact here

end Custody
