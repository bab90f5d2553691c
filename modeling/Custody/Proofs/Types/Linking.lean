import Custody.Proofs.Types.Cycles
import Custody.Proofs.Types.Registered
/-!
# Universes of linked declaration sets

Modules are added to a declaration set that was accepted, under names it does not use. What it
declared stays declared as it was: a written type that resolved resolves alike, and nothing new has
an old name. Whatever is wrong with the types of the whole is wrong with one of the new modules.
-/

namespace Custody

variable {module : String} {id : StructId} {problem : Diagnostic} {decl : StructDecl}
  {modules more : List Module} {fields : List TypedName} {params : List TypeParam}
  {location : Location} {seen : List String} {struct : StructDef} {type : TypeExpr}

/-- One of the modules has this name. -/
def NamedIn (modules : List Module) (name : String) : Prop := ∃ module ∈ modules, module.name = name

/-- A problem lies in one of the modules. -/
def Diagnostic.LiesIn (modules : List Module) (problem : Diagnostic) : Prop :=
  NamedIn modules problem.location.module

namespace Universe

section Declarations

theorem declaredStructs_append (modules more : List Module) :
    declaredStructs (modules ++ more) = declaredStructs modules ++ declaredStructs more :=
  List.flatMap_append

theorem declaredFunctions_append (modules more : List Module) :
    declaredFunctions (modules ++ more) = declaredFunctions modules ++ declaredFunctions more :=
  List.flatMap_append

theorem module_of_mem_declaredStructs {entry : String × StructDecl}
    (listed : entry ∈ declaredStructs modules) : NamedIn modules entry.1 := by
  obtain ⟨module, inside, here⟩ := List.mem_flatMap.mp listed
  obtain ⟨_, _, rfl⟩ := List.mem_map.mp here
  exact ⟨module, inside, rfl⟩

theorem module_of_mem_declaredFunctions {entry : String × FunctionDecl}
    (listed : entry ∈ declaredFunctions modules) : NamedIn modules entry.1 := by
  obtain ⟨module, inside, here⟩ := List.mem_flatMap.mp listed
  obtain ⟨_, _, rfl⟩ := List.mem_map.mp here
  exact ⟨module, inside, rfl⟩

end Declarations

/-! ## Definitions -/

section Definitions

variable {u other : Universe}

/-- Fields that resolve resolve alike. -/
theorem Within.resolveFields (within : u.Within other)
    (clean : (u.resolveFields module decl seen fields).2 = []) :
    other.resolveFields module decl seen fields = u.resolveFields module decl seen fields := by
  induction fields generalizing seen with
  | nil => rfl
  | cons field rest ih =>
    by_cases again : field.name ∈ seen
    · simp [Universe.resolveFields, again] at clean
    · cases resolved : u.resolveAt module decl.typeParams false field.type with
      | error fault => simp [Universe.resolveFields, again, resolved] at clean
      | ok ty =>
        simp only [Universe.resolveFields, again, if_false, resolved] at clean
        simp only [Universe.resolveFields, again, if_false, resolved, within.resolveAt resolved,
          ih clean]

theorem Within.defineStruct (within : u.Within other)
    (clean : (u.defineStruct module decl).2 = []) : other.defineStruct module decl = u.defineStruct
    module decl := by
  simp only [Universe.defineStruct] at clean
  simp only [Universe.defineStruct, within.resolveFields clean]

theorem module_of_mem_resolveFields
    (reported : problem ∈ (u.resolveFields module decl seen fields).2) :
    problem.location.module = module := by
  induction fields generalizing seen with
  | nil => cases reported
  | cons field rest ih =>
    simp only [Universe.resolveFields] at reported
    split at reported
    · rcases List.mem_cons.mp reported with rfl | later
      · rfl
      · exact ih later
    · split at reported
      · exact ih reported
      · rcases List.mem_cons.mp reported with rfl | later
        · rfl
        · exact ih later

/-- A type in a signature that resolves resolves alike. -/
theorem Within.resolveInSignature (within : u.Within other)
    (clean : (u.resolveInSignature module params location type).2 = []) :
    other.resolveInSignature module params location type =
      u.resolveInSignature module params location type := by
  cases resolved : u.resolveAt module params true type with
  | error fault => simp [Universe.resolveInSignature, resolved] at clean
  | ok ty => simp only [Universe.resolveInSignature, resolved, within.resolveAt resolved]

theorem module_of_mem_resolveInSignature
    (reported : problem ∈ (u.resolveInSignature module params location type).2) :
    problem.location = location := by
  simp only [Universe.resolveInSignature] at reported
  split at reported
  · cases reported
  · rw [List.mem_singleton.mp reported]

theorem Within.defineFunction (within : u.Within other) {decl : FunctionDecl}
    (clean : (u.defineFunction module decl).2 = []) :
    other.defineFunction module decl = u.defineFunction module decl := by
  simp only [Universe.defineFunction, List.append_eq_nil_iff, List.flatMap_eq_nil_iff,
    List.forall_mem_map] at clean
  obtain ⟨⟨_, paramsClean⟩, retClean⟩ := clean
  have params : decl.params.map
      (fun param => (param.name, other.resolveInSignature module decl.typeParams
        (.inFunction ⟨module, decl.name⟩ (.param param.name)) param.type)) =
        decl.params.map (fun param => (param.name, u.resolveInSignature module decl.typeParams
          (.inFunction ⟨module, decl.name⟩ (.param param.name)) param.type)) :=
    List.map_congr_left fun param listed => by
      rw [within.resolveInSignature (paramsClean param listed)]
  simp only [Universe.defineFunction]
  rw [params]
  cases written : decl.ret with
  | none => rfl
  | some type =>
    simp only [written] at retClean ⊢
    rw [within.resolveInSignature retClean]

theorem module_of_mem_defineFunction {decl : FunctionDecl}
    (reported : problem ∈ (u.defineFunction module decl).2) : problem.location.module = module := by
  simp only [Universe.defineFunction, List.mem_append, List.mem_flatMap, List.mem_map] at reported
  rcases reported with (repeated | ⟨_, ⟨param, _, rfl⟩, unresolved⟩) | unresolved
  · obtain ⟨_, _, rfl⟩ := List.mem_map.mp repeated
    rfl
  · rw [module_of_mem_resolveInSignature unresolved]
    rfl
  · cases written : decl.ret with
    | none =>
      rw [written] at unresolved
      cases unresolved
    | some type =>
      rw [written] at unresolved
      rw [module_of_mem_resolveInSignature unresolved]
      rfl

end Definitions

/-! ## The whole -/

section Structs

theorem outline_within (modules more : List Module) :
    (outline modules).Within (outline (modules ++ more)) := by
  refine ⟨fun {id struct} found => ?_, fun found => by cases found⟩
  rw [struct?_outline] at found ⊢
  obtain ⟨entry, declared, rfl⟩ := Option.map_eq_some_iff.mp found
  rw [declaredStructs_append, List.find?_append, declared]
  rfl

/-- A declaration set without problems keeps its definitions. -/
theorem defineStruct_append (more : List Module) (clean : structProblems modules = [])
    {entry : String × StructDecl} (listed : entry ∈ registeredStructs modules) :
    (outline (modules ++ more)).defineStruct entry.1 entry.2 =
      (outline modules).defineStruct entry.1 entry.2 := by
  rw [structProblems_eq, List.append_eq_nil_iff] at clean
  exact (outline_within modules more).defineStruct (List.flatMap_eq_nil_iff.mp clean.2 entry listed)

theorem structUniverse_within (more : List Module) (clean : structProblems modules = []) :
    (structUniverse modules).Within (structUniverse (modules ++ more)) := by
  refine ⟨fun {id struct} found => ?_, fun found => by cases found⟩
  rw [struct?_structUniverse] at found ⊢
  obtain ⟨entry, declared, rfl⟩ := Option.map_eq_some_iff.mp found
  have listed : entry ∈ registeredStructs modules :=
    List.mem_of_find?_eq_some ((find?_firsts List.not_mem_nil).trans declared)
  rw [declaredStructs_append, List.find?_append, declared, Option.some_or, Option.map_some,
    defineStruct_append more clean listed]

/-- Whatever is wrong with the structs of the whole is wrong with one of the new modules. -/
theorem structProblems_foreign (clean : structProblems modules = []) :
    ∀ problem ∈ structProblems (modules ++ more), problem.LiesIn more := by
  obtain ⟨seen, registered, remarked⟩ := firsts_append structIdOf [] (declaredStructs modules)
    (declaredStructs more)
  have kept : (registeredStructs modules).flatMap (fun entry =>
      ((outline (modules ++ more)).defineStruct entry.1 entry.2).2) =
        (registeredStructs modules).flatMap fun entry =>
          ((outline modules).defineStruct entry.1 entry.2).2 :=
    List.flatMap_congr fun entry listed => by rw [defineStruct_append more clean listed]
  rw [structProblems_eq, List.append_eq_nil_iff] at clean
  rw [structProblems_eq, registeredStructs, declaredStructs_append, registered, remarked, clean.1,
    List.nil_append, List.flatMap_append, ← registeredStructs, kept, clean.2, List.nil_append]
  intro problem reported
  have foreign : ∃ entry ∈ declaredStructs more, problem.location.module = entry.1 := by
    rcases List.mem_append.mp reported with inHeader | inFields
    · obtain ⟨entry, listed, faulty | again⟩ := exists_of_mem_remarks inHeader
      · obtain ⟨_, _, rfl⟩ := List.mem_map.mp faulty
        exact ⟨entry, listed, rfl⟩
      · rw [List.mem_singleton.mp again]
        exact ⟨entry, listed, rfl⟩
    · obtain ⟨entry, listed, here⟩ := List.mem_flatMap.mp inFields
      exact ⟨entry, (mem_of_mem_firsts listed).1, module_of_mem_resolveFields here⟩
  obtain ⟨entry, listed, located⟩ := foreign
  rw [Diagnostic.LiesIn, located]
  exact module_of_mem_declaredStructs listed

end Structs

/-- One universe is that of a declaration set, the other that of more modules linked to it. -/
structure Linked (u other : Universe) (more : List Module) : Prop where
  within : u.Within other
  struct_foreign : ∀ {id struct}, other.struct? id = some struct →
    u.struct? id = some struct ∨ NamedIn more id.module
  function_foreign : ∀ {id signature}, other.function? id = some signature →
    u.function? id = some signature ∨ NamedIn more id.module

section Linking

section Clean

variable (clean : (build modules).2 = [])

include clean

theorem defineFunction_append (more : List Module) {entry : String × FunctionDecl}
    (listed : entry ∈ declaredFunctions modules) :
    (structUniverse (modules ++ more)).defineFunction entry.1 entry.2 =
      (structUniverse modules).defineFunction entry.1 entry.2 := by
  obtain ⟨structs, functions⟩ := problems_of_clean clean
  exact (structUniverse_within more structs).defineFunction
    ((functions_of_clean functions).2 entry listed)

theorem linked_build (more : List Module) :
    Linked (build modules).1 (build (modules ++ more)).1 more := by
  have within : (build modules).1.Within (build (modules ++ more)).1 := by
    constructor
    · intro id struct found
      rw [struct?_build, ← struct?_structUniverse] at found ⊢
      exact (structUniverse_within more (problems_of_clean clean).1).struct? found
    · intro id signature found
      obtain ⟨entry, declared, _, rfl⟩ := exists_of_function? found
      rw [function?_build, declaredFunctions_append, List.find?_append, declared, Option.some_or,
        Option.map_some, defineFunction_append clean more (List.mem_of_find?_eq_some declared)]
  refine ⟨within, fun {id struct} found => ?_, fun {id signature} found => ?_⟩
  · obtain ⟨entry, declared, rfl, _⟩ := exists_of_struct? found
    cases own : (build modules).1.struct? (structIdOf entry) with
    | some struct' => exact .inl ((within.struct? own).symm.trans found)
    | none =>
      rw [struct?_build, Option.map_eq_none_iff] at own
      rw [declaredStructs_append, List.find?_append, own, Option.none_or] at declared
      exact .inr (module_of_mem_declaredStructs (List.mem_of_find?_eq_some declared))
  · obtain ⟨entry, declared, rfl, _⟩ := exists_of_function? found
    cases own : (build modules).1.function? (functionIdOf entry) with
    | some signature' => exact .inl ((within.function? own).symm.trans found)
    | none =>
      rw [function?_build, Option.map_eq_none_iff] at own
      rw [declaredFunctions_append, List.find?_append, own, Option.none_or] at declared
      exact .inr (module_of_mem_declaredFunctions (List.mem_of_find?_eq_some declared))

/-- Whatever is wrong with signatures of the whole is wrong with one of the new modules. -/
theorem functionProblems_foreign :
    ∀ problem ∈ functionProblems (modules ++ more), problem.LiesIn more := by
  obtain ⟨seen, _, remarked⟩ := firsts_append functionIdOf [] (declaredFunctions modules)
    (declaredFunctions more)
  have kept : remarks functionIdOf
      (fun entry => ((structUniverse (modules ++ more)).defineFunction entry.1 entry.2).2)
      repeatedFunction [] (declaredFunctions modules) = functionProblems modules :=
    remarks_congr fun entry listed => by rw [defineFunction_append clean more listed]
  rw [functionProblems, declaredFunctions_append, remarked, kept, (problems_of_clean clean).2,
    List.nil_append]
  intro problem reported
  obtain ⟨entry, listed, faulty | again⟩ := exists_of_mem_remarks reported
  · rw [Diagnostic.LiesIn, module_of_mem_defineFunction faulty]
    exact module_of_mem_declaredFunctions listed
  · rw [Diagnostic.LiesIn, List.mem_singleton.mp again]
    exact module_of_mem_declaredFunctions listed

end Clean

/-- A struct that contains itself is declared. -/
theorem exists_struct?_of_cyclic {u : Universe} (reported : id ∈ u.cyclicStructs) :
    ∃ struct, u.struct? id = some struct := by
  obtain ⟨inner, contains, _⟩ := Relation.TransGen.head'_iff.mp
    (cycle_of_mem_cyclicStructs reported)
  cases found : u.struct? id with
  | none => simp [Contains, containedIn, found] at contains
  | some struct => exact ⟨struct, rfl⟩

/-- Whatever is wrong with the types of the whole is wrong with one of the new modules. -/
theorem build_foreign (accepted : (build modules).1.Accepted) (clean : (build modules).2 = []) :
    ∀ problem ∈ (build (modules ++ more)).2, problem.LiesIn more := by
  have linked := linked_build clean more
  have cycles : (build modules).1.cyclicStructs = [] := by
    rw [snd_build] at clean
    exact List.map_eq_nil_iff.mp (List.append_eq_nil_iff.mp clean).2
  intro problem reported
  rw [snd_build, List.mem_append, List.mem_append] at reported
  rcases reported with (inStructs | inFunctions) | cyclic
  · exact structProblems_foreign (problems_of_clean clean).1 problem inStructs
  · exact functionProblems_foreign clean problem inFunctions
  · obtain ⟨id, listed, rfl⟩ := List.mem_map.mp cyclic
    obtain ⟨struct, declared⟩ := exists_struct?_of_cyclic listed
    rcases linked.struct_foreign declared with own | foreign
    · exact absurd listed (accepted.not_mem_cyclicStructs cycles linked.within own)
    · exact foreign

/-- Whatever is wrong with the structs of the whole is wrong with one of the new modules. -/
theorem checkStructs_foreign (accepted : (build modules).1.Accepted)
    (clean : (build modules).2 = []) : ∀ problem ∈ (build (modules ++ more)).1.checkStructs,
    problem.LiesIn more := by
  have linked := linked_build clean more
  intro problem reported
  obtain ⟨struct, listed, here⟩ := List.mem_flatMap.mp reported
  obtain ⟨⟨id, _⟩, stored, rfl⟩ := List.mem_map.mp listed
  obtain ⟨field, declared, faulty⟩ := List.mem_flatMap.mp here
  obtain ⟨fault, faultFound, rfl⟩ := List.mem_map.mp faulty
  have found : (build (modules ++ more)).1.struct? id = some _ := Table.get?_of_mem stored
  rcases linked.struct_foreign found with own | foreign
  · rw [linked.within.fieldFaults _ (accepted.fields_plain own field declared),
      accepted.fields_sound own field declared] at faultFound
    cases faultFound
  · obtain ⟨_, _, rfl, rfl⟩ := exists_of_struct? found
    exact foreign

end Linking

end Universe

end Custody
