import Custody.Proofs.Checking.Reach
import Custody.Proofs.Types.Linking
/-!
# Checking linked declaration sets

More modules are linked to an accepted declaration set, under names it does not use. Its bodies are
checked alike and have no problem; they call nothing but functions it declares, so that they reach
the same structs in storage and their clauses still name them. Everything that is wrong with the
whole lies in the new modules.
-/

namespace Custody

open Universe Access

variable {id : FunctionId} {problem : Diagnostic} {decl : FunctionDecl} {state : BodyState}
  {struct : StructId} {name : String}

/-! ## Bodies -/

section Bodies

variable {modules more : List Module}

/-- What the walk over a body has told. -/
theorem told_runBody (ctx : BodyContext) (statements : List Stmt) :
    Check.Told ctx {} (Check.runBody ctx statements) :=
  Check.Advances.advances {}

/-- A checked body is the walk over the body of a declared function. -/
theorem exists_of_mem_checkBodies {u : Universe} (listed : (id, state) ∈ checkBodies u modules) :
    ∃ decl signature, (id, decl) ∈ registeredFunctions [] (declaredFunctions modules) ∧
      u.function? id = some signature ∧ state = Check.runBody ⟨u, signature⟩ decl.body := by
  obtain ⟨⟨_, decl⟩, inside, walked⟩ := List.mem_filterMap.mp listed
  obtain ⟨_, checked, same⟩ := Option.map_eq_some_iff.mp walked
  obtain ⟨rfl, rfl⟩ := Prod.mk.inj same
  obtain ⟨signature, found, rfl⟩ := Option.map_eq_some_iff.mp checked
  exact ⟨decl, signature, inside, found, rfl⟩

/-- A function of an accepted declaration set is checked alike in the whole. -/
theorem checkFunction_linked (more : List Module) (clean : problems modules = [])
    (listed : (id, decl) ∈ registeredFunctions [] (declaredFunctions modules)) :
    checkFunction (build (modules ++ more)).1 id decl =
      checkFunction (build modules).1 id decl := by
  have declared := accepted_types clean
  obtain ⟨module, first⟩ := mem_registeredFunctions_iff.mp listed
  obtain ⟨signature, found⟩ : ∃ signature, (build modules).1.function? id = some signature :=
    ⟨_, by rw [function?_build, first, Option.map_some]⟩
  have walked : (id, Check.runBody ⟨(build modules).1, signature⟩ decl.body) ∈
      checkBodies (build modules).1 modules :=
    List.mem_filterMap.mpr ⟨(id, decl), listed, by simp [checkFunction, found]⟩
  simp only [problems, problemsOf, List.append_eq_nil_iff] at clean
  obtain ⟨⟨⟨built, _⟩, bodies⟩, _⟩ := clean
  have within := (linked_build built more).within
  have same := @Check.runBody_linked decl.body ⟨(build modules).1, signature⟩ _ within
    declared (declared.params_bindable found) (declared.ret_bindable found)
    (List.flatMap_eq_nil_iff.mp bodies _ walked)
  rw [checkFunction, checkFunction, found, within.function? found]
  exact congrArg some same

/-- Bodies of the accepted part are checked alike in the whole; whatever is wrong with the others
lies in the new modules. -/
theorem checkBodies_append (more : List Module) (clean : problems modules = []) :
    ∃ new, checkBodies (build (modules ++ more)).1 (modules ++ more) =
        checkBodies (build modules).1 modules ++ new ∧
      ∀ body ∈ new, NamedIn more body.1.module ∧ ∀ problem ∈ body.2.problems,
        problem.LiesIn more := by
  obtain ⟨seen, split, _⟩ := firsts_append functionIdOf [] (declaredFunctions modules)
    (declaredFunctions more)
  refine ⟨(registeredFunctions seen (declaredFunctions more)).filterMap fun entry =>
    (checkFunction (build (modules ++ more)).1 entry.1 entry.2).map (entry.1, ·), ?_, ?_⟩
  · show (registeredFunctions [] (declaredFunctions (modules ++ more))).filterMap _ = _
    rw [declaredFunctions_append, registeredFunctions_eq, split, List.map_append,
      ← registeredFunctions_eq, ← registeredFunctions_eq, List.filterMap_append]
    refine congrArg (· ++ _) (List.filterMap_congr fun entry listed => ?_)
    exact congrArg (Option.map (entry.1, ·)) (checkFunction_linked more clean listed)
  · intro body listed
    obtain ⟨⟨id, decl⟩, inside, walked⟩ := List.mem_filterMap.mp listed
    obtain ⟨_, checked, rfl⟩ := Option.map_eq_some_iff.mp walked
    obtain ⟨signature, found, rfl⟩ := Option.map_eq_some_iff.mp checked
    rw [registeredFunctions_eq] at inside
    obtain ⟨entry, declared, same⟩ := List.mem_map.mp inside
    obtain ⟨rfl, rfl⟩ := Prod.mk.inj same
    have named : NamedIn more entry.1 :=
      module_of_mem_declaredFunctions (mem_of_mem_firsts declared).1
    refine ⟨named, fun problem reported => ?_⟩
    rcases (told_runBody _ entry.2.body).located problem reported with before | ⟨site, located⟩
    · cases before
    · obtain ⟨source, _, same, rfl⟩ := exists_of_function? found
      rw [Diagnostic.LiesIn, located]
      exact (congrArg (·.module) same : source.1 = entry.1) ▸ named

end Bodies

/-! ## Clauses -/

namespace Access

section Clauses

variable {u other : Universe} {id : FunctionId}

theorem module_of_acquired (refused : acquired u id name = .error problem) :
    problem.location.module = id.module := by
  simp only [acquired] at refused
  split at refused
  · rw [← Except.error.inj refused]
    rfl
  · split at refused
    · cases refused
    · rw [← Except.error.inj refused]
      rfl

theorem module_of_mem_verifyFunction {reached : SortedSet StructId}
    (reported : problem ∈ verifyFunction u id reached) : problem.location.module = id.module := by
  simp only [verifyFunction] at reported
  split at reported
  · cases reported
  · rcases List.mem_append.mp reported with flawed | undeclared
    · obtain ⟨result, listed, refused⟩ := List.mem_filterMap.mp flawed
      obtain ⟨name, _, rfl⟩ := List.mem_map.mp listed
      split at refused
      · rename_i other found
        rw [← Option.some.inj refused]
        exact module_of_acquired found
      · cases refused
    · obtain ⟨struct, _, rfl⟩ := List.mem_map.mp undeclared
      rfl

/-- A name that stands for a struct stands for it in the larger universe. -/
theorem acquired_within (within : u.Within other) (named : acquired u id name = .ok struct) :
    acquired other id name = .ok struct := by
  cases found : u.struct? ⟨id.module, name⟩ with
  | none => simp [acquired, found] at named
  | some definition =>
    simp only [acquired, found] at named
    simp only [acquired, within.struct? found]
    exact named

/-- A clause that is in order stays so in the larger universe, if the function reaches no more. -/
theorem verifyFunction_within (within : u.Within other) {signature : Signature}
    (registered : u.function? id = some signature) {reached reached' : SortedSet StructId}
    (clean : verifyFunction u id reached = []) (less : ∀ struct ∈ reached', struct ∈ reached) :
    verifyFunction other id reached' = [] := by
  simp only [verifyFunction, registered, List.append_eq_nil_iff] at clean
  obtain ⟨sound, named⟩ := clean
  have clause : signature.acquires.map (acquired other id) = signature.acquires.map
      (acquired u id) := by
    refine List.map_congr_left fun name listed => ?_
    have here := List.filterMap_eq_nil_iff.mp sound _ (List.mem_map.mpr ⟨name, listed, rfl⟩)
    cases meant : acquired u id name with
    | error problem =>
      rw [meant] at here
      cases here
    | ok struct => exact acquired_within within meant
  simp only [verifyFunction, within.function? registered, clause, List.append_eq_nil_iff]
  refine ⟨sound, ?_⟩
  rw [List.map_eq_nil_iff, List.filter_eq_nil_iff] at named ⊢
  exact fun struct member => named struct (less struct member)

end Clauses

end Access

/-! ## What functions of the accepted part reach -/

section Reach

variable {modules more : List Module}

theorem get?_accesses_of_mem (walked : (id, state) ∈ checkBodies (build modules).1 modules) :
    (programOf modules).accesses.get? id = some state.access :=
  Table.get?_ofList_of_mem (by rw [List.map_map]; exact nodup_checkBodies _ _)
    (List.mem_map.mpr ⟨(id, state), walked, rfl⟩)

/-- An account of the whole that is not of a new function is that of a body of the accepted part. -/
theorem walked_of_mem_accesses (clean : problems modules = []) {access : Access}
    (listed : (id, access) ∈ (programOf (modules ++ more)).accesses.entries)
    (own : ¬ NamedIn more id.module) :
    ∃ state, (id, state) ∈ checkBodies (build modules).1 modules ∧ access = state.access := by
  obtain ⟨new, split, foreign⟩ := checkBodies_append more clean
  obtain ⟨⟨_, state⟩, walked, same⟩ := List.mem_map.mp (Table.mem_of_mem_ofList listed)
  obtain ⟨rfl, rfl⟩ := Prod.mk.inj same
  rw [show (programOf (modules ++ more)).modules = modules ++ more from rfl,
    show (programOf (modules ++ more)).types = (build (modules ++ more)).1 from rfl,
    split] at walked
  rcases List.mem_append.mp walked with old | later
  · exact ⟨state, old, rfl⟩
  · exact absurd (foreign _ later).1 own

variable (apart : ∀ name, NamedIn modules name → ¬ NamedIn more name)

include apart

/-- In the whole, a function of the accepted part reaches nothing that it did not reach. -/
theorem knows_of_knows_append (clean : problems modules = [])
    (known : knows struct (programOf (modules ++ more)).reach id = true)
    (own : ¬ NamedIn more id.module) : knows struct (programOf modules).reach id = true := by
  refine of_knows_closure (motive := fun id => ¬ NamedIn more id.module →
    knows struct (programOf modules).reach id = true) ?_ ?_ known own
  · rintro ⟨id, _⟩ listed reaches own
    obtain ⟨state, walked, rfl⟩ := walked_of_mem_accesses clean listed own
    exact knows_closure_of_direct (get?_accesses_of_mem walked) reaches
  · rintro ⟨id, _⟩ listed callee called reaches own
    obtain ⟨state, walked, rfl⟩ := walked_of_mem_accesses clean listed own
    refine knows_closure_of_call (get?_accesses_of_mem walked) called (reaches ?_)
    -- The body was checked in the universe of the accepted part, where its callee is declared.
    obtain ⟨decl, signature, _, _, rfl⟩ := exists_of_mem_checkBodies walked
    rcases (told_runBody _ decl.body).declared callee called with before | ⟨other, found⟩
    · exact absurd before (SortedSet.not_mem_empty callee)
    · obtain ⟨source, inside, rfl⟩ := isSome_function?_build.mp (Option.isSome_of_eq_some found)
      exact apart source.1 (module_of_mem_declaredFunctions inside)

/-- Whatever is wrong with the clauses of the whole lies in the new modules. -/
theorem verify_foreign (clean : problems modules = []) :
    ∀ problem ∈ verify (build (modules ++ more)).1 (programOf (modules ++ more)).accesses,
      problem.LiesIn more := by
  intro problem reported
  obtain ⟨⟨id, reached⟩, listed, here⟩ := List.mem_flatMap.mp reported
  by_cases foreign : NamedIn more id.module
  · rw [Diagnostic.LiesIn, module_of_mem_verifyFunction here]
    exact foreign
  · have found : (programOf (modules ++ more)).reach.get? id = some reached :=
      Table.get?_of_mem listed
    obtain ⟨set, setFound⟩ : ∃ set, (programOf modules).reach.get? id = some set := by
      obtain ⟨access, recorded⟩ := Option.isSome_iff_exists.mp
        ((isSome_closure id).symm.trans (Option.isSome_of_eq_some found))
      obtain ⟨state, walked, _⟩ := walked_of_mem_accesses clean
        (Table.mem_entries_of_get? recorded) foreign
      exact Option.isSome_iff_exists.mp ((isSome_closure id).trans
        (Option.isSome_of_eq_some (get?_accesses_of_mem walked)))
    have less : ∀ struct ∈ reached, struct ∈ set := by
      intro struct member
      obtain ⟨_, same, member⟩ := knows_iff.mp (knows_of_knows_append apart clean
        (knows_iff.mpr ⟨reached, found, member⟩) foreign)
      rw [setFound] at same
      exact Option.some.inj same ▸ member
    simp only [problems, problemsOf, List.append_eq_nil_iff] at clean
    have linked := linked_build clean.1.1.1 more
    have passed : verifyFunction (build modules).1 id set = [] :=
      List.flatMap_eq_nil_iff.mp clean.2 _ (Table.mem_entries_of_get? setFound)
    cases registered : (build (modules ++ more)).1.function? id with
    | none => simp [verifyFunction, registered] at here
    | some signature =>
      have own := (linked.function_foreign registered).resolve_right foreign
      rw [verifyFunction_within linked.within own passed less] at here
      cases here

end Reach

/-! ## The whole -/

/-- Everything that is wrong with the whole lies in the new modules. -/
theorem problems_foreign {modules more : List Module}
    (apart : ∀ name, NamedIn modules name → ¬ NamedIn more name) (clean : problems modules = []) :
    ∀ problem ∈ problems (modules ++ more), problem.LiesIn more := by
  have declared := accepted_types clean
  have clauses := verify_foreign apart clean
  obtain ⟨new, split, foreign⟩ := checkBodies_append more clean
  simp only [problems, problemsOf, List.append_eq_nil_iff] at clean
  obtain ⟨⟨⟨built, _⟩, bodies⟩, _⟩ := clean
  intro problem reported
  simp only [problems, problemsOf, List.mem_append] at reported
  rcases reported with ((inTypes | inStructs) | inBodies) | inClauses
  · exact build_foreign declared built problem inTypes
  · exact checkStructs_foreign declared built problem inStructs
  · rw [split, List.flatMap_append, bodies, List.nil_append] at inBodies
    obtain ⟨body, listed, here⟩ := List.mem_flatMap.mp inBodies
    exact (foreign body listed).2 problem here
  · exact clauses problem inClauses

/-- Modules are linked to accepted ones, under names that those do not have. If the whole is
refused, then for what lies in the new modules: nothing is wrong with the accepted ones, neither
with their types and structs nor with their bodies and clauses. -/
theorem linking_keeps_accepted_modules {modules more : List Module} {program : Program}
    (accepted : check modules = .ok program)
    (apart : ∀ module ∈ modules, ∀ other ∈ more, module.name ≠ other.name)
    {faults : List Diagnostic} (refused : check (modules ++ more) = .error faults) :
    ∀ fault ∈ faults, ∃ module ∈ more, module.name = fault.location.module := by
  obtain ⟨clean, rfl⟩ := problems_eq_nil accepted
  obtain ⟨rfl, _⟩ := check_eq_error_iff.mp refused
  refine problems_foreign ?_ clean
  rintro _ ⟨module, inside, rfl⟩ ⟨other, outside, same⟩
  exact apart module inside other outside same.symm

/-- A module that keeps boxes and hands out what is in them. -/
def keeping : List Module := [
  { name := "Safe"
    structs := [{ name := "Box", abilities := { key := true }, fields := [⟨"item", .u64⟩] }]
    functions := [
      { name := "take"
        params := [⟨"at", .address⟩]
        ret := some .u64
        acquires := ["Box"]
        body := [
          .unpack { name := "Box" } [("item", .bind "item")]
          (.moveFrom { name := "Box" } (.var "at")), .ret (some (.var "item"))] }] }]

/-- A module with one mistake of each kind, most of them about boxes: a type that is not declared, a
struct that contains itself, one that promises to be copied with the box in it, a box unpacked by a
stranger, and a clause that is missing. -/
def careless : List Module := [
  { name := "Shop"
    structs := [
      { name := "Crate", fields := [⟨"inner", .struct none "Crate" []⟩] },
      { name := "Shelf"
        abilities := { copy := true }
        fields := [⟨"box", .struct (some "Safe") "Box" []⟩] },
      { name := "Stock", abilities := { key := true }, fields := [⟨"count", .u64⟩] }]
    functions := [
      { name := "weigh", params := [⟨"lid", .struct (some "Safe") "Lid" []⟩] },
      { name := "force"
        params := [⟨"at", .address⟩]
        body := [.unpack { module := some "Safe", name := "Box" } [("item", .ignore)]
          (.moveFrom { module := some "Safe", name := "Box" } (.var "at"))] },
      { name := "sell"
        params := [⟨"at", .address⟩]
        ret := some .u64
        body := [
          .unpack { name := "Stock" } [("count", .ignore)]
          (.moveFrom { name := "Stock" } (.var "at")), .ret
          (some (.call (some "Safe") "take" [] [.var "at"]))] }] }]

theorem careless_faults_are_its_own :
    check keeping = .ok (programOf keeping) ∧
      ∃ faults, check (keeping ++ careless) = .error faults ∧ faults.length = 6 ∧
        ∀ fault ∈ faults, ∃ module ∈ careless, module.name = fault.location.module := by
  have accepted : check keeping = .ok (programOf keeping) := check_of_clean (by decide +kernel)
  have count : (problems (keeping ++ careless)).length = 6 := by decide +kernel
  have refused : check (keeping ++ careless) = .error (problems (keeping ++ careless)) :=
    check_eq_error_iff.mpr ⟨rfl, List.ne_nil_of_length_eq_add_one count⟩
  exact ⟨accepted, _, refused, count, linking_keeps_accepted_modules accepted (by decide) refused⟩

end Custody
