import Custody.Check.Program
import Custody.Proofs.Tables
/-!
# What a universe is built from

Headers, definitions and signatures are collected in passes over the declarations. Of two
declarations of one name the first stands, and the second is reported. So what a pass collects can
be read off the declarations: under a name stands the first that has it, and every declaration has
its own remarks.
-/

namespace Custody

open Table

/-! ## The first of each name -/

section Naming

variable {ε κ δ : Type} [DecidableEq κ] {name : ε → κ} {first first' again : ε → List δ}
  {seen : List κ} {items more : List ε} {item : ε} {key : κ}

/-- The first item of each name, of the names that are not taken. -/
def firsts (name : ε → κ) (seen : List κ) : List ε → List ε
  | [] => []
  | item :: rest =>
    if name item ∈ seen then firsts name seen rest else item :: firsts name (name item :: seen) rest

/-- What there is to say of items one after another: one thing of the first of a name, another of
one whose name is taken. -/
def remarks (name : ε → κ) (first again : ε → List δ) (seen : List κ) : List ε → List δ
  | [] => []
  | item :: rest =>
    if name item ∈ seen then again item ++ remarks name first again seen rest
    else first item ++ remarks name first again (name item :: seen) rest

theorem mem_of_mem_firsts (listed : item ∈ firsts name seen items) :
    item ∈ items ∧ name item ∉ seen := by
  induction items generalizing seen with
  | nil => cases listed
  | cons head rest ih =>
    simp only [firsts] at listed
    split at listed
    · exact (ih listed).imp_left (List.mem_cons_of_mem _)
    · rename_i free
      rcases List.mem_cons.mp listed with rfl | later
      · exact ⟨List.mem_cons_self, free⟩
      · obtain ⟨inside, unseen⟩ := ih later
        exact ⟨List.mem_cons_of_mem _ inside, fun known => unseen (List.mem_cons_of_mem _ known)⟩

theorem nodup_firsts : ((firsts name seen items).map name).Nodup := by
  induction items generalizing seen with
  | nil => exact List.nodup_nil
  | cons head rest ih =>
    simp only [firsts]
    split
    · exact ih
    · refine List.nodup_cons.mpr ⟨fun again => ?_, ih⟩
      obtain ⟨other, listed, same⟩ := List.mem_map.mp again
      exact (mem_of_mem_firsts listed).2 (same ▸ List.mem_cons_self)

/-- A name that is not taken means the first item that has it. -/
theorem find?_firsts (free : key ∉ seen) :
    (firsts name seen items).find? (name · = key) = items.find? (name · = key) := by
  induction items generalizing seen with
  | nil => rfl
  | cons head rest ih =>
    by_cases here : name head = key
    · simp [firsts, here, free]
    · have still : key ∉ name head :: seen := by
        simp only [List.mem_cons, not_or]
        exact ⟨fun same => here same.symm, free⟩
      simp only [firsts]
      split <;> simp [here, ih, free, still]

theorem firsts_append (name : ε → κ) (seen : List κ) (items more : List ε) :
    ∃ seen', firsts name seen (items ++ more) = firsts name seen items ++ firsts name seen' more ∧
      ∀ {δ : Type} (first again : ε → List δ), remarks name first again seen (items ++ more) =
        remarks name first again seen items ++ remarks name first again seen' more := by
  induction items generalizing seen with
  | nil => exact ⟨seen, rfl, fun _ _ => rfl⟩
  | cons head rest ih =>
    by_cases taken : name head ∈ seen
    · obtain ⟨seen', listed, said⟩ := ih seen
      exact ⟨seen', by simpa [firsts, taken] using listed, fun first again => by
        simp [remarks, taken, said first again]⟩
    · obtain ⟨seen', listed, said⟩ := ih (name head :: seen)
      exact ⟨seen', by simpa [firsts, taken] using listed, fun first again => by
        simp [remarks, taken, said first again]⟩

/-- Where every item has a name of its own, all of them are the first of their names. -/
theorem firsts_of_nodup (distinct : (items.map name).Nodup)
    (free : ∀ item ∈ items, name item ∉ seen) : firsts name seen items = items ∧ ∀ {δ : Type}
    (first again : ε → List δ),
      remarks name first again seen items = items.flatMap first := by
  induction items generalizing seen with
  | nil => exact ⟨rfl, fun _ _ => rfl⟩
  | cons head rest ih =>
    obtain ⟨new, others⟩ := List.nodup_cons.mp distinct
    obtain ⟨here, later⟩ := List.forall_mem_cons.mp free
    have still : ∀ item ∈ rest, name item ∉ name head :: seen := by
      intro item listed
      rw [List.mem_cons, not_or]
      exact ⟨fun same => new (List.mem_map.mpr ⟨item, listed, same⟩), later item listed⟩
    obtain ⟨listed, said⟩ := ih others still
    simp [firsts, remarks, here, listed, said]

theorem remarks_congr (same : ∀ item ∈ items, first item = first' item) :
    remarks name first again seen items = remarks name first' again seen items := by
  induction items generalizing seen with
  | nil => rfl
  | cons head rest ih =>
    obtain ⟨here, later⟩ := List.forall_mem_cons.mp same
    simp only [remarks, here, ih later]

theorem exists_of_mem_remarks {remark : δ} (made : remark ∈ remarks name first again seen items) :
    ∃ item ∈ items, remark ∈ first item ∨ remark ∈ again item := by
  induction items generalizing seen with
  | nil => cases made
  | cons head rest ih =>
    have below : ∀ {seen}, remark ∈ remarks name first again seen rest →
        ∃ item ∈ head :: rest, remark ∈ first item ∨ remark ∈ again item := fun made =>
      (ih made).imp fun _ found => found.imp_left (List.mem_cons_of_mem _)
    simp only [remarks] at made
    split at made
    · exact (List.mem_append.mp made).elim (fun here => ⟨head, List.mem_cons_self, .inr here⟩) below
    · exact (List.mem_append.mp made).elim (fun here => ⟨head, List.mem_cons_self, .inl here⟩) below

/-- Where there is nothing to say, no name is repeated. -/
theorem of_remarks_eq_nil (reported : ∀ item, again item ≠ [])
    (none : remarks name first again seen items = []) :
    (items.map name).Nodup ∧ ∀ item ∈ items, name item ∉ seen ∧ first item = [] := by
  induction items generalizing seen with
  | nil => exact ⟨List.nodup_nil, fun _ listed => absurd listed List.not_mem_nil⟩
  | cons head rest ih =>
    simp only [remarks] at none
    split at none
    · exact absurd (List.append_eq_nil_iff.mp none).1 (reported head)
    · rename_i free
      obtain ⟨here, later⟩ := List.append_eq_nil_iff.mp none
      obtain ⟨distinct, each⟩ := ih later
      refine ⟨List.nodup_cons.mpr ⟨fun again => ?_, distinct⟩,
        List.forall_mem_cons.mpr ⟨⟨free, here⟩, ?_⟩⟩
      · obtain ⟨other, listed, same⟩ := List.mem_map.mp again
        exact (each other listed).1 (same ▸ List.mem_cons_self)
      · exact fun item listed => (each item listed).imp_left fun unseen known =>
          unseen (List.mem_cons_of_mem _ known)

end Naming

namespace Universe

/-! ## Declarations -/

variable (modules : List Module)

/-- The structs of a declaration set with the modules that declare them. -/
def declaredStructs : List (String × StructDecl) :=
  modules.flatMap fun module => module.structs.map (module.name, ·)

/-- The functions of a declaration set with the modules that declare them. -/
def declaredFunctions : List (String × FunctionDecl) :=
  modules.flatMap fun module => module.functions.map (module.name, ·)

variable (entry : String × StructDecl)

/-- The name of a declared struct. -/
def structIdOf : StructId := ⟨entry.1, entry.2.name⟩

/-- The name of a declared function. -/
def functionIdOf (entry : String × FunctionDecl) : FunctionId := ⟨entry.1, entry.2.name⟩

/-! ## Structs -/

/-- What is registered of a struct before its fields are resolved. -/
def headerOf : StructDef :=
  { id := structIdOf entry, typeParams := entry.2.typeParams, abilities := entry.2.abilities }

/-- What is wrong with the header of a struct. -/
def headerProblems : List Diagnostic :=
  typeParamFaults { module := entry.1, site := .struct entry.2.name } entry.2.typeParams

/-- A struct whose name is taken. -/
def repeatedStruct : List Diagnostic :=
  [⟨{ module := entry.1, site := .struct entry.2.name }, .duplicate (structIdOf entry).render⟩]

/-- The structs that are registered. -/
def registeredStructs : List (String × StructDecl) :=
  firsts structIdOf [] (declaredStructs modules)

theorem nodup_registeredStructs {modules : List Module} :
    ((registeredStructs modules).map structIdOf).Nodup := nodup_firsts

/-- Headers are added for the first declaration of each name. -/
theorem foldl_add (declared : List (String × StructDecl)) (state : Headers) {seen : List StructId}
    (known : ∀ id, state.structs.contains id = true ↔ id ∈ seen) :
    declared.foldl (fun state entry => Headers.add entry.1 state entry.2) state =
      { structs := (firsts structIdOf seen declared).foldl
          (fun table entry => table.insert (structIdOf entry) (headerOf entry)) state.structs
        registered := state.registered ++ firsts structIdOf seen declared
        problems := state.problems ++ remarks structIdOf headerProblems repeatedStruct
          seen declared } := by
  induction declared generalizing state seen with
  | nil => simp [firsts, remarks]
  | cons entry rest ih =>
    by_cases taken : structIdOf entry ∈ seen
    · have step : Headers.add entry.1 state entry.2 =
          { state with problems := state.problems ++ repeatedStruct entry } := by
        simp only [Headers.add]
        exact if_pos ((known _).mpr taken)
      rw [List.foldl_cons, step,
        ih { state with problems := state.problems ++ repeatedStruct entry } known]
      simp [firsts, remarks, taken]
    · have step : Headers.add entry.1 state entry.2 =
          { structs := state.structs.insert (structIdOf entry) (headerOf entry)
            registered := state.registered ++ [entry]
            problems := state.problems ++ headerProblems entry } := by
        simp only [Headers.add]
        exact if_neg fun there => taken ((known _).mp there)
      have known' : ∀ id, (state.structs.insert (structIdOf entry) (headerOf entry)).contains id =
          true ↔
          id ∈ structIdOf entry :: seen := by
        intro id
        rw [List.mem_cons, ← known, contains, contains, get?_insert]
        split <;> simp [*]
      rw [List.foldl_cons, step, ih _ known']
      simp [firsts, remarks, taken]

theorem headers_eq :
    headers modules =
      { structs := (registeredStructs modules).foldl
          (fun table entry => table.insert (structIdOf entry) (headerOf entry)) ∅
        registered := registeredStructs modules
        problems := remarks structIdOf headerProblems repeatedStruct []
          (declaredStructs modules) } := by
  have flattened : headers modules =
      (declaredStructs modules).foldl (fun state entry => Headers.add entry.1 state entry.2)
      {} := by
    simp only [headers, declaredStructs, List.foldl_flatMap, List.foldl_map]
  have none : ∀ id, (∅ : Table StructId StructDef).contains id = true ↔ id ∈ [] :=
    by simp [contains]
  rw [flattened, foldl_add _ {} none]
  rfl

/-- The headers of a declaration set as a universe, against which fields are resolved. -/
def outline : Universe := { structs := (headers modules).structs }

/-- What the registered declarations stand for. -/
def definitions : List (StructDef × List Diagnostic) :=
  (headers modules).registered.map fun entry => (outline modules).defineStruct entry.1 entry.2

/-- The universe of the struct definitions alone. -/
def structUniverse : Universe :=
  { structs := (definitions modules).foldl (fun table entry => table.insert entry.1.id entry.1)
      (headers modules).structs }

/-- Everything wrong with the struct declarations taken by themselves. -/
def structProblems : List Diagnostic :=
  (headers modules).problems ++ (definitions modules).flatMap (·.2)

theorem structProblems_eq :
    structProblems modules = remarks structIdOf headerProblems repeatedStruct []
    (declaredStructs modules) ++
      (registeredStructs modules).flatMap fun entry =>
        ((outline modules).defineStruct entry.1 entry.2).2 := by
  rw [structProblems, definitions, headers_eq, List.flatMap_map]

theorem definitions_eq :
    definitions modules =
      (registeredStructs modules).map fun entry => (outline modules).defineStruct entry.1
      entry.2 := by
  rw [definitions, headers_eq]

variable {modules}

theorem struct?_outline (id : StructId) :
    (outline modules).struct? id = ((declaredStructs modules).find? (structIdOf · = id)).map
    headerOf := by
  show (headers modules).structs.get? id = _
  rw [headers_eq, registeredStructs, get?_foldl_insert nodup_firsts, find?_firsts List.not_mem_nil,
    get?_empty, Option.or_none]

theorem struct?_structUniverse (id : StructId) :
    (structUniverse modules).struct? id = ((declaredStructs modules).find? (structIdOf · = id)).map
      fun entry => ((outline modules).defineStruct entry.1 entry.2).1 := by
  have header : (headers modules).structs.get? id = _ := struct?_outline id
  rw [struct?, structUniverse, definitions_eq, List.foldl_map]
  refine (get?_foldl_insert nodup_registeredStructs _ id).trans ?_
  rw [registeredStructs, find?_firsts List.not_mem_nil, header]
  cases (declaredStructs modules).find? (structIdOf · = id) <;> rfl

/-! ## Functions -/

section Signatures

variable {u other : Universe}

theorem checkArity_congr (same : u.structs = other.structs) (id : StructId) (count : Nat) :
    u.checkArity id count = other.checkArity id count := by
  simp only [checkArity, struct?, same]

section Arities

variable {module : String} {params : List TypeParam}

mutual

theorem resolve_congr (same : ∀ id count, u.checkArity id count = other.checkArity id count) :
    (type : TypeExpr) → u.resolve module params type = other.resolve module params type
  | .bool | .u8 | .u64 | .u128 | .address | .signer | .param _ => by
    rw [resolve, resolve]
  | .vector elem => by
    rw [resolve, resolve, resolve_congr same elem]
  | .struct owner name args => by
    rw [resolve, resolve, same, resolveArgs_congr same args]
  | .ref mutable inner => by
    rw [resolve, resolve, resolve_congr same inner]

theorem resolveArgs_congr (same : ∀ id count, u.checkArity id count = other.checkArity id count) :
    (types : List TypeExpr) →
      u.resolveArgs module params types = other.resolveArgs module params types
  | [] => by
    rw [resolveArgs, resolveArgs]
  | type :: types => by
    rw [resolveArgs, resolveArgs, resolve_congr same type, resolveArgs_congr same types]

end

/-- Written types depend on how many parameters each struct has, and on nothing else. -/
theorem resolveAt_congr (same : ∀ id count, u.checkArity id count = other.checkArity id count)
    (module : String) (params : List TypeParam) (top : Bool) (type : TypeExpr) :
    u.resolveAt module params top type = other.resolveAt module params top type := by
  simp only [resolveAt, resolve_congr same]

end Arities

/-- Signatures depend on structs only. -/
theorem defineFunction_congr (same : u.structs = other.structs) (module : String)
    (decl : FunctionDecl) : u.defineFunction module decl = other.defineFunction module decl := by
  have position : ∀ params location type, u.resolveInSignature module params location type =
      other.resolveInSignature module params location type := by
    intro params location type
    simp only [resolveInSignature, resolveAt_congr (checkArity_congr same)]
  simp only [defineFunction, position]

end Signatures

/-- A function whose name is taken. -/
def repeatedFunction (entry : String × FunctionDecl) : List Diagnostic :=
  [⟨.inFunction (functionIdOf entry) .signature, .duplicate (functionIdOf entry).render⟩]

/-- Signatures are added for the first declaration of each name, each resolved against the structs
alone. -/
theorem foldl_addFunction (declared : List (String × FunctionDecl)) (u : Universe)
    (found : List Diagnostic) {seen : List FunctionId}
    (known : ∀ id, u.functions.contains id = true ↔ id ∈ seen) :
    declared.foldl (fun state entry => addFunction entry.1 state entry.2) (u, found) =
      (⟨u.structs, (firsts functionIdOf seen declared).foldl (fun table entry =>
          table.insert (functionIdOf entry) (u.defineFunction entry.1 entry.2).1) u.functions⟩,
        found ++ remarks functionIdOf (fun entry => (u.defineFunction entry.1 entry.2).2)
          repeatedFunction seen declared) := by
  induction declared generalizing u found seen with
  | nil => simp [firsts, remarks]
  | cons entry rest ih =>
    by_cases taken : functionIdOf entry ∈ seen
    · have step : addFunction entry.1 (u, found) entry.2 =
          (u, found ++ repeatedFunction entry) := by
        simp only [addFunction]
        exact if_pos ((known _).mpr taken)
      rw [List.foldl_cons, step, ih u _ known]
      simp [firsts, remarks, taken]
    · have step : addFunction entry.1 (u, found) entry.2 = (⟨u.structs,
          u.functions.insert (functionIdOf entry) (u.defineFunction entry.1 entry.2).1⟩,
          found ++ (u.defineFunction entry.1 entry.2).2) := by
        simp only [addFunction]
        exact if_neg fun there => taken ((known _).mp there)
      have known' : ∀ id, (u.functions.insert (functionIdOf entry)
          (u.defineFunction entry.1 entry.2).1).contains id = true ↔ id ∈ functionIdOf
          entry :: seen := by
        intro id
        rw [List.mem_cons, ← known, contains, contains, get?_insert]
        split <;> simp [*]
      have alike : ∀ table module decl,
          defineFunction ⟨u.structs, table⟩ module decl = u.defineFunction module decl :=
        fun table => defineFunction_congr (u := ⟨u.structs, table⟩) rfl
      rw [List.foldl_cons, step, ih _ _ known']
      simp [firsts, remarks, taken, alike]

variable (modules)

/-- Everything wrong with the signatures of functions. -/
def functionProblems : List Diagnostic :=
  remarks functionIdOf (fun entry => ((structUniverse modules).defineFunction entry.1 entry.2).2)
    repeatedFunction [] (declaredFunctions modules)

theorem build_eq :
    build modules =
      let complete : Universe := ⟨(structUniverse modules).structs,
        (firsts functionIdOf [] (declaredFunctions modules)).foldl (fun table entry => table.insert
          (functionIdOf entry) ((structUniverse modules).defineFunction entry.1 entry.2).1) ∅⟩
      (complete, structProblems modules ++ functionProblems modules ++
        complete.cyclicStructs.map cycleDiagnostic) := by
  have none : ∀ id, (∅ : Table FunctionId Signature).contains id = true ↔ id ∈ [] := by
    simp [contains]
  have flattened : ∀ state, modules.foldl
      (fun state module => module.functions.foldl (addFunction module.name) state) state =
        (declaredFunctions modules).foldl (fun state entry => addFunction entry.1 state entry.2)
        state := by
    intro state
    simp only [declaredFunctions, List.foldl_flatMap, List.foldl_map]
  exact congrArg (fun complete : Universe × List Diagnostic =>
    (complete.1, complete.2 ++ complete.1.cyclicStructs.map cycleDiagnostic))
    ((flattened (structUniverse modules, structProblems modules)).trans
      (foldl_addFunction _ _ _ none))

theorem structs_build : (build modules).1.structs = (structUniverse modules).structs := by
  rw [build_eq]

variable {modules}

/-- Under a name stands the definition of the first struct that is declared under it. -/
theorem struct?_build (id : StructId) :
    (build modules).1.struct? id = ((declaredStructs modules).find? (structIdOf · = id)).map
      fun entry => ((outline modules).defineStruct entry.1 entry.2).1 :=
  (congrArg (get? · id) (structs_build modules)).trans (struct?_structUniverse id)

/-- Under a name stands the signature of the first function that is declared under it. -/
theorem function?_build (id : FunctionId) :
    (build modules).1.function? id = ((declaredFunctions modules).find? (functionIdOf · = id)).map
      fun entry => ((structUniverse modules).defineFunction entry.1 entry.2).1 := by
  have distinct : ((firsts functionIdOf [] (declaredFunctions modules)).map functionIdOf).Nodup :=
    nodup_firsts
  rw [build_eq]
  refine (get?_foldl_insert distinct _ id).trans ?_
  rw [find?_firsts List.not_mem_nil, get?_empty, Option.or_none]

theorem exists_of_struct? {id : StructId} {struct : StructDef}
    (found : (build modules).1.struct? id = some struct) :
    ∃ entry, (declaredStructs modules).find? (structIdOf · = id) = some entry ∧
    structIdOf entry = id ∧
      struct = ((outline modules).defineStruct entry.1 entry.2).1 := by
  rw [struct?_build] at found
  obtain ⟨entry, declared, rfl⟩ := Option.map_eq_some_iff.mp found
  exact ⟨entry, declared, name_of_find? declared, rfl⟩

theorem exists_of_function? {id : FunctionId} {signature : Signature}
    (found : (build modules).1.function? id = some signature) :
    ∃ entry, (declaredFunctions modules).find? (functionIdOf · = id) = some entry ∧
      functionIdOf entry = id ∧
        signature = ((structUniverse modules).defineFunction entry.1 entry.2).1 := by
  rw [function?_build] at found
  obtain ⟨entry, declared, rfl⟩ := Option.map_eq_some_iff.mp found
  exact ⟨entry, declared, name_of_find? declared, rfl⟩

theorem snd_build (modules : List Module) :
    (build modules).2 = structProblems modules ++ functionProblems modules ++
      (build modules).1.cyclicStructs.map cycleDiagnostic := by
  rw [build_eq]

theorem problems_of_clean (clean : (build modules).2 = []) :
    structProblems modules = [] ∧ functionProblems modules = [] := by
  rw [snd_build, List.append_eq_nil_iff, List.append_eq_nil_iff] at clean
  exact clean.1

/-- A declaration set without problems declares no struct twice, and every field resolves. -/
theorem structs_of_clean (clean : structProblems modules = []) :
    ((declaredStructs modules).map structIdOf).Nodup ∧ ∀ entry ∈ declaredStructs modules,
      headerProblems entry = [] ∧ ((outline modules).defineStruct entry.1 entry.2).2 = [] := by
  rw [structProblems_eq, List.append_eq_nil_iff] at clean
  obtain ⟨distinct, headed⟩ := of_remarks_eq_nil (fun _ => List.cons_ne_nil _ _) clean.1
  have fields := clean.2
  rw [registeredStructs, (firsts_of_nodup distinct fun _ _ => List.not_mem_nil).1] at fields
  exact ⟨distinct, fun entry listed =>
    ⟨(headed entry listed).2, List.flatMap_eq_nil_iff.mp fields entry listed⟩⟩

/-- A declaration set without problems declares no function twice, and every signature resolves. -/
theorem functions_of_clean (clean : functionProblems modules = []) :
    ((declaredFunctions modules).map functionIdOf).Nodup ∧ ∀ entry ∈ declaredFunctions modules,
      ((structUniverse modules).defineFunction entry.1 entry.2).2 = [] := by
  obtain ⟨distinct, each⟩ := of_remarks_eq_nil (fun _ => List.cons_ne_nil _ _) clean
  exact ⟨distinct, fun entry listed => (each entry listed).2⟩

end Universe

/-! ## Bodies -/

section Bodies

open Universe

variable {id : FunctionId} {decl : FunctionDecl} {declared : List (String × FunctionDecl)}

theorem registeredFunctions_eq (seen : List FunctionId) (declared : List (String × FunctionDecl)) :
    registeredFunctions seen declared =
      (firsts functionIdOf seen declared).map fun entry => (functionIdOf entry, entry.2) := by
  induction declared generalizing seen with
  | nil => rfl
  | cons entry rest ih =>
    simp only [registeredFunctions, firsts, ih, functionIdOf]
    split <;> simp [*]

/-- Each body is checked under a name of its own. -/
theorem nodup_checkBodies (u : Universe) (modules : List Module) :
    ((checkBodies u modules).map (·.1)).Nodup := by
  have registered : ((registeredFunctions [] (declaredFunctions modules)).map (·.1)).Nodup := by
    rw [registeredFunctions_eq, List.map_map]
    exact nodup_firsts
  rw [List.Nodup, List.pairwise_map] at registered ⊢
  refine List.Pairwise.filterMap _ ?_ registered
  rintro ⟨id, decl⟩ ⟨other, decl'⟩ differ body walked body' walked'
  obtain ⟨_, _, rfl⟩ := Option.map_eq_some_iff.mp walked
  obtain ⟨_, _, rfl⟩ := Option.map_eq_some_iff.mp walked'
  exact differ

/-- A body is checked for the first declaration of each name. -/
theorem mem_registeredFunctions_iff :
    (id, decl) ∈ registeredFunctions [] declared ↔
      ∃ module, declared.find? (functionIdOf · = id) = some (module, decl) := by
  rw [registeredFunctions_eq, List.mem_map]
  constructor
  · rintro ⟨entry, listed, same⟩
    obtain ⟨rfl, rfl⟩ := Prod.mk.inj same
    exact ⟨entry.1, (find?_firsts List.not_mem_nil).symm.trans (find?_of_mem nodup_firsts listed)⟩
  · rintro ⟨module, found⟩
    have named : functionIdOf (module, decl) = id := name_of_find? found
    exact ⟨_, List.mem_of_find?_eq_some ((find?_firsts List.not_mem_nil).trans found),
      by rw [named]⟩

end Bodies

end Custody
