import Mathlib.Data.List.Forall2
import Custody.Proofs.Types.Building
import Custody.Proofs.Types.Plain
/-!
# What acceptance says of declarations

In an accepted declaration set the fields of structs have plain types and different names, the types
in signatures are those of bindings, and every function that an execution can reach has a signature
against which its body was checked without a problem.
-/

namespace Custody

open Universe

variable {modules : List Module} {id : FunctionId} {decl : FunctionDecl} {module : String}
  {u other types : Universe} {signature : Signature} {program : Program}

theorem exists_of_forall₂ {α β : Type} {R : α → β → Prop} {left : List α} {right : List β}
    (each : List.Forall₂ R left right) : ∀ a ∈ left, ∃ b ∈ right, R a b := by
  induction each with
  | nil => simp
  | cons here _ ih =>
    refine List.forall_mem_cons.mpr ⟨⟨_, List.mem_cons_self, here⟩, fun a member => ?_⟩
    exact (ih a member).imp fun _ found => found.imp_left (List.mem_cons_of_mem _)

namespace Universe

/-- What the definitions of an accepted declaration set are held to. -/
structure Accepted (u : Universe) : Prop where
  fields_plain : ∀ {id struct}, u.struct? id = some struct → ∀ field ∈ struct.fields,
    u.isPlain struct.typeParams.length field.2 = true
  fields_nodup : ∀ {id struct}, u.struct? id = some struct → (struct.fields.map (·.1)).Nodup
  fields_sound : ∀ {id struct}, u.struct? id = some struct → ∀ field ∈ struct.fields,
    u.fieldFaults struct field = []
  struct_id : ∀ {id struct}, u.struct? id = some struct → struct.id = id
  function_id : ∀ {id signature}, u.function? id = some signature → signature.id = id
  params_bindable : ∀ {id signature}, u.function? id = some signature →
    ∀ param ∈ signature.params, u.isBindable signature.typeParams.length param.2 = true
  ret_bindable : ∀ {id signature}, u.function? id = some signature →
    u.isBindable signature.typeParams.length signature.ret = true

/-! ## Plainness looks at the number of parameters only -/

/-- Both universes declare the same structs with the same number of parameters. -/
def SameArities (u other : Universe) : Prop :=
  ∀ id, (u.struct? id).map (·.typeParams.length) = (other.struct? id).map (·.typeParams.length)

section Arities

variable {arity : Nat}

mutual

theorem SameArities.isPlain_eq (same : SameArities u other) :
    (ty : Ty) → u.isPlain arity ty = other.isPlain arity ty
  | .param _ _ | .ref _ _ => rfl
  | .vector elem => SameArities.isPlain_eq same elem
  | .struct id args => by
    have here := same id
    cases found : u.struct? id <;> cases found' : other.struct? id <;>
      simp_all [isPlain, SameArities.arePlain_eq same args]
  | .unit | .bool | .u8 | .u64 | .u128 | .address | .signer => rfl

theorem SameArities.arePlain_eq (same : SameArities u other) :
    (types : List Ty) → u.arePlain arity types = other.arePlain arity types
  | [] => rfl
  | ty :: types => by
    simp only [arePlain, SameArities.isPlain_eq same ty, SameArities.arePlain_eq same types]

end

theorem SameArities.isBindable_eq (same : SameArities u other) (ty : Ty) :
    u.isBindable arity ty = other.isBindable arity ty := by
  cases ty with
  | ref mutable inner => exact same.isPlain_eq inner
  | _ => exact same.isPlain_eq _

end Arities

/-! ## Structs -/

theorem sameArities_of_structs (same : u.structs = other.structs) : SameArities u other := by
  intro id
  simp [struct?, same]

/-- Headers have the type parameters of the definitions. -/
theorem sameArities_outline (modules : List Module) :
    SameArities (outline modules) (build modules).1 := by
  intro id
  rw [struct?_outline, struct?_build, Option.map_map, Option.map_map]
  rfl

/-- Resolved fields are plain and have different names. -/
theorem resolveFields_spec (u : Universe) (module : String) (decl : StructDecl)
    (fields : List TypedName) (seen : List String) :
    (∀ field ∈ (u.resolveFields module decl seen fields).1,
      field.1 ∉ seen ∧ u.isPlain decl.typeParams.length field.2 = true) ∧
    ((u.resolveFields module decl seen fields).1.map (·.1)).Nodup := by
  induction fields generalizing seen with
  | nil => exact ⟨fun _ member => (nomatch member), List.nodup_nil⟩
  | cons field rest ih =>
    by_cases again : field.name ∈ seen
    · simpa only [resolveFields, again, if_true] using ih seen
    · obtain ⟨plain, nodup⟩ := ih (field.name :: seen)
      have later : ∀ other ∈ (u.resolveFields module decl (field.name :: seen) rest).1,
          other.1 ∉ seen ∧ u.isPlain decl.typeParams.length other.2 = true := fun other member =>
        ⟨fun inside => (plain other member).1 (List.mem_cons_of_mem _ inside),
          (plain other member).2⟩
      cases resolved : u.resolveAt module decl.typeParams false field.type with
      | error fault =>
        simpa only [resolveFields, again, if_false, resolved] using ⟨later, nodup⟩
      | ok ty =>
        simp only [resolveFields, again, if_false, resolved, List.map_cons, List.nodup_cons]
        refine ⟨?_, ?_, nodup⟩
        · intro other member
          rcases List.mem_cons.mp member with rfl | member
          · exact ⟨again, isPlain_resolveAt resolved⟩
          · exact later other member
        · intro member
          obtain ⟨other, inside, same⟩ := List.mem_map.mp member
          exact (plain other inside).1 (same ▸ List.mem_cons_self)

/-- Fields that are registered are plain, whatever else is wrong. -/
theorem fields_plain_of_build {id : StructId} {struct : StructDef}
    (found : (build modules).1.struct? id = some struct) :
    ∀ field ∈ struct.fields, (build modules).1.isPlain struct.typeParams.length field.2 = true := by
  intro field member
  obtain ⟨entry, _, _, rfl⟩ := exists_of_struct? found
  rw [← (sameArities_outline modules).isPlain_eq]
  exact ((resolveFields_spec _ entry.1 entry.2 entry.2.fields []).1 field member).2

/-! ## Functions -/

theorem resolveAt_of_clean {params : List TypeParam} {location : Location} {type : TypeExpr}
    (clean : (u.resolveInSignature module params location type).2 = []) :
    u.resolveAt module params true type =
      .ok (u.resolveInSignature module params location type).1 := by
  cases resolved : u.resolveAt module params true type with
  | error fault => simp [resolveInSignature, resolved] at clean
  | ok ty => simp [resolveInSignature, resolved]

/-- What is declared has the name and the type that are written. -/
def Denotes (u : Universe) (module : String) (params : List TypeParam) (top : Bool)
    (declared : String × Ty) (written : TypedName) : Prop :=
  declared.1 = written.name ∧ u.resolveAt module params top written.type = .ok declared.2

/-- Signatures without a problem are as they are written. -/
theorem defineFunction_spec (clean : (u.defineFunction module decl).2 = []) :
    List.Forall₂ (u.Denotes module decl.typeParams true) (u.defineFunction module decl).1.params
    decl.params ∧
      ((u.defineFunction module decl).1.ret = .unit ∧ decl.ret = none ∨
        ∃ type ∈ decl.ret,
          u.resolveAt module decl.typeParams true type = .ok
          (u.defineFunction module decl).1.ret) := by
  simp only [defineFunction, List.append_eq_nil_iff, List.flatMap_eq_nil_iff,
    List.forall_mem_map] at clean
  obtain ⟨⟨_, paramsClean⟩, retClean⟩ := clean
  constructor
  · simp only [defineFunction, List.map_map, List.forall₂_map_left_iff, List.forall₂_same]
    exact fun param listed => ⟨rfl, resolveAt_of_clean (paramsClean param listed)⟩
  · simp only [defineFunction]
    cases written : decl.ret with
    | none => exact .inl ⟨rfl, rfl⟩
    | some type =>
      simp only [written] at retClean
      exact .inr ⟨type, rfl, resolveAt_of_clean retClean⟩

end Universe

theorem function?_cons_of_eq {module : Module} {rest : List Module}
    (same : module.name = id.module) :
    Program.function? ⟨types, module :: rest⟩ id =
      module.functions.find? (·.name = id.name) := by
  simp [Program.function?, Program.module?, Module.function?, same]

theorem function?_cons_of_ne {module : Module} {rest : List Module} (types : Universe)
    (differs : module.name ≠ id.module) :
    Program.function? ⟨types, module :: rest⟩ id = Program.function? ⟨types, rest⟩ id := by
  simp [Program.function?, Program.module?, differs]

/-- The function that an execution finds under a name is the first declared under it. -/
theorem find?_of_function? (found : Program.function? ⟨types, modules⟩ id = some decl) :
    (declaredFunctions modules).find? (functionIdOf · = id) =
      some (id.module, decl) := by
  induction modules with
  | nil => simp [Program.function?, Program.module?] at found
  | cons module rest ih =>
    rw [declaredFunctions, List.flatMap_cons, List.find?_append, List.find?_map,
      Function.comp_def]
    by_cases here : module.name = id.module
    · rw [function?_cons_of_eq here] at found
      obtain ⟨owner, name⟩ := id
      subst here
      simp [functionIdOf, found]
    · rw [function?_cons_of_ne types here] at found
      have absent :
          module.functions.find? (fun decl => functionIdOf (module.name, decl) = id) = none :=
        List.find?_eq_none.mpr fun _ _ same => here (congrArg (·.module) (of_decide_eq_true same))
      rw [absent]
      exact ih found

/-- The function that an execution finds is the one whose body is checked under its name. -/
theorem mem_checkBodies_of_function? (found : Program.function? ⟨types, modules⟩ id = some decl)
    (registered : u.function? id = some signature) :
    (id, Check.runBody ⟨u, signature⟩ decl.body) ∈ checkBodies u modules := by
  have listed : (id, decl) ∈ registeredFunctions [] (declaredFunctions modules) :=
    mem_registeredFunctions_iff.mpr ⟨_, find?_of_function? found⟩
  exact List.mem_filterMap.mpr ⟨(id, decl), listed, by simp [checkFunction, registered]⟩

/-! ## Accepted programs -/

/-- What acceptance says of a function that can be executed. -/
structure Program.Checked (program : Program) (id : FunctionId) (decl : FunctionDecl)
    (signature : Signature) : Prop where
  registered : program.types.function? id = some signature
  typeParams : signature.typeParams = decl.typeParams
  params : signature.params.map (·.1) = decl.params.map (·.name)
  acquires : signature.acquires = decl.acquires
  body : (Check.runBody ⟨program.types, signature⟩ decl.body).problems = []

/-- What acceptance says of a program. -/
structure Program.Accepted (program : Program) : Prop where
  types : program.types.Accepted
  function : ∀ {id decl}, program.function? id = some decl →
    ∃ signature, program.Checked id decl signature

/-- The body of a function was checked against the signature that is registered for it. -/
theorem Program.Accepted.checked {signature : Signature}
    (accepted : program.Accepted) (found : program.function? id = some decl)
    (registered : program.types.function? id = some signature) :
    program.Checked id decl signature := by
  obtain ⟨other, checked⟩ := accepted.function found
  exact Option.mem_unique checked.registered registered ▸ checked

/-- The program of a declaration set, accepted or not. -/
def programOf (modules : List Module) : Program := ⟨(build modules).1, modules⟩

theorem check_of_clean (clean : problems modules = []) :
    check modules = .ok (programOf modules) := by
  rw [check, clean]
  rfl

theorem problems_eq_nil (accepted : check modules = .ok program) :
    problems modules = [] ∧ program = ⟨(build modules).1, modules⟩ := by
  unfold check verdict at accepted
  split at accepted
  · rename_i clean
    exact ⟨clean, (Except.ok.inj accepted).symm⟩
  · cases accepted

/-- A refusal lists everything that is wrong. -/
theorem check_eq_error_iff {faults : List Diagnostic} :
    check modules = .error faults ↔ problems modules = faults ∧ faults ≠ [] := by
  cases found : problems modules with
  | nil =>
    rw [check_of_clean found]
    constructor
    · intro refused
      cases refused
    · rintro ⟨rfl, nonempty⟩
      exact absurd rfl nonempty
  | cons first rest =>
    rw [check, found]
    constructor
    · intro refused
      exact ⟨Except.error.inj refused, Except.error.inj refused ▸ List.cons_ne_nil first rest⟩
    · rintro ⟨rfl, _⟩
      rfl

/-- Types that resolve, and struct declarations that keep their promises, are all it takes. -/
theorem Universe.accepted_of_build (unresolved : (build modules).2 = [])
    (structsClean : (build modules).1.checkStructs = []) :
    (build modules).1.Accepted := by
  have resolved := (functions_of_clean (problems_of_clean unresolved).2).2
  have arities := sameArities_of_structs (structs_build modules)
  have signed : ∀ {id signature}, (build modules).1.function? id = some signature →
      signature.id = id ∧
        (∀ param ∈ signature.params,
          (build modules).1.isBindable signature.typeParams.length param.2 = true) ∧
        (build modules).1.isBindable signature.typeParams.length signature.ret = true := by
    intro id signature found
    obtain ⟨entry, declared, named, rfl⟩ := exists_of_function? found
    obtain ⟨params, ret⟩ := defineFunction_spec
      (resolved entry (List.mem_of_find?_eq_some declared))
    refine ⟨named, fun param member => ?_, ?_⟩ <;> rw [arities.isBindable_eq]
    · obtain ⟨_, _, _, resolved⟩ := exists_of_forall₂ params param member
      exact isBindable_resolveAt resolved
    · obtain ⟨unit, _⟩ | ⟨_, _, resolved⟩ := ret
      · rw [unit]
        rfl
      · exact isBindable_resolveAt resolved
  constructor
  · exact fields_plain_of_build
  · intro id struct found
    obtain ⟨entry, _, _, rfl⟩ := exists_of_struct? found
    exact (resolveFields_spec _ entry.1 entry.2 entry.2.fields []).2
  · intro id struct found field member
    have listed : struct ∈ (build modules).1.structs.values := Table.mem_values_of_get? found
    have diagnostics := List.flatMap_eq_nil_iff.mp structsClean struct listed
    have here := List.flatMap_eq_nil_iff.mp diagnostics field member
    exact List.map_eq_nil_iff.mp here
  · intro id struct found
    obtain ⟨_, _, named, rfl⟩ := exists_of_struct? found
    exact named
  · exact fun found => (signed found).1
  · exact fun found => (signed found).2.1
  · exact fun found => (signed found).2.2

theorem accepted_types (clean : problems modules = []) : (build modules).1.Accepted := by
  simp only [problems, problemsOf, List.append_eq_nil_iff] at clean
  obtain ⟨⟨⟨unresolved, structsClean⟩, _⟩, _⟩ := clean
  exact accepted_of_build unresolved structsClean

theorem checked_function (clean : problems modules = [])
    (found : Program.function? ⟨(build modules).1, modules⟩ id = some decl) :
    ∃ signature, Program.Checked ⟨(build modules).1, modules⟩ id decl signature := by
  have registered : (build modules).1.function? id =
      some ((structUniverse modules).defineFunction id.module decl).1 := by
    rw [function?_build, find?_of_function? found]
    rfl
  have walked := mem_checkBodies_of_function? found registered
  simp only [problems, problemsOf, List.append_eq_nil_iff] at clean
  refine ⟨_, registered, rfl, ?_, rfl, ?_⟩
  · simp [defineFunction]
  · exact List.flatMap_eq_nil_iff.mp clean.1.2 _ walked

/-- Everything used of acceptance below. -/
theorem accepted_of_check (accepted : check modules = .ok program) : program.Accepted := by
  obtain ⟨clean, rfl⟩ := problems_eq_nil accepted
  exact ⟨accepted_types clean, fun found => checked_function clean found⟩

end Custody
