import Custody.Proofs.Types.Declared
/-!
# Well-formed universes

If building a universe finds no problem, what it registers is what is written, declaration by
declaration, and every type in it is in order: the structs inside it are registered and have their
number of arguments, its parameters are those of its owner under their own names, and a reference is
at most the whole type of a parameter or result. Names within one declaration differ.
-/

namespace Custody

variable {u other : Universe} {params : List TypeParam} {module : String} {decl : StructDecl}
  {ty part : Ty} {top : Bool} {type : TypeExpr} {modules : List Module}

namespace Universe

/-! ## Types -/

/-- The type is in order where the given parameters are in scope. References may be the whole type
if `top`, and stand nowhere inside it. -/
structure WellFormed (u : Universe) (params : List TypeParam) (top : Bool) (ty : Ty) : Prop where
  structs : ∀ id args, (Ty.struct id args).PartOf ty →
    ∃ struct, u.struct? id = some struct ∧ struct.typeParams.length = args.length
  params : NamesParams params ty
  refs : ∀ mutable inner, (Ty.ref mutable inner).PartOf ty → top = true ∧ ty = .ref mutable inner

/-- A part of the type of a binding is plain unless it is the whole. -/
theorem isPlain_of_partOf_bindable {arity : Nat} (bindable : u.isBindable arity ty = true)
    (inside : part.PartOf ty) : part = ty ∨ u.isPlain arity part = true := by
  cases ty with
  | ref mutable inner =>
    cases inside with
    | whole => exact .inl rfl
    | referent inside => exact .inr (isPlain_of_partOf inside bindable)
  | _ => exact .inr (isPlain_of_partOf inside (isPlain_of_isBindable bindable rfl))

/-- A written type that resolves denotes a type that is in order. -/
theorem wellFormed_resolveAt (resolved : u.resolveAt module params top type = .ok ty) :
    u.WellFormed params top ty where
  structs id args inside := by
    have plain : u.isPlain params.length (.struct id args) = true := by
      obtain rfl | plain := isPlain_of_partOf_bindable (isBindable_resolveAt resolved) inside
      · exact isPlain_of_isBindable (isBindable_resolveAt resolved) rfl
      · exact plain
    exact (isPlain_struct_iff.mp plain).1
  params := (scoped_resolve type (resolve_of_resolveAt resolved)).2
  refs mutable inner inside := by
    cases top with
    | false => cases isPlain_of_partOf inside (isPlain_resolveAt resolved)
    | true =>
      obtain same | plain := isPlain_of_partOf_bindable (isBindable_resolveAt resolved) inside
      · exact ⟨rfl, same.symm⟩
      · cases plain

theorem wellFormed_unit : u.WellFormed params top .unit := by
  constructor <;>
    (intro _ _ inside
     cases inside)

/-! ## Resolution in the finished universe -/

/-- While the universe is built, types are resolved against headers and against structs alone, with
the same result. -/
theorem resolveAt_outline (modules : List Module) :
    (outline modules).resolveAt = (build modules).1.resolveAt := by
  have alike : ∀ id count, (outline modules).checkArity id count = (build modules).1.checkArity
      id count := by
    intro id count
    have here := sameArities_outline modules id
    cases found : (outline modules).struct? id <;> cases found' : (build modules).1.struct? id <;>
      simp_all [checkArity]
  funext module params top type
  exact resolveAt_congr alike module params top type

theorem resolveAt_structUniverse (modules : List Module) :
    (structUniverse modules).resolveAt = (build modules).1.resolveAt := by
  funext module params top type
  exact (resolveAt_congr (checkArity_congr (structs_build modules)) module params top type).symm

theorem denotes_congr (same : u.resolveAt = other.resolveAt) : u.Denotes = other.Denotes := by
  funext module params top declared written
  rw [Denotes, Denotes, same]

/-! ## Names -/

theorem nodup_of_repeatedNames {seen names : List String} (none : repeatedNames seen names = []) :
    names.Nodup := by
  have remarked : repeatedNames seen names = remarks id (fun _ => []) (fun name => [name])
      seen names := by
    clear none
    induction names generalizing seen with
    | nil => rfl
    | cons name names ih =>
      by_cases again : name ∈ seen <;> simp [repeatedNames, remarks, again, ih]
  rw [remarked] at none
  have distinct := (of_remarks_eq_nil (fun _ => List.cons_ne_nil _ _) none).1
  rwa [List.map_id] at distinct

theorem nodup_of_typeParamFaults {location : Location}
    (clean : typeParamFaults location params = []) : (params.map (·.name)).Nodup :=
  nodup_of_repeatedNames (List.map_eq_nil_iff.mp clean)

/-- Fields without a problem are as they are written. -/
theorem resolveFields_of_clean {seen : List String} {fields : List TypedName}
    (clean : (u.resolveFields module decl seen fields).2 = []) :
    List.Forall₂ (u.Denotes module decl.typeParams false)
    (u.resolveFields module decl seen fields).1
      fields := by
  induction fields generalizing seen with
  | nil => exact .nil
  | cons field rest ih =>
    by_cases again : field.name ∈ seen
    · simp [resolveFields, again] at clean
    · cases resolved : u.resolveAt module decl.typeParams false field.type with
      | error fault => simp [resolveFields, again, resolved] at clean
      | ok ty =>
        simp only [resolveFields, again, if_false, resolved] at clean ⊢
        exact .cons ⟨rfl, resolved⟩ (ih clean)

end Universe

/-! ## Definitions -/

/-- The definition is as written in the module, and in order. -/
structure StructDef.Renders (u : Universe) (module : String) (decl : StructDecl)
    (struct : StructDef) : Prop where
  id : struct.id = ⟨module, decl.name⟩
  typeParams : struct.typeParams = decl.typeParams
  abilities : struct.abilities = decl.abilities
  fields : List.Forall₂ (u.Denotes module decl.typeParams false) struct.fields decl.fields
  typeParams_nodup : (struct.typeParams.map (·.name)).Nodup
  fields_nodup : (struct.fields.map (·.1)).Nodup
  fields_wellFormed : ∀ field ∈ struct.fields, u.WellFormed struct.typeParams false field.2

/-- The signature is as written in the module, and in order. -/
structure Signature.Renders (u : Universe) (module : String) (decl : FunctionDecl)
    (signature : Signature) : Prop where
  id : signature.id = ⟨module, decl.name⟩
  typeParams : signature.typeParams = decl.typeParams
  acquires : signature.acquires = decl.acquires
  params : List.Forall₂ (u.Denotes module decl.typeParams true) signature.params decl.params
  ret : signature.ret = .unit ∧ decl.ret = none ∨
    ∃ type ∈ decl.ret, u.resolveAt module decl.typeParams true type = .ok signature.ret
  typeParams_nodup : (signature.typeParams.map (·.name)).Nodup
  params_wellFormed : ∀ param ∈ signature.params, u.WellFormed signature.typeParams true param.2
  ret_wellFormed : u.WellFormed signature.typeParams true signature.ret

namespace Universe

/-- Types that are as written are in order. -/
theorem wellFormed_of_denotes {declared : List (String × Ty)} {written : List TypedName}
    (denotes : List.Forall₂ (u.Denotes module params top) declared written) :
    ∀ entry ∈ declared, u.WellFormed params top entry.2 := by
  intro entry listed
  obtain ⟨_, _, _, resolved⟩ := exists_of_forall₂ denotes entry listed
  exact wellFormed_resolveAt resolved

section Clean

variable (clean : (build modules).2 = [])

include clean

theorem renders_struct {entry : String × StructDecl} (listed : entry ∈ declaredStructs modules) :
    ∃ struct, (build modules).1.struct? (structIdOf entry) = some struct ∧
      struct.Renders (build modules).1 entry.1 entry.2 := by
  obtain ⟨distinct, resolved⟩ := structs_of_clean (problems_of_clean clean).1
  obtain ⟨headed, fieldsClean⟩ := resolved entry listed
  have fields : List.Forall₂ ((build modules).1.Denotes entry.1 entry.2.typeParams false)
      ((outline modules).defineStruct entry.1 entry.2).1.fields entry.2.fields := by
    rw [← denotes_congr (resolveAt_outline modules)]
    exact resolveFields_of_clean fieldsClean
  refine ⟨((outline modules).defineStruct entry.1 entry.2).1, ?_, rfl, rfl, rfl, fields,
    nodup_of_typeParamFaults headed, (resolveFields_spec _ _ _ _ _).2, wellFormed_of_denotes fields⟩
  rw [struct?_build, Table.find?_of_mem distinct listed]
  rfl

theorem renders_function {entry : String × FunctionDecl}
    (listed : entry ∈ declaredFunctions modules) :
    ∃ signature, (build modules).1.function? (functionIdOf entry) = some signature ∧
      signature.Renders (build modules).1 entry.1 entry.2 := by
  obtain ⟨distinct, resolved⟩ := functions_of_clean (problems_of_clean clean).2
  have signatureClean := resolved entry listed
  obtain ⟨params, ret⟩ := defineFunction_spec signatureClean
  rw [denotes_congr (resolveAt_structUniverse modules)] at params
  rw [resolveAt_structUniverse] at ret
  have named := (List.append_eq_nil_iff.mp (List.append_eq_nil_iff.mp signatureClean).1).1
  refine ⟨((structUniverse modules).defineFunction entry.1 entry.2).1, ?_, rfl, rfl, rfl,
    params, ret, nodup_of_typeParamFaults named, wellFormed_of_denotes params, ?_⟩
  · rw [function?_build, Table.find?_of_mem distinct listed]
    rfl
  · obtain ⟨unit, _⟩ | ⟨_, _, resolved⟩ := ret
    · rw [unit]
      exact wellFormed_unit
    · exact wellFormed_resolveAt resolved

end Clean

/-- A universe that is built without a problem has every declared struct and function, as written
and in order, and it has no others. -/
theorem clean_universes_are_well_formed (clean : (build modules).2 = []) :
    (∀ module ∈ modules, ∀ decl ∈ module.structs, ∃ struct,
      (build modules).1.struct? ⟨module.name, decl.name⟩ = some struct ∧
        struct.Renders (build modules).1 module.name decl) ∧
    (∀ module ∈ modules, ∀ decl ∈ module.functions, ∃ signature,
      (build modules).1.function? ⟨module.name, decl.name⟩ = some signature ∧
        signature.Renders (build modules).1 module.name decl) ∧
    (∀ id struct, (build modules).1.struct? id = some struct →
      ∃ module ∈ modules, ∃ decl ∈ module.structs,
        id = ⟨module.name, decl.name⟩ ∧ struct.Renders (build modules).1 module.name decl) ∧
    ∀ id signature, (build modules).1.function? id = some signature →
      ∃ module ∈ modules, ∃ decl ∈ module.functions,
        id = ⟨module.name, decl.name⟩ ∧ signature.Renders (build modules).1 module.name decl := by
  have ofStruct : ∀ {entry}, entry ∈ declaredStructs modules ↔
      ∃ module ∈ modules, ∃ decl ∈ module.structs, (module.name, decl) = entry := by
    simp [declaredStructs]
  have ofFunction : ∀ {entry}, entry ∈ declaredFunctions modules ↔
      ∃ module ∈ modules, ∃ decl ∈ module.functions, (module.name, decl) = entry := by
    simp [declaredFunctions]
  refine ⟨fun module here decl listed => ?_, fun module here decl listed => ?_,
    fun id struct found => ?_, fun id signature found => ?_⟩
  · exact renders_struct clean (ofStruct.mpr ⟨module, here, decl, listed, rfl⟩)
  · exact renders_function clean (ofFunction.mpr ⟨module, here, decl, listed, rfl⟩)
  · obtain ⟨entry, declared, rfl, _⟩ := exists_of_struct? found
    have listed := List.mem_of_find?_eq_some declared
    obtain ⟨_, same, renders⟩ := renders_struct clean listed
    obtain rfl := Option.mem_unique same found
    obtain ⟨module, here, decl, written, rfl⟩ := ofStruct.mp listed
    exact ⟨module, here, decl, written, rfl, renders⟩
  · obtain ⟨entry, declared, rfl, _⟩ := exists_of_function? found
    have listed := List.mem_of_find?_eq_some declared
    obtain ⟨_, same, renders⟩ := renders_function clean listed
    obtain rfl := Option.mem_unique same found
    obtain ⟨module, here, decl, written, rfl⟩ := ofFunction.mp listed
    exact ⟨module, here, decl, written, rfl, renders⟩

/-- A struct of a later module inside a field, parameters in another order than declared, and
references around a parameter and a result. -/
def lodgings : List Module := [
  { name := "Inn"
    structs := [
      { name := "Room"
        typeParams := [{ name := "A" }, { name := "B" }]
        fields := [⟨"boxes", .vector (.struct (some "Store") "Box" [.param "B"])⟩,
          ⟨"guest", .param "A"⟩] }]
    functions := [
      { name := "enter"
        typeParams := [{ name := "S" }, { name := "T" }]
        params := [⟨"room", .ref true (.struct none "Room" [.param "T", .param "S"])⟩,
          ⟨"key", .param "S"⟩]
        ret := some (.ref false (.struct (some "Store") "Box" [.param "S"])) }] },
  { name := "Store"
    structs := [
      { name := "Box", typeParams := [{ name := "T" }], fields := [⟨"item", .param "T"⟩] }] }]

theorem lodgings_are_well_formed :
    (build lodgings).2 = [] ∧
      (∃ struct, (build lodgings).1.struct? ⟨"Inn", "Room"⟩ = some struct ∧
        struct.fields =
          [("boxes", .vector (.struct ⟨"Store", "Box"⟩ [.param 1 "B"])), ("guest", .param 0 "A")] ∧
        ∀ field ∈ struct.fields, (build lodgings).1.WellFormed struct.typeParams false field.2) ∧
      ∃ signature, (build lodgings).1.function? ⟨"Inn", "enter"⟩ = some signature ∧
        signature.ret = .ref false (.struct ⟨"Store", "Box"⟩ [.param 0 "S"]) ∧
        (build lodgings).1.WellFormed signature.typeParams true signature.ret := by
  have clean : (build lodgings).2 = [] := by decide +kernel
  obtain ⟨_, _, structs, functions⟩ := clean_universes_are_well_formed clean
  have room : ((build lodgings).1.struct? ⟨"Inn", "Room"⟩).map (·.fields) = some
      [("boxes", .vector (.struct ⟨"Store", "Box"⟩ [.param 1 "B"])), ("guest", .param 0 "A")] := by
    decide +kernel
  have enter : ((build lodgings).1.function? ⟨"Inn", "enter"⟩).map (·.ret) =
      some (.ref false (.struct ⟨"Store", "Box"⟩ [.param 0 "S"])) := by
    decide +kernel
  obtain ⟨struct, found, fields⟩ := Option.map_eq_some_iff.mp room
  obtain ⟨signature, known, ret⟩ := Option.map_eq_some_iff.mp enter
  obtain ⟨_, _, _, _, _, renders⟩ := structs _ _ found
  obtain ⟨_, _, _, _, _, signed⟩ := functions _ _ known
  exact ⟨clean, ⟨struct, found, fields, renders.fields_wellFormed⟩, signature, known, ret,
    signed.ret_wellFormed⟩

end Universe

end Custody
