import Custody.Proofs.Types.WellFormed
/-!
# Fields under substitution

The checker finds the fields of a struct in a generic body, where the arguments of the struct
mention the parameters of the body. An execution finds them at the arguments with which the body was
called. Either way round, substituting in the arguments and substituting in the fields, the types
are the same: a field mentions no parameter but those of its struct, so the first substitution
leaves none of them standing.
-/

namespace Custody

variable {modules : List Module} {struct : StructDef} {types : List Ty}

/-- What a written struct denotes when it is met in the running function. -/
theorem Exec.resolveStruct_eq {setup : Setup} {written : StructExpr} {m : Machine}
    {tag : StructTag}
    (resolved : setup.program.types.resolveStruct
      m.current.function.module m.current.typeParams written = .ok tag) :
    Exec.resolveStruct setup written m = .ok (tag.subst m.current.typeArgs) m := by
  have opened : Exec.resolveStruct setup written m = (Exec.resolved
      (setup.program.types.resolveStruct m.current.function.module m.current.typeParams written) >>=
      fun tag => pure (tag.subst m.current.typeArgs) : Exec StructTag) m := rfl
  rw [opened, resolved]
  rfl

namespace Universe

/-- Substitution commutes with taking the fields of an instantiation, all of them or one, because
substitutions compose where every parameter is in range. So the fields that are found at run time,
where a written struct denotes its instance at the type arguments of the running function, are the
instances of the fields that were found when the body was checked. -/
theorem instantiation_commutes (modules : List Module) :
    (∀ (ty : Ty) (args types : List Ty), ty.paramsBelow args.length = true →
      (ty.subst args).subst types = ty.subst (args.map (·.subst types))) ∧
    (∀ (tag : StructTag) (types : List Ty),
      (∀ struct ∈ (build modules).1.struct? tag.id, tag.args.length = struct.typeParams.length) →
        (build modules).1.instantiateFields? (tag.subst types) =
          ((build modules).1.instantiateFields? tag).map
          (·.map fun field => (field.1, field.2.subst types)) ∧
        ∀ field, (build modules).1.fieldType? (tag.subst types) field =
          ((build modules).1.fieldType? tag field).map (·.subst types)) ∧
    ∀ (setup : Setup) (m : Machine) (written : StructExpr) (tag : StructTag),
      setup.program.types = (build modules).1 →
      (build modules).1.resolveStruct m.current.function.module m.current.typeParams
      written = .ok tag → ∃ instantiated fields, Exec.resolveStruct setup written m = .ok
      instantiated m ∧
        (build modules).1.instantiateFields? tag = some fields ∧
        (build modules).1.instantiateFields? instantiated =
          some (fields.map fun field => (field.1, field.2.subst m.current.typeArgs)) := by
  have commutes : ∀ {tag : StructTag} {struct : StructDef} (types : List Ty),
      (build modules).1.struct? tag.id = some struct → tag.args.length = struct.typeParams.length →
      (build modules).1.instantiateFields? (tag.subst types) =
        some ((struct.fieldsAt tag.args).map fun field => (field.1, field.2.subst types)) := by
    intro tag struct types found arity
    have fields := fieldsAt_substAll (fields_plain_of_build found) (Nat.le_of_eq arity.symm) types
    simp [instantiateFields?, StructTag.subst, found, fields]
  refine ⟨fun ty args types inRange => ty.subst_subst types inRange, fun tag types arity =>
    ⟨?_, fun field => ?_⟩, ?_⟩
  · cases found : (build modules).1.struct? tag.id with
    | none => simp [instantiateFields?, StructTag.subst, found]
    | some struct =>
      rw [commutes types found (arity struct found)]
      simp [instantiateFields?, found]
  · cases found : (build modules).1.struct? tag.id with
    | none => simp [fieldType?, StructTag.subst, found]
    | some struct =>
      cases placed : struct.fieldIndex? field with
      | none => simp [fieldType?, StructTag.subst, found, placed]
      | some index =>
        cases here : struct.fields[index]? with
        | none => simp [fieldType?, StructTag.subst, found, placed, here]
        | some entry =>
          have plain := fields_plain_of_build found entry (List.mem_of_getElem? here)
          have composed := subst_subst (Nat.le_of_eq (arity struct found).symm) types entry.2 plain
          simp [fieldType?, StructTag.subst, found, placed, here, Ty.substAll_eq_map, composed]
  · intro setup m written tag same resolved
    obtain ⟨⟨struct, found, arity⟩, _⟩ := isPlain_struct_iff.mp (isPlain_resolveStruct resolved)
    refine ⟨tag.subst m.current.typeArgs, struct.fieldsAt tag.args,
      Exec.resolveStruct_eq (same ▸ resolved), ?_, commutes _ found arity.symm⟩
    simp [instantiateFields?, found]

/-- The program, with no round of a loop. -/
def inn : Setup := { program := programOf lodgings, loopBound := 0 }

/-- A function that runs with an integer and a signer for its two parameters. -/
def lodger : Machine :=
  .start { function := ⟨"Inn", "enter"⟩, typeParams := [{ name := "S" }, { name := "T" }]
           typeArgs := [.u64, .signer] } [] ∅

theorem lodger_finds_instances :
    (∃ instantiated fields,
      Exec.resolveStruct inn { name := "Room", args := [.param "T", .vector (.param "S")] } lodger =
        .ok instantiated lodger ∧
      (build lodgings).1.instantiateFields?
      ⟨⟨"Inn", "Room"⟩, [.param 1 "T", .vector (.param 0 "S")]⟩ =
        some fields ∧
      (build lodgings).1.instantiateFields? instantiated =
        some (fields.map fun field => (field.1, field.2.subst [.u64, .signer]))) ∧
    (build lodgings).1.fieldType? ⟨⟨"Inn", "Room"⟩, [.signer, .vector .u64]⟩ "guest" =
      some ((Ty.param 1 "T").subst [.u64, .signer]) ∧
    ((Ty.vector (.param 1 "B")).subst [.param 1 "T", .vector (.param 0 "S")]).subst
    [.u64, .signer] =
      (Ty.vector (.param 1 "B")).subst [.signer, .vector .u64] := by
  obtain ⟨composes, commutes, met⟩ := instantiation_commutes lodgings
  refine ⟨met inn lodger { name := "Room", args := [.param "T", .vector (.param "S")] } _ rfl rfl,
    ?_, composes _ _ _ (by decide)⟩
  have arity : ∀ struct ∈ (build lodgings).1.struct? ⟨"Inn", "Room"⟩,
      2 = struct.typeParams.length := by
    decide +kernel
  have found : (build lodgings).1.fieldType?
      ⟨⟨"Inn", "Room"⟩, [.param 1 "T", .vector (.param 0 "S")]⟩ "guest" =
      some (.param 1 "T") := by
    decide +kernel
  have guest := (commutes
    ⟨⟨"Inn", "Room"⟩, [.param 1 "T", .vector (.param 0 "S")]⟩ [.u64, .signer] arity).2 "guest"
  rw [found] at guest
  exact guest

end Universe

end Custody
