import Custody.Proofs.Types.Declared
/-!
# Values of types

Canonical forms of conforming values, the types that lie along a path of field positions, and how
reading and replacing at a path go: both succeed on a conforming value along the path of its type,
and what they give conforms.
-/

namespace Custody

variable {ty : Ty} {u : Universe} {path : List Nat} {declared : List (String × Ty)} {value : Value}
  {entry : String × Ty} {values fields : List Value} {args : List Ty} {name : String} {index : Nat}

namespace Value

section Conformance

attribute [local simp] conformsTo allConformTo fieldsConformTo

/-! ## Canonical forms -/

theorem eq_bool_of_conformsTo (conforms : value.conformsTo u .bool = true) :
    ∃ flag, value = .bool flag := by
  cases value <;> simp_all [conformsTo]

theorem eq_u64_of_conformsTo (conforms : value.conformsTo u .u64 = true) :
    ∃ number, value = .u64 number := by
  cases value <;> simp_all [conformsTo]

theorem eq_address_of_conformsTo (conforms : value.conformsTo u .address = true) :
    ∃ address, value = .address address := by
  cases value <;> simp_all [conformsTo]

theorem eq_signer_of_conformsTo (conforms : value.conformsTo u .signer = true) :
    ∃ address, value = .signer address := by
  cases value <;> simp_all [conformsTo]

/-- Only references inhabit reference types. -/
theorem isRef_of_conformsTo_ref {reference : Reference}
    (conforms : (Value.ref reference).conformsTo u ty = true) : ty.isRef = true := by
  cases ty <;> simp_all [conformsTo, Ty.isRef]

theorem allConformTo_iff {elem : Ty} :
    allConformTo u elem values = true ↔ ∀ value ∈ values, value.conformsTo u elem = true := by
  induction values with
  | nil => simp [allConformTo]
  | cons value values ih => simp [allConformTo, ih]

/-- Each value conforms to the type in its position. -/
abbrev ConformAll (u : Universe) : List Value → List Ty → Prop :=
  List.Forall₂ fun value ty => value.conformsTo u ty = true

theorem fieldsConformTo_iff {types : List Ty} :
    fieldsConformTo u values types = true ↔
      ConformAll u values types := by
  induction values generalizing types with
  | nil => cases types <;> simp [fieldsConformTo]
  | cons value values ih =>
    cases types <;> simp [fieldsConformTo, ih]

/-- The inhabitants of a struct type: its tag, with a conforming value for each field. -/
theorem conformsTo_struct_iff {id : StructId} :
    value.conformsTo u (.struct id args) = true ↔
      ∃ fields declared, value = .struct ⟨id, args⟩ fields ∧
        u.instantiateFields? ⟨id, args⟩ = some declared ∧
        ConformAll u fields (declared.map (·.2)) := by
  cases value with
  | struct tag fields =>
    obtain ⟨tagId, tagArgs⟩ := tag
    constructor
    · intro conforms
      simp only [conformsTo, StructTag.ty, Bool.and_eq_true, decide_eq_true_eq, Ty.struct.injEq]
        at conforms
      obtain ⟨⟨rfl, rfl⟩, inside⟩ := conforms
      cases found : u.instantiateFields? ⟨tagId, tagArgs⟩ with
      | none => simp [found] at inside
      | some declared =>
        simp only [found] at inside
        exact ⟨fields, declared, rfl, rfl, fieldsConformTo_iff.mp inside⟩
    · rintro ⟨fields', declared, same, found, inside⟩
      obtain ⟨sameTag, rfl⟩ := Value.struct.inj same
      obtain ⟨rfl, rfl⟩ := StructTag.mk.inj sameTag
      simp only [conformsTo, StructTag.ty, decide_true, Bool.true_and, found]
      exact fieldsConformTo_iff.mpr inside
  | _ => simp [conformsTo]

/-! ## Values of plain types -/

/-- Neither made of other values nor a reference. -/
def isAtom : Value → Bool
  | .unit | .bool _ | .u8 _ | .u64 _ | .u128 _ | .address _ | .signer _ => true
  | .vector _ | .struct _ _ | .ref _ => false

section Plain

variable {p : Ty → Value → Prop} (accepted : u.Accepted)
  (atom : ∀ (ty : Ty) (value : Value), value.isAtom = true → p ty value)
  (vector : ∀ (elem : Ty) (items : List Value), (∀ item ∈ items, p elem item) →
    p (.vector elem) (.vector items))
  (struct : ∀ (tag : StructTag) (decl : StructDef) (fields : List Value),
    u.isPlain 0 tag.ty = true → u.struct? tag.id = some decl →
    decl.typeParams.length = tag.args.length →
    (∀ value ∈ fields, ∃ field ∈ decl.fields, p (field.2.subst tag.args) value) →
    p tag.ty (.struct tag fields))

include accepted atom vector struct

/-- What holds of atoms, and of vectors and of structs of plain types if it holds of their parts,
holds of every value of a plain type. There is no case for references. -/
theorem induction_of_plain : (value : Value) → (ty : Ty) → u.isPlain 0 ty = true →
    value.conformsTo u ty = true → p ty value
  | .vector items, ty, plain, conforms => by
    cases ty with
    | vector elem =>
      exact vector elem items fun item member =>
        induction_of_plain item elem plain (allConformTo_iff.mp conforms item member)
    | _ => simp at conforms
  | .struct tag fields, ty, plain, conforms => by
    cases ty with
    | struct id args =>
      obtain ⟨_, declared, same, instantiated, inside⟩ := conformsTo_struct_iff.mp conforms
      obtain ⟨rfl, rfl⟩ := Value.struct.inj same
      obtain ⟨⟨decl, found, count⟩, argsPlain⟩ := Universe.isPlain_struct_iff.mp plain
      have fieldsAre : declared = decl.fieldsAt args := by
        simpa [Universe.instantiateFields?, found, eq_comm] using instantiated
      subst fieldsAre
      simp only [StructDef.fieldsAt, List.map_map] at inside
      refine struct ⟨id, args⟩ decl fields plain found count fun value member => ?_
      obtain ⟨_, listed, here⟩ := exists_of_forall₂ inside value member
      obtain ⟨field, declared, rfl⟩ := List.mem_map.mp listed
      have fieldPlain := accepted.fields_plain found field declared
      exact ⟨field, declared, induction_of_plain value _
        (Universe.isPlain_subst (Nat.le_of_eq count) argsPlain _ fieldPlain) here⟩
    | _ => simp at conforms
  | .ref reference, ty, plain, conforms => by
    cases ty with
    | ref mutable inner => cases plain
    | _ => simp at conforms
  | .unit, _, _, _ | .bool _, _, _, _ | .u8 _, _, _, _ | .u64 _, _, _, _ | .u128 _, _, _, _
  | .address _, _, _, _ | .signer _, _, _, _ => atom _ _ rfl

end Plain

end Conformance

end Value

/-! ## Paths -/

namespace Universe

/-- The type at a path of field positions below a type. -/
def typeAt? (u : Universe) : Ty → List Nat → Option Ty
  | ty, [] => some ty
  | .struct id args, index :: path =>
    match u.instantiateFields? ⟨id, args⟩ with
    | some declared =>
      match declared[index]? with
      | some field => typeAt? u field.2 path
      | none => none
    | none => none
  | _, _ :: _ => none

/-- A path leads on only where the type is a struct that has a field at the first step. -/
theorem field_of_typeAt? {part : Ty} (reached : u.typeAt? ty (index :: path) = some part) :
    ∃ id args declared entry, ty = .struct id args ∧
      u.instantiateFields? ⟨id, args⟩ = some declared ∧
      declared[index]? = some entry ∧ u.typeAt? entry.2 path = some part := by
  cases ty with
  | struct id args =>
    unfold typeAt? at reached
    split at reached
    · rename_i declared instantiated
      split at reached
      · rename_i entry here
        exact ⟨id, args, declared, entry, rfl, instantiated, here, reached⟩
      · cases reached
    · cases reached
  | _ => simp [typeAt?] at reached

theorem typeAt?_append {middle : Ty} (rest : List Nat) (reached : u.typeAt? ty path = some middle) :
    u.typeAt? ty (path ++ rest) = u.typeAt? middle rest := by
  induction path generalizing ty with
  | nil =>
    obtain rfl := Option.some.inj reached
    rfl
  | cons index path ih =>
    obtain ⟨id, args, declared, entry, rfl, instantiated, here, below⟩ := field_of_typeAt? reached
    simp only [List.cons_append, typeAt?, instantiated, here]
    exact ih below

end Universe

namespace Value

section Paths

/-- A conforming struct has a conforming field wherever its type has one. -/
theorem field_of_forall₂
    (conform : ConformAll u fields (declared.map (·.2))) (found : declared[index]? = some entry) :
    ∃ field, fields[index]? = some field ∧ field.conformsTo u entry.2 = true := by
  have length : fields.length = declared.length := by simpa using conform.length_eq
  obtain ⟨within, same⟩ := List.getElem?_eq_some_iff.mp found
  have within' : index < fields.length := length ▸ within
  refine ⟨fields[index], List.getElem?_eq_getElem within', ?_⟩
  have here := List.Forall₂.get conform within' (by simpa using within)
  simpa [same] using here

theorem descend_conformsTo {part : Ty} (conforms : value.conformsTo u ty = true)
    (reached : u.typeAt? ty path = some part) :
    ∃ found, value.descend path = .ok found ∧ found.conformsTo u part = true := by
  induction path generalizing value ty with
  | nil =>
    obtain rfl := Option.some.inj reached
    exact ⟨value, by unfold descend; rfl, conforms⟩
  | cons index path ih =>
    obtain ⟨id, args, declared, entry, rfl, instantiated, here, onward⟩ :=
      Universe.field_of_typeAt? reached
    obtain ⟨fields, declared', rfl, instantiated', inside⟩ := conformsTo_struct_iff.mp conforms
    obtain rfl := Option.mem_unique instantiated' instantiated
    obtain ⟨field, present, fieldConforms⟩ := field_of_forall₂ inside here
    obtain ⟨found, below, foundConforms⟩ := ih fieldConforms onward
    exact ⟨found, by simp [descend, present, below], foundConforms⟩

/-- Setting one field of a conforming struct to a conforming value keeps it conforming. -/
theorem forall₂_set {replaced : Value}
    (conform : ConformAll u fields (declared.map (·.2))) (found : declared[index]? = some entry)
    (conforms : replaced.conformsTo u entry.2 = true) :
    ConformAll u (fields.set index replaced) (declared.map (·.2)) := by
  induction declared generalizing fields index with
  | nil => simp at found
  | cons head rest ih =>
    obtain _ | ⟨headConforms, restConform⟩ := conform
    cases index with
    | zero =>
      obtain rfl := Option.some.inj found
      exact .cons conforms restConform
    | succ index => exact .cons headConforms (ih restConform found)

theorem replaceAt_conformsTo {new : Value} {part : Ty} (conforms : value.conformsTo u ty = true)
    (reached : u.typeAt? ty path = some part) (newConforms : new.conformsTo u part = true) :
    ∃ changed, value.replaceAt path new = .ok changed ∧ changed.conformsTo u ty = true := by
  induction path generalizing value ty with
  | nil =>
    obtain rfl := Option.some.inj reached
    exact ⟨new, by unfold replaceAt; rfl, newConforms⟩
  | cons index path ih =>
    obtain ⟨id, args, declared, entry, rfl, instantiated, here, onward⟩ :=
      Universe.field_of_typeAt? reached
    obtain ⟨fields, declared', rfl, instantiated', inside⟩ := conformsTo_struct_iff.mp conforms
    obtain rfl := Option.mem_unique instantiated' instantiated
    obtain ⟨field, present, fieldConforms⟩ := field_of_forall₂ inside here
    obtain ⟨changed, below, changedConforms⟩ := ih fieldConforms onward
    refine ⟨.struct ⟨id, args⟩ (fields.set index changed), ?_, ?_⟩
    · simp only [replaceAt, present, below]
      rfl
    · exact conformsTo_struct_iff.mpr
        ⟨_, declared', rfl, instantiated, forall₂_set inside here changedConforms⟩

end Paths

end Value

/-! ## Fields by name -/

namespace StructDef

theorem lookup_eq_findIdx? {α : Type} (fields : List (String × α)) (name : String) :
    fields.lookup name =
      (fields.findIdx? (·.1 = name)).bind fun index => (fields[index]?).map (·.2) := by
  induction fields with
  | nil => rfl
  | cons head rest ih =>
    obtain ⟨other, value⟩ := head
    by_cases same : other = name
    · subst same
      simp [List.findIdx?_cons]
    · have differs : (name == other) = false := by simpa using fun equal => same equal.symm
      simp only [List.lookup_cons, differs, ih, List.findIdx?_cons, same,
        decide_false, Bool.false_eq_true, if_false, Option.bind_map]
      rfl

/-- Instantiation keeps the names of the fields, so it keeps their positions. -/
theorem findIdx?_fieldsAt (struct : StructDef) (args : List Ty) (name : String) :
    (struct.fieldsAt args).findIdx? (·.1 = name) = struct.fieldIndex? name := by
  simp [fieldsAt, fieldIndex?, List.findIdx?_map, Function.comp_def]

/-- The type of a field of an instantiation stands at the position of the field. -/
theorem getElem?_fieldsAt_of_lookup {struct : StructDef}
    (found : (struct.fieldsAt args).lookup name = some ty) :
    ∃ index, struct.fieldIndex? name = some index ∧
      (struct.fieldsAt args)[index]? = some (name, ty) := by
  rw [lookup_eq_findIdx?, findIdx?_fieldsAt] at found
  obtain ⟨index, position, entry⟩ := Option.bind_eq_some_iff.mp found
  obtain ⟨⟨other, ty'⟩, present, rfl⟩ := Option.map_eq_some_iff.mp entry
  refine ⟨index, position, ?_⟩
  rw [← findIdx?_fieldsAt struct args, List.findIdx?_eq_some_iff_getElem] at position
  obtain ⟨within, named, _⟩ := position
  rw [List.getElem?_eq_getElem within] at present
  have same : other = name := by
    have equal := Option.some.inj present
    simpa [equal] using named
  rw [List.getElem?_eq_getElem within, present, same]

theorem fieldType?_eq_some {tag : StructTag} (found : u.fieldType? tag name = some ty) :
    ∃ struct index, u.struct? tag.id = some struct ∧ struct.fieldIndex? name = some index ∧
      ((struct.fieldsAt tag.args)[index]?).map (·.2) = some ty := by
  simp only [Universe.fieldType?, Option.bind_eq_bind, Option.bind_eq_some_iff] at found
  obtain ⟨struct, declared, index, position, entry, present, same⟩ := found
  refine ⟨struct, index, declared, position, ?_⟩
  simpa [fieldsAt, present] using same

end StructDef

end Custody
