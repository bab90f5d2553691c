import Mathlib.Data.List.Basic
import Custody.Proofs.Types.Plain
/-!
# Larger universes

A universe may be part of a larger one, which declares all it declares and declares it alike. A
written type that the smaller one resolves the larger one resolves to the same type. Of a type that
is plain in the smaller one both say the same: its abilities, which constraints it misses, where it
has phantom parameters.
-/

namespace Custody

variable {tag : StructTag} {ty : Ty}

namespace Universe

/-- What one universe declares, the other declares alike. -/
structure Within (u other : Universe) : Prop where
  struct? : ∀ {id struct}, u.struct? id = some struct → other.struct? id = some struct
  function? : ∀ {id signature}, u.function? id = some signature → other.function? id =
    some signature

section Within

variable {u other : Universe}

/-! ## Written types -/

theorem Within.checkArity (within : u.Within other) {id : StructId} {count : Nat} {checked : Unit}
    (accepted : u.checkArity id count = .ok checked) : other.checkArity id count = .ok checked := by
  obtain ⟨struct, found, same⟩ := checkArity_eq_ok accepted
  simp only [Universe.checkArity, within.struct? found, same, if_true]

section Resolution

variable {module : String} {params : List TypeParam}

mutual

theorem Within.resolve (within : u.Within other) : (type : TypeExpr) → {ty : Ty} →
    u.resolve module params type = .ok ty → other.resolve module params type = .ok ty
  | .bool, _, resolved | .u8, _, resolved | .u64, _, resolved | .u128, _, resolved
  | .address, _, resolved | .signer, _, resolved | .param _, _, resolved => by
    rw [Universe.resolve] at resolved ⊢
    exact resolved
  | .vector elem, ty, resolved | .ref _ elem, ty, resolved => by
    rw [Universe.resolve] at resolved ⊢
    obtain ⟨inner, innerResolved, done⟩ := bind_eq_ok resolved
    rw [within.resolve elem innerResolved]
    exact done
  | .struct owner name args, ty, resolved => by
    rw [Universe.resolve] at resolved ⊢
    obtain ⟨_, arityOk, resolved⟩ := bind_eq_ok resolved
    obtain ⟨types, argsResolved, done⟩ := bind_eq_ok resolved
    rw [within.checkArity arityOk]
    show (other.resolveArgs module params args >>= _) = _
    rw [within.resolveArgs args argsResolved]
    exact done

theorem Within.resolveArgs (within : u.Within other) : (args : List TypeExpr) → {types : List Ty} →
    u.resolveArgs module params args = .ok types → other.resolveArgs module params args = .ok types
  | [], _, resolved => by
    rw [Universe.resolveArgs] at resolved ⊢
    exact resolved
  | arg :: args, types, resolved => by
    rw [Universe.resolveArgs] at resolved ⊢
    obtain ⟨raw, rawResolved, resolved⟩ := bind_eq_ok resolved
    obtain ⟨ty, checked, resolved⟩ := bind_eq_ok resolved
    obtain ⟨rest, restResolved, done⟩ := bind_eq_ok resolved
    rw [within.resolve arg rawResolved]
    show (checkRefs false raw >>= _) = _
    rw [checked]
    show (other.resolveArgs module params args >>= _) = _
    rw [within.resolveArgs args restResolved]
    exact done

end

theorem Within.resolveAt (within : u.Within other) {top : Bool} {type : TypeExpr}
    (resolved : u.resolveAt module params top type = .ok ty) :
    other.resolveAt module params top type = .ok ty := by
  obtain ⟨raw, rawResolved, checked⟩ := bind_eq_ok resolved
  simp only [Universe.resolveAt, within.resolve type rawResolved]
  exact checked

theorem Within.resolveStruct (within : u.Within other) {struct : StructExpr}
    (resolved : u.resolveStruct module params struct = .ok tag) :
    other.resolveStruct module params struct = .ok tag := by
  obtain ⟨_, arityOk, resolved⟩ := bind_eq_ok resolved
  obtain ⟨types, argsResolved, done⟩ := bind_eq_ok resolved
  simp only [Universe.resolveStruct, within.checkArity arityOk]
  show (other.resolveArgs module params struct.args >>= _) = _
  rw [within.resolveArgs struct.args argsResolved]
  exact done

end Resolution

/-! ## Plain types -/

section Plain

variable {arity : Nat}

theorem Within.abilities (within : u.Within other) (params : List AbilitySet) :
    (ty : Ty) → u.isPlain arity ty = true →
    other.abilities params ty = u.abilities params ty
  | .unit, _ | .bool, _ | .u8, _ | .u64, _ | .u128, _ | .address, _ | .signer, _ | .ref _ _, _
  | .param _ _, _ => rfl
  | .vector elem, plain => by
    simp only [Universe.abilities, within.abilities params elem plain]
  | .struct id args, plain => by
    obtain ⟨⟨struct, found, _⟩, argsPlain⟩ := isPlain_struct_iff.mp plain
    simp only [Universe.abilities, found, within.struct? found, abilitiesAll_eq_map]
    exact congrArg struct.abilitiesAt (List.map_congr_left fun arg member =>
      within.abilities params arg (arePlain_iff.mp argsPlain arg member))

theorem Within.constraintFaults (within : u.Within other) (params : List AbilitySet) :
    (ty : Ty) → u.isPlain arity ty = true →
    other.constraintFaults params ty = u.constraintFaults params ty
  | .unit, _ | .bool, _ | .u8, _ | .u64, _ | .u128, _ | .address, _ | .signer, _
  | .param _ _, _ => rfl
  | .ref _ _, impossible => by simp [isPlain] at impossible
  | .vector elem, plain => by
    simp only [Universe.constraintFaults, within.constraintFaults params elem plain]
  | .struct id args, plain => by
    obtain ⟨⟨struct, found, _⟩, argsPlain⟩ := isPlain_struct_iff.mp plain
    simp only [Universe.constraintFaults, found, within.struct? found]
    rw [argumentFaults_eq_flatMap, u.argumentFaults_eq_flatMap]
    refine List.flatMap_congr fun ⟨param, arg⟩ listed => ?_
    have member : arg ∈ args := (List.of_mem_zip listed).2
    have plain := arePlain_iff.mp argsPlain arg member
    simp only [argumentFaults,
      within.abilities params arg plain, within.constraintFaults params arg plain]

theorem Within.phantomFaults (within : u.Within other) (owner : List TypeParam) :
    (ty : Ty) → u.isPlain arity ty = true →
    other.phantomFaults owner ty = u.phantomFaults owner ty
  | .unit, _ | .bool, _ | .u8, _ | .u64, _ | .u128, _ | .address, _ | .signer, _ | .param _ _, _
  | .ref _ _, _ => rfl
  | .vector elem, plain => by
    simp only [Universe.phantomFaults, within.phantomFaults owner elem plain]
  | .struct id args, plain => by
    obtain ⟨⟨struct, found, _⟩, argsPlain⟩ := isPlain_struct_iff.mp plain
    simp only [Universe.phantomFaults, found, within.struct? found,
      phantomArgumentFaults_eq_flatMap]
    refine List.flatMap_congr fun ⟨param, arg⟩ listed => ?_
    have member : arg ∈ args := (List.of_mem_zip listed).2
    rw [within.phantomFaults owner arg (arePlain_iff.mp argsPlain arg member)]

variable (within : u.Within other)

include within

theorem Within.fieldFaults (struct : StructDef) {field : String × Ty}
    (plain : u.isPlain arity field.2 = true) :
    other.fieldFaults struct field = u.fieldFaults struct field := by
  simp only [Universe.fieldFaults, within.abilities _ field.2 plain,
    within.constraintFaults _ field.2 plain, within.phantomFaults _ field.2 plain]

/-! ## Types of bindings -/

theorem Within.abilities_of_bindable (params : List AbilitySet)
    (bindable : u.isBindable arity ty = true) :
    other.abilities params ty = u.abilities params ty := by
  cases ty with
  | ref mutable inner => rfl
  | _ => exact within.abilities params _ (isPlain_of_isBindable bindable rfl)

theorem Within.constraintFaults_of_bindable (params : List AbilitySet)
    (bindable : u.isBindable arity ty = true) :
    other.constraintFaults params ty = u.constraintFaults params ty := by
  cases ty with
  | ref mutable inner =>
    simp only [Universe.constraintFaults, within.constraintFaults params inner bindable]
  | _ => exact within.constraintFaults params _ (isPlain_of_isBindable bindable rfl)

/-! ## Fields -/

theorem Within.instantiateFields? (plain : u.isPlain arity tag.ty = true) :
    other.instantiateFields? tag = u.instantiateFields? tag := by
  obtain ⟨⟨struct, found, _⟩, _⟩ := isPlain_struct_iff.mp plain
  simp only [Universe.instantiateFields?, found, within.struct? found]

theorem Within.fieldType? (plain : u.isPlain arity tag.ty = true) (field : String) :
    other.fieldType? tag field = u.fieldType? tag field := by
  obtain ⟨⟨struct, found, _⟩, _⟩ := isPlain_struct_iff.mp plain
  simp only [Universe.fieldType?, found, within.struct? found]

end Plain

end Within

end Universe

end Custody
