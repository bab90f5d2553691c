import Custody.Machine.Entry
/-!
# Types of data

A type is plain if it is built from declared structs, each with its number of arguments, and from
parameters in scope, and mentions no reference. Written types denote plain types, or a reference to
one where references may stand. Plainness is kept by substitution, and by going to a part of the
type. Substitutions compose where every parameter is in scope, as it is in plain types.
-/

namespace Custody

variable {ty : Ty} {u : Universe} {arity : Nat} {type : TypeExpr} {top : Bool} {types : List Ty}
  {id : StructId}

namespace Ty

/-! ## Parts -/

/-- A part of a type: the type itself, or a part of what a vector holds, a struct is applied to or a
reference leads to. -/
inductive PartOf (part : Ty) : Ty → Prop where
  | whole : part.PartOf part
  | elem {elem : Ty} : part.PartOf elem → part.PartOf (.vector elem)
  | arg {id : StructId} {args : List Ty} {arg : Ty} : arg ∈ args → part.PartOf arg →
    part.PartOf (.struct id args)
  | referent {mutable : Bool} {inner : Ty} : part.PartOf inner → part.PartOf (.ref mutable inner)

/-! ## Parameters in range -/

mutual

/-- Every parameter inside stands at a position below the bound. -/
def paramsBelow (bound : Nat) : Ty → Bool
  | .param index _ => decide (index < bound)
  | .vector elem => paramsBelow bound elem
  | .ref _ inner => paramsBelow bound inner
  | .struct _ args => allParamsBelow bound args
  | .unit | .bool | .u8 | .u64 | .u128 | .address | .signer => true

/-- The same of every type. -/
def allParamsBelow (bound : Nat) : List Ty → Bool
  | [] => true
  | ty :: types => paramsBelow bound ty && allParamsBelow bound types

end

theorem allParamsBelow_iff {bound : Nat} :
    allParamsBelow bound types = true ↔ ∀ ty ∈ types, ty.paramsBelow bound = true := by
  induction types with
  | nil => simp [allParamsBelow]
  | cons ty types ih => simp [allParamsBelow, ih]

/-- Substitutions compose where none of the parameters is left standing: a parameter that was would
be taken for one of the second substitution. -/
theorem subst_subst (others : List Ty) : (ty : Ty) → ty.paramsBelow types.length = true →
    (ty.subst types).subst others = ty.subst (types.map (·.subst others))
  | .param index name, inRange => by
    have within : index < types.length := by simpa [paramsBelow] using inRange
    simp [subst, List.getElem?_eq_getElem within]
  | .vector elem, inRange => by
    simp only [subst, subst_subst others elem inRange]
  | .ref _ inner, inRange => by
    simp only [subst, subst_subst others inner inRange]
  | .struct id args, inRange => by
    simp only [subst, substAll_eq_map, List.map_map]
    exact congrArg (Ty.struct id) (List.map_congr_left fun arg member =>
      subst_subst others arg (allParamsBelow_iff.mp inRange arg member))
  | .unit, _ | .bool, _ | .u8, _ | .u64, _ | .u128, _ | .address, _ | .signer, _ => rfl

end Ty

namespace Universe

variable (u) (arity)

mutual

/-- No reference, declared structs with their number of arguments, and parameters below `arity`. -/
def isPlain : Ty → Bool
  | .param index _ => decide (index < arity)
  | .ref _ _ => false
  | .vector elem => isPlain elem
  | .struct id args =>
    (match u.struct? id with
      | some struct => decide (struct.typeParams.length = args.length)
      | none => false) && arePlain args
  | .unit | .bool | .u8 | .u64 | .u128 | .address | .signer => true

/-- Every type is plain. -/
def arePlain : List Ty → Bool
  | [] => true
  | ty :: types => isPlain ty && arePlain types

end

/-- The type of something that a name can be bound to: plain, or a reference to a plain type. -/
def isBindable : Ty → Bool
  | .ref _ inner => u.isPlain arity inner
  | ty => u.isPlain arity ty

variable {u} {arity}

theorem arePlain_iff : u.arePlain arity types = true ↔ ∀ ty ∈ types, u.isPlain arity ty = true := by
  induction types with
  | nil => simp [arePlain]
  | cons ty types ih => simp [arePlain, ih]

theorem isBindable_of_isPlain (plain : u.isPlain arity ty = true) :
    u.isBindable arity ty = true := by
  cases ty <;> simp_all [isBindable, isPlain]

theorem isPlain_of_isBindable (bindable : u.isBindable arity ty = true) (value : ty.isRef = false) :
    u.isPlain arity ty = true := by
  cases ty <;> simp_all [isBindable, Ty.isRef]

theorem isRef_of_isPlain (plain : u.isPlain arity ty = true) : ty.isRef = false := by
  cases ty <;> simp_all [isPlain, Ty.isRef]

/-- A plain struct type names a declared struct and gives it its number of plain arguments. -/
theorem isPlain_struct_iff {args : List Ty} :
    u.isPlain arity (.struct id args) = true ↔
      (∃ struct, u.struct? id = some struct ∧ struct.typeParams.length = args.length) ∧
        u.arePlain arity args = true := by
  cases found : u.struct? id <;> simp [isPlain, found]

/-- The parts of a plain type are plain. -/
theorem isPlain_of_partOf {part : Ty} (inside : part.PartOf ty)
    (plain : u.isPlain arity ty = true) : u.isPlain arity part = true := by
  induction inside with
  | whole => exact plain
  | elem _ ih => exact ih plain
  | arg member _ ih => exact ih (arePlain_iff.mp (isPlain_struct_iff.mp plain).2 _ member)
  | referent => cases plain

theorem paramsBelow_of_isPlain {bound : Nat} (enough : arity ≤ bound) :
    (ty : Ty) → u.isPlain arity ty = true → ty.paramsBelow bound = true
  | .param index name, inScope => by
    simp only [isPlain, Ty.paramsBelow, decide_eq_true_eq] at inScope ⊢
    omega
  | .ref _ _, impossible => by simp [isPlain] at impossible
  | .vector elem, elemPlain => paramsBelow_of_isPlain enough elem elemPlain
  | .struct _ _, structPlain => Ty.allParamsBelow_iff.mpr fun arg member =>
    paramsBelow_of_isPlain enough arg
      (arePlain_iff.mp (isPlain_struct_iff.mp structPlain).2 arg member)
  | .unit, _ | .bool, _ | .u8, _ | .u64, _ | .u128, _ | .address, _ | .signer, _ => rfl

mutual

theorem isValueType_eq (u : Universe) : (ty : Ty) → u.isValueType ty = u.isPlain 0 ty
  | .param _ _ => by simp [isValueType, isPlain]
  | .ref _ _ => rfl
  | .vector elem => isValueType_eq u elem
  | .struct id args => by
    cases found : u.struct? id <;> simp [isValueType, isPlain, found, areValueTypes_eq u args]
  | .unit | .bool | .u8 | .u64 | .u128 | .address | .signer => rfl

theorem areValueTypes_eq (u : Universe) : (types : List Ty) → u.areValueTypes types =
    u.arePlain 0 types
  | [] => rfl
  | ty :: types => by
    simp only [areValueTypes, arePlain, isValueType_eq u ty, areValueTypes_eq u types]

end

/-! ## Arguments of structs, one by one -/

section Arguments

variable (u : Universe) (params : List AbilitySet)

theorem abilitiesAll_eq_map (types : List Ty) :
    u.abilitiesAll params types = types.map (u.abilities params) := by
  induction types with
  | nil => rfl
  | cons ty types ih => simp [abilitiesAll, ih]

theorem argumentFaults_eq_flatMap (owner : StructId) (declared : List TypeParam) (args : List Ty) :
    u.argumentFaults params owner declared args = (declared.zip args).flatMap fun entry =>
      u.argumentFaults params owner [entry.1] [entry.2] := by
  induction declared generalizing args with
  | nil => simp [argumentFaults]
  | cons param declared ih => cases args <;> simp [argumentFaults, ih]

theorem phantomArgumentFaults_eq_flatMap (owner declared : List TypeParam) (args : List Ty) :
    u.phantomArgumentFaults owner declared args = (declared.zip args).flatMap fun entry =>
      if entry.1.phantom then [] else u.phantomFaults owner entry.2 := by
  induction declared generalizing args with
  | nil => simp [phantomArgumentFaults]
  | cons param declared ih => cases args <;> simp [phantomArgumentFaults, ih]

end Arguments

/-! ## Substitution -/

section Substitution

variable {u : Universe} {arity inner : Nat} (enough : arity ≤ types.length)
  (plain : u.arePlain inner types = true)

include enough plain

theorem isPlain_subst : (ty : Ty) → u.isPlain arity ty = true → u.isPlain inner
    (ty.subst types) = true
  | .param index name, inScope => by
    have within : index < types.length := by
      simp only [isPlain, decide_eq_true_eq] at inScope
      omega
    simp only [Ty.subst, List.getElem?_eq_getElem within, Option.getD_some]
    exact arePlain_iff.mp plain _ (List.getElem_mem within)
  | .ref _ _, impossible => nomatch impossible
  | .vector elem, elemPlain => isPlain_subst elem elemPlain
  | .struct id args, structPlain => by
    obtain ⟨⟨struct, found, count⟩, argsPlain⟩ := isPlain_struct_iff.mp structPlain
    rw [Ty.subst, Ty.substAll_eq_map, isPlain_struct_iff, List.length_map, arePlain_iff,
      List.forall_mem_map]
    exact ⟨⟨struct, found, count⟩, fun arg member =>
      isPlain_subst arg (arePlain_iff.mp argsPlain arg member)⟩
  | .unit, _ | .bool, _ | .u8, _ | .u64, _ | .u128, _ | .address, _ | .signer, _ => rfl

omit enough plain

theorem subst_subst (enough : arity ≤ types.length) (others : List Ty) (ty : Ty)
    (plain : u.isPlain arity ty = true) :
    (ty.subst types).subst others = ty.subst (types.map (·.subst others)) :=
  ty.subst_subst others (paramsBelow_of_isPlain enough ty plain)

/-- The fields at substituted arguments are the substituted fields. -/
theorem fieldsAt_substAll {struct : StructDef} {args : List Ty}
    (plain : ∀ field ∈ struct.fields, u.isPlain arity field.2 = true) (enough : arity ≤ args.length)
    (types : List Ty) :
    struct.fieldsAt (Ty.substAll types args) =
      (struct.fieldsAt args).map fun field => (field.1, field.2.subst types) := by
  simp only [StructDef.fieldsAt, List.map_map]
  refine List.map_congr_left fun field member => ?_
  simp [Ty.substAll_eq_map, subst_subst enough types field.2 (plain field member)]

/-- Substitutions into the type of a binding compose, also under a reference. -/
theorem subst_subst_of_isBindable (enough : arity ≤ types.length) (others : List Ty)
    (bindable : u.isBindable arity ty = true) :
    (ty.subst types).subst others = ty.subst (types.map (·.subst others)) := by
  cases ty with
  | ref mutable inner => simp only [Ty.subst, subst_subst enough others inner bindable]
  | _ => exact subst_subst (u := u) enough others _ bindable

theorem isBindable_subst (enough : arity ≤ types.length) (plain : u.arePlain inner types = true)
    (bindable : u.isBindable arity ty = true) : u.isBindable inner (ty.subst types) = true := by
  cases ty with
  | ref mutable referent => exact isPlain_subst enough plain referent bindable
  | _ => exact isBindable_of_isPlain (isPlain_subst enough plain _ bindable)

/-- Substituting plain types makes no reference of what was none. -/
theorem isRef_subst (enough : arity ≤ types.length) (plain : u.arePlain inner types = true)
    (bindable : u.isBindable arity ty = true) : (ty.subst types).isRef = ty.isRef := by
  cases ty with
  | ref mutable referent => rfl
  | _ => exact isRef_of_isPlain (isPlain_subst enough plain _ bindable)

end Substitution

/-! ## Written types -/

/-- What a written type denotes is plain as far as it mentions no reference. -/
structure Scoped (u : Universe) (arity : Nat) (ty : Ty) : Prop where
  plain : ty.mentionsRef = false → u.isPlain arity ty = true
  referent : ∀ mutable inner, ty = .ref mutable inner → inner.mentionsRef = false →
    u.isPlain arity inner = true

/-- Every parameter in the type is one of those that are declared, under its own name. -/
def NamesParams (params : List TypeParam) (ty : Ty) : Prop :=
  ∀ index name, (Ty.param index name).PartOf ty →
    ∃ param, params[index]? = some param ∧ param.name = name

theorem checkRefs_eq_ok {ty checked : Ty} (accepted : checkRefs top ty = .ok checked) :
    checked = ty ∧ (ty.mentionsRef = false ∨
      ∃ mutable inner, ty = .ref mutable inner ∧ top = true ∧ inner.mentionsRef = false) := by
  cases ty with
  | ref mutable inner =>
    cases top <;> cases mentions : inner.mentionsRef <;> simp [checkRefs, mentions] at accepted
    exact ⟨accepted.symm, .inr ⟨mutable, inner, rfl, rfl, mentions⟩⟩
  | _ =>
    simp only [checkRefs] at accepted
    split at accepted
    · cases accepted
    · rename_i free
      exact ⟨(Except.ok.inj accepted).symm, .inl (by simpa using free)⟩

theorem bind_eq_ok {ε α β : Type} {x : Except ε α} {f : α → Except ε β} {result : β}
    (done : (x >>= f) = .ok result) : ∃ value, x = .ok value ∧ f value = .ok result := by
  cases x with
  | error _ => cases done
  | ok value => exact ⟨value, rfl, done⟩

theorem checkArity_eq_ok {count : Nat} {checked : Unit}
    (accepted : u.checkArity id count = .ok checked) : ∃ struct, u.struct? id = some struct ∧
    struct.typeParams.length = count := by
  cases found : u.struct? id with
  | none => simp [checkArity, found] at accepted
  | some struct =>
    refine ⟨struct, rfl, ?_⟩
    by_cases same : struct.typeParams.length = count
    · exact same
    · simp [checkArity, found, same] at accepted

section Resolution

variable {u : Universe} {module : String} {params : List TypeParam}

mutual

theorem scoped_resolve : (type : TypeExpr) → {ty : Ty} →
    u.resolve module params type = .ok ty → Scoped u params.length ty ∧ NamesParams params ty
  | .bool, _, rfl | .u8, _, rfl | .u64, _, rfl | .u128, _, rfl | .address, _, rfl
  | .signer, _, rfl => ⟨⟨fun _ => rfl, fun _ _ same => nomatch same⟩, fun _ _ inside =>
    by cases inside⟩
  | .vector elem, ty, resolved => by
    simp only [resolve] at resolved
    obtain ⟨elemTy, elemResolved, done⟩ := bind_eq_ok resolved
    obtain rfl := Except.ok.inj done
    obtain ⟨denoted, named⟩ := scoped_resolve elem elemResolved
    refine ⟨⟨denoted.plain, fun _ _ same => nomatch same⟩, fun index name inside => ?_⟩
    cases inside with
    | elem inside => exact named index name inside
  | .struct owner name args, ty, resolved => by
    simp only [resolve] at resolved
    obtain ⟨_, arityOk, resolved⟩ := bind_eq_ok resolved
    obtain ⟨types, argsResolved, done⟩ := bind_eq_ok resolved
    obtain rfl := Except.ok.inj done
    obtain ⟨struct, found, count⟩ := checkArity_eq_ok arityOk
    obtain ⟨length, plain, named⟩ := arePlain_resolveArgs args argsResolved
    have structPlain : u.isPlain params.length (.struct ⟨owner.getD module, name⟩ types) = true :=
      isPlain_struct_iff.mpr ⟨⟨struct, found, count.trans length.symm⟩, plain⟩
    refine ⟨⟨fun _ => structPlain, fun _ _ same => nomatch same⟩, fun index name inside => ?_⟩
    cases inside with
    | arg listed inside => exact named _ listed index name inside
  | .param name, ty, resolved => by
    simp only [resolve] at resolved
    split at resolved
    · rename_i index found
      obtain rfl := Except.ok.inj resolved
      obtain ⟨within, same, _⟩ := List.findIdx?_eq_some_iff_getElem.mp found
      refine ⟨⟨fun _ => by simp [isPlain, within], fun _ _ same => nomatch same⟩, ?_⟩
      intro _ _ inside
      cases inside
      exact ⟨params[index], List.getElem?_eq_getElem within, by simpa using same⟩
    · cases resolved
  | .ref mutable referent, ty, resolved => by
    simp only [resolve] at resolved
    obtain ⟨inner, innerResolved, done⟩ := bind_eq_ok resolved
    obtain rfl := Except.ok.inj done
    obtain ⟨denoted, named⟩ := scoped_resolve referent innerResolved
    refine ⟨⟨fun free => by simp [Ty.mentionsRef] at free, ?_⟩, fun index name inside => ?_⟩
    · intro _ other same free
      obtain ⟨rfl, rfl⟩ := Ty.ref.inj same
      exact denoted.plain free
    · cases inside with
      | referent inside => exact named index name inside

theorem arePlain_resolveArgs : (args : List TypeExpr) → {types : List Ty} →
    u.resolveArgs module params args = .ok types →
      types.length = args.length ∧ u.arePlain params.length types = true ∧
        ∀ ty ∈ types, NamesParams params ty
  | [], _, rfl => ⟨rfl, rfl, fun _ listed => by cases listed⟩
  | arg :: args, types, resolved => by
    simp only [resolveArgs] at resolved
    obtain ⟨raw, rawResolved, resolved⟩ := bind_eq_ok resolved
    obtain ⟨ty, checked, resolved⟩ := bind_eq_ok resolved
    obtain ⟨rest, restResolved, done⟩ := bind_eq_ok resolved
    obtain rfl := Except.ok.inj done
    obtain ⟨rfl, free | ⟨_, _, _, top, _⟩⟩ := checkRefs_eq_ok checked
    · obtain ⟨denoted, named⟩ := scoped_resolve arg rawResolved
      obtain ⟨length, plain, others⟩ := arePlain_resolveArgs args restResolved
      refine ⟨by simp [length], ?_, List.forall_mem_cons.mpr ⟨named, others⟩⟩
      simp [arePlain, denoted.plain free, plain]
    · cases top

end

/-- A type written where references may stand denotes the type of a binding. -/
theorem isBindable_resolveAt (resolved : u.resolveAt module params top type = .ok ty) :
    u.isBindable params.length ty = true := by
  obtain ⟨raw, rawResolved, checked⟩ := bind_eq_ok resolved
  have denoted := (scoped_resolve type rawResolved).1
  obtain ⟨rfl, free | ⟨mutable, inner, rfl, _, free⟩⟩ := checkRefs_eq_ok checked
  · exact isBindable_of_isPlain (denoted.plain free)
  · exact denoted.referent mutable inner rfl free

/-- A type written elsewhere denotes a plain type. -/
theorem isPlain_resolveAt (resolved : u.resolveAt module params false type = .ok ty) :
    u.isPlain params.length ty = true := by
  obtain ⟨raw, rawResolved, checked⟩ := bind_eq_ok resolved
  obtain ⟨rfl, free | ⟨_, _, _, top, _⟩⟩ := checkRefs_eq_ok checked
  · exact (scoped_resolve type rawResolved).1.plain free
  · cases top

theorem resolve_of_resolveAt (resolved : u.resolveAt module params top type = .ok ty) :
    u.resolve module params type = .ok ty := by
  obtain ⟨raw, rawResolved, checked⟩ := bind_eq_ok resolved
  obtain ⟨rfl, _⟩ := checkRefs_eq_ok checked
  exact rawResolved

/-- A written struct denotes a plain instantiation. -/
theorem isPlain_resolveStruct {struct : StructExpr} {tag : StructTag}
    (resolved : u.resolveStruct module params struct = .ok tag) :
    u.isPlain params.length tag.ty = true := by
  obtain ⟨_, arityOk, resolved⟩ := bind_eq_ok resolved
  obtain ⟨types, argsResolved, done⟩ := bind_eq_ok resolved
  obtain rfl := Except.ok.inj done
  obtain ⟨found, declared, count⟩ := checkArity_eq_ok arityOk
  obtain ⟨length, plain, _⟩ := arePlain_resolveArgs struct.args argsResolved
  exact isPlain_struct_iff.mpr ⟨⟨found, declared, count.trans length.symm⟩, plain⟩

end Resolution

end Universe

end Custody
