import Custody.Proofs.Checking.StatementSteps
import Custody.Proofs.Types.Within
/-!
# Bodies in a larger universe

A body that was checked without a problem is checked alike in a larger universe. Whatever the walk
looks up it finds, or it would have reported a problem; and the types it asks about are plain, so
that the larger universe says the same of them. Most steps ask for no type at all and are the same
as they stand.
-/

namespace Custody

open Universe BodyContext

variable {operand : Operand} {struct : StructExpr} {ty : Ty} {ctx : BodyContext} {other : Universe}
  {e : Expr} {statements : List Stmt} {action : StructUse} {value : Operand} {site : Site}

/-- The same body in another universe. -/
def BodyContext.linked (ctx : BodyContext) (other : Universe) :
    BodyContext := { ctx with types := other }

namespace BodyContext

variable (ctx : BodyContext) (other : Universe)

@[simp] theorem linked_types : (ctx.linked other).types = other := rfl

@[simp] theorem linked_signature : (ctx.linked other).signature = ctx.signature := rfl

@[simp] theorem linked_module : (ctx.linked other).module = ctx.module := rfl

/-- The number of type parameters in scope. -/
def arity : Nat := ctx.signature.typeParams.length

/-- A binding of the body may have the type. -/
abbrev Bindable (ty : Ty) : Prop := ctx.types.isBindable (arity ctx) ty = true

/-- A value of the body may have the type. -/
abbrev Plain (ty : Ty) : Prop := ctx.types.isPlain (arity ctx) ty = true

end BodyContext

namespace Check

theorem isPlain_fieldsAt {u : Universe} (declared : u.Accepted) {count : Nat} {id : StructId}
    {args : List Ty} {struct : StructDef} (plain : u.isPlain count (.struct id args) = true)
    (found : u.struct? id = some struct) {entry : String × Ty}
    (member : entry ∈ struct.fieldsAt args) : u.isPlain count entry.2 = true := by
  obtain ⟨⟨definition, present, length⟩, plainArgs⟩ := isPlain_struct_iff.mp plain
  obtain rfl : definition = struct := Option.mem_unique present found
  obtain ⟨field, listed, rfl⟩ := List.mem_map.mp member
  exact isPlain_subst (Nat.le_of_eq length) plainArgs _
    (declared.fields_plain found field listed)

theorem arePlain_of_resolved {typeArgs : List TypeExpr} {types : List Ty}
    (resolved : List.Forall₂ ctx.Means typeArgs types) :
    ctx.types.arePlain (arity ctx) types = true := by
  induction resolved with
  | nil => rfl
  | cons here _ ih =>
    simp only [arePlain, Bool.and_eq_true]
    exact ⟨isPlain_resolveAt here, ih⟩

/-! ## Steps that ask for no type

Those without a recursion of their own are equal by definition. -/

section Untyped

variable (ctx : BodyContext) (other : Universe) {s : BodyState}

theorem expectFields_linked (struct : String) (fields : List (String × Ty))
    (given : List (String × Option Operand)) :
    expectFields (ctx.linked other) struct fields given = expectFields ctx struct fields given := by
  induction given with
  | nil => rfl
  | cons entry rest ih =>
    obtain ⟨name, value⟩ := entry
    cases value with
    | none => simp only [expectFields, ih]
    | some value =>
      simp only [expectFields, ih]
      rfl

theorem expectItems_linked (elem : Ty) (items : List (Option Operand)) :
    expectItems (ctx.linked other) elem items = expectItems ctx elem items := by
  induction items with
  | nil => rfl
  | cons item rest ih =>
    cases item with
    | none => simp only [expectItems, ih]
    | some value =>
      simp only [expectItems, ih]
      rfl

theorem expectArguments_linked (callee : FunctionId) (types : List Ty) (params : List (String × Ty))
    (values : List Operand) :
    expectArguments (ctx.linked other) callee types params values =
      expectArguments ctx callee types params values := by
  induction params generalizing values with
  | nil =>
    unfold expectArguments
    rfl
  | cons param rest ih =>
    cases values with
    | nil => rfl
    | cons value values =>
      simp only [expectArguments, ih]
      rfl

theorem applyCall_linked (site : Site) (callee : Signature) (types : List Ty)
    (values : List Operand) : applyCall (ctx.linked other) site callee types values = applyCall ctx
    site callee types values := by
  unfold applyCall
  rw [expectArguments_linked]
  rfl

variable {ctx other}

theorem inScope_linked {walk walk' : List String → Check Bool}
    (same : walk' s.liveAfter (entered s) = walk s.liveAfter (entered s)) :
    inScope (ctx.linked other) walk' s = inScope ctx walk s := by
  have same' : walk' s.liveAfter { s with locals := s.locals.pushScope } =
    walk s.liveAfter { s with locals := s.locals.pushScope } := same
  unfold inScope
  simp only [bind_apply, modify_apply, get_apply, same']
  rfl

theorem loopPaths_linked {names : List String} {walk walk' : Check Bool}
    (same : walk' { released s with liveAfter := names ++ (released s).liveAfter } =
      walk { released s with liveAfter := names ++ (released s).liveAfter }) :
    loopPaths (ctx.linked other) names walk' s = loopPaths ctx names walk s := by
  unfold loopPaths
  simp only [bind_apply, releaseTemporaries_apply, get_apply, set_apply, same]
  rfl

end Untyped

section Steps

variable (within : ctx.types.Within other) {s : BodyState}

include within

theorem abilities_linked (bindable : ctx.Bindable ty) :
    (ctx.linked other).abilities ty = ctx.abilities ty :=
  within.abilities_of_bindable _ bindable

theorem constraintFaults_linked (bindable : ctx.Bindable ty) :
    (ctx.linked other).constraintFaults ty = ctx.constraintFaults ty :=
  within.constraintFaults_of_bindable _ bindable

/-! ## Types -/

theorem resolveType_linked {top : Bool} {type : TypeExpr}
    (clean : (resolveType ctx site top type s).2.problems = []) :
    resolveType (ctx.linked other) site top type s = resolveType ctx site top type s := by
  obtain ⟨ty, resolved, _⟩ := resolveType_accepted clean
  have faults := constraintFaults_linked within (isBindable_resolveAt resolved)
  simp only [resolveType, linked_types, linked_module,
    linked_signature, resolved, within.resolveAt resolved, faults]
  rfl

theorem ownStruct_linked (clean : (ownStruct ctx action struct s).2.problems = []) :
    ownStruct (ctx.linked other) action struct s = ownStruct ctx action struct s := by
  obtain ⟨tag, resolved, _⟩ := ownStruct_accepted clean
  have faults := constraintFaults_linked within
    (isBindable_of_isPlain (isPlain_resolveStruct resolved))
  simp only [ownStruct, linked_types, linked_module,
    linked_signature, resolved, within.resolveStruct resolved, faults]
  rfl

theorem storedStruct_linked {tag : StructTag}
    (stored : storedStruct ctx action struct s = (some tag, s)) (clean : s.problems = []) :
    storedStruct (ctx.linked other) action struct s = (some tag, s) := by
  have here : (storedStruct ctx action struct s).2.problems = [] := by rwa [stored]
  rw [← stored]
  unfold storedStruct at here ⊢
  have ownClean := clean_of_bind (fun tag => by split <;> infer_instance) here
  obtain ⟨tag, resolved, own⟩ := ownStruct_accepted ownClean
  have held := abilities_linked within
    (isBindable_of_isPlain (isPlain_resolveStruct resolved))
  rw [bind_apply, bind_apply, ownStruct_linked within ownClean, own]
  dsimp only
  rw [held]
  rfl

theorem resolveTypeArgs_linked {types : List TypeExpr}
    (clean : (resolveTypeArgs ctx site types s).2.problems = []) :
    resolveTypeArgs (ctx.linked other) site types s = resolveTypeArgs ctx site types s := by
  induction types generalizing s with
  | nil => rfl
  | cons type rest ih =>
    unfold resolveTypeArgs at clean ⊢
    have here := clean_first clean
    obtain ⟨ty, _, same⟩ := resolveType_accepted here
    rw [bind_apply, same] at clean
    have others : resolveTypeArgs (ctx.linked other) site rest s = resolveTypeArgs ctx
        site rest s :=
      ih (clean_first clean)
    simp only [bind_apply, resolveType_linked within here, same, others]

/-! ## Expressions -/

theorem borrowField_linked {mutable : Bool} {field : String} {base : Operand}
    (bindable : ctx.Bindable base.ty) :
    borrowField (ctx.linked other) mutable field base s = borrowField ctx mutable field base s := by
  cases form : base.ty with
  | ref baseMutable inner =>
    cases inner with
    | struct id args =>
      have plain : ctx.Plain (StructTag.ty ⟨id, args⟩) := by
        rw [form] at bindable
        exact bindable
      simp only [borrowField, form, linked_types, within.fieldType? plain]
      rfl
    | _ =>
      simp only [borrowField, form]
      rfl
  | _ =>
    simp only [borrowField, form]
    rfl

theorem dereference_linked (bindable : ctx.Bindable operand.ty) :
    dereference (ctx.linked other) operand s = dereference ctx operand s := by
  unfold dereference
  cases form : operand.ty with
  | ref mutable target =>
    rw [form] at bindable
    simp only [Ty.referent?, abilities_linked within (isBindable_of_isPlain bindable)]
    rfl
  | _ => rfl

theorem binary_linked {op : BinOp} {left right : Operand}
    (bindable : ctx.Bindable left.ty) :
    binary (ctx.linked other) op left right s = binary ctx op left right s := by
  unfold binary
  rw [abilities_linked within bindable]
  rfl

theorem pack_linked {given : List (String × Option Operand)}
    (clean : (pack ctx struct given s).2.problems = []) :
    pack (ctx.linked other) struct given s = pack ctx struct given s := by
  unfold pack at clean ⊢
  have ownClean := clean_of_bind (fun tag => by repeat' first | infer_instance | split) clean
  obtain ⟨tag, resolved, own⟩ := ownStruct_accepted ownClean
  rw [bind_apply, bind_apply, ownStruct_linked within ownClean, own]
  simp only [linked_types,
    within.instantiateFields? (isPlain_resolveStruct resolved), expectFields_linked]
  rfl

theorem vector_linked {elem : TypeExpr} {items : List (Option Operand)}
    (clean : (vector ctx elem items s).2.problems = []) :
    vector (ctx.linked other) elem items s = vector ctx elem items s := by
  unfold vector at clean ⊢
  have here := clean_of_bind (fun ty => by split <;> infer_instance) clean
  rw [bind_apply, bind_apply, resolveType_linked within here]
  simp only [expectItems_linked]

theorem callConstraintFaults_linked (callee : Signature) {types : List Ty}
    (plain : ctx.types.arePlain (arity ctx) types = true) :
    callConstraintFaults (ctx.linked other) callee types = callConstraintFaults ctx
    callee types := by
  refine List.filterMap_congr fun entry listed => ?_
  have member := (List.of_mem_zip listed).2
  have entryPlain := arePlain_iff.mp plain entry.2 member
  simp only [abilities_linked within (isBindable_of_isPlain entryPlain)]

theorem call_linked {module : Option String} {function : String} {typeArgs : List TypeExpr}
    {values : List (Option Operand)}
    (clean : (call ctx module function typeArgs values s).2.problems = []) :
    call (ctx.linked other) module function typeArgs values s =
      call ctx module function typeArgs values s := by
  simp only [call, linked_module] at clean ⊢
  cases declared : ctx.types.function? ⟨module.getD ctx.module, function⟩ with
  | none => simp [declared] at clean
  | some callee =>
    simp only [declared, bind_apply, modify_apply] at clean
    simp only [linked_types, within.function? declared, bind_apply, modify_apply]
    by_cases count : callee.typeParams.length = typeArgs.length
    · simp only [count, ne_eq, not_true_eq_false, if_false] at clean ⊢
      have here := clean_of_bind (fun types => by repeat' first | infer_instance | split) clean
      obtain ⟨types, resolved, same⟩ := resolveTypeArgs_accepted here
      have faults := callConstraintFaults_linked within callee (arePlain_of_resolved resolved)
      rw [bind_apply, bind_apply, resolveTypeArgs_linked within here, same]
      simp only [faults, applyCall_linked]
      rfl
    · simp only [count, ne_eq, not_false_eq_true, if_true]
      rfl

/-! ## Statements -/

theorem bind_linked (name : String) (bindable : ctx.Bindable value.ty) :
    bind (ctx.linked other) name value = bind ctx name value := by
  unfold bind
  rw [abilities_linked within bindable]
  rfl

theorem bindStmt_linked {name : String} {type : Option TypeExpr}
    (bindable : ctx.Bindable operand.ty)
    (clean : (bindStmt ctx name type (some operand) s).2.problems = []) :
    bindStmt (ctx.linked other) name type (some operand) s =
      bindStmt ctx name type (some operand) s := by
  cases type with
  | none => exact congrFun (bind_linked within name bindable) s
  | some type =>
    unfold bindStmt at clean ⊢
    dsimp only at clean ⊢
    have here := clean_of_bind (honest_annotated ctx name operand) clean
    obtain ⟨ty, resolved, same⟩ := resolveType_accepted here
    have annotated : ctx.Bindable ty := isBindable_resolveAt resolved
    have bound : bind (ctx.linked other) name { operand with ty := ty } =
        bind ctx name { operand with ty := ty } :=
      bind_linked within name annotated
    rw [bind_apply, bind_apply, resolveType_linked within here, same]
    simp only [bound, bind_linked within name bindable]
    rfl

theorem bindFields_linked {struct : String} {fields : List (String × Ty)}
    (plain : ∀ entry ∈ fields, ctx.Plain entry.2)
    (binders : List (String × Binder)) :
    bindFields (ctx.linked other) struct fields binders = bindFields ctx struct fields binders := by
  unfold bindFields
  congr 1
  funext entry
  cases found : fields.lookup entry.1 with
  | none => rfl
  | some ty =>
    have bindable := isBindable_of_isPlain (plain _ (StructDef.mem_of_lookup found))
    cases entry.2 with
    | bind name => exact bind_linked within name bindable
    | ignore =>
      simp only [abilities_linked within bindable]
      rfl

theorem unpackStmt_linked (declared : ctx.types.Accepted) {binders : List (String × Binder)}
    (clean : (unpackStmt ctx struct binders (some operand) s).2.problems = []) :
    unpackStmt (ctx.linked other) struct binders (some operand) s =
      unpackStmt ctx struct binders (some operand) s := by
  unfold unpackStmt at clean ⊢
  have ownClean := clean_of_bind (fun tag => by cases tag <;> infer_instance) clean
  obtain ⟨tag, resolved, own⟩ := ownStruct_accepted ownClean
  have plain := isPlain_resolveStruct resolved
  obtain ⟨⟨definition, found, _⟩, _⟩ := isPlain_struct_iff.mp plain
  have instantiated : ctx.types.instantiateFields? tag = some (definition.fieldsAt tag.args) := by
    simp [instantiateFields?, found]
  have fields : bindFields (ctx.linked other) struct.name (definition.fieldsAt tag.args) binders =
      bindFields ctx struct.name (definition.fieldsAt tag.args) binders :=
    bindFields_linked within (fun _ member => isPlain_fieldsAt declared plain found member) binders
  rw [bind_apply, bind_apply, ownStruct_linked within ownClean, own]
  simp only [linked_types, within.instantiateFields? plain, instantiated,
    Option.getD_some, fields]
  rfl

theorem writeStmt_linked {target : Operand}
    (bindable : ctx.Bindable target.ty) :
    writeStmt (ctx.linked other) (some value) (some target) s =
      writeStmt ctx (some value) (some target) s := by
  cases form : target.ty with
  | ref mutable inner =>
    rw [form] at bindable
    cases mutable with
    | false =>
      simp only [writeStmt, form]
      rfl
    | true =>
      simp only [writeStmt, form, abilities_linked within (isBindable_of_isPlain bindable)]
      rfl
  | _ =>
    simp only [writeStmt, form]
    rfl

theorem discardStmt_linked (bindable : ctx.Bindable operand.ty) :
    discardStmt (ctx.linked other) (some operand) s = discardStmt ctx (some operand) s := by
  simp only [discardStmt, abilities_linked within bindable]
  rfl

/-! ## Parameters -/

theorem declareParam_linked (name : String)
    (bindable : ctx.Bindable ty) :
    declareParam (ctx.linked other) name ty = declareParam ctx name ty := by
  unfold declareParam
  rw [abilities_linked within bindable]

theorem params_linked {list : List (String × Ty)}
    (bindable : ∀ param ∈ list, ctx.Bindable param.2)
    (seen : List String) : params (ctx.linked other) seen list = params ctx seen list := by
  induction list generalizing seen with
  | nil => rfl
  | cons param rest ih =>
    obtain ⟨name, ty⟩ := param
    have here := bindable _ List.mem_cons_self
    have others := ih fun other member => bindable other (List.mem_cons_of_mem _ member)
    simp only [params,
      constraintFaults_linked within here, declareParam_linked within name here, others]
    rfl

end Steps

end Check

end Custody
