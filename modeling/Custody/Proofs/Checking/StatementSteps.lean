import Custody.Proofs.Checking.BlockBounds
import Custody.Proofs.Checking.Steps
/-!
# What an accepted step of a statement did

The companion for statements, blocks and paths of what is known of the steps of expressions. Paths
change the state in ways that do not depend on acceptance; their results are given as equations.
-/

namespace Custody

variable {operand : Operand} {name : String}

namespace Check

section StatementSteps

variable {ctx : BodyContext} {site : Site} {s : BodyState}

/-! ## Values that are left -/

theorem checkUnconsumed_accepted {ids : List BindingId} (unpoisoned : s.poisoned = [])
    (clean : (checkUnconsumed ctx site ids s).2.problems = []) :
    checkUnconsumed ctx site ids s = ((), s) ∧
      ∀ id ∈ ids, ∀ slot, s.locals.slot? id = some slot → slot.isOwed = false := by
  obtain ⟨same, each⟩ := forM_accepted
    (fun id => by
      refine .bind fun state => ?_
      split <;> infer_instance)
    (fun id here => by
      cases found : s.locals.slot? id with
      | none => simp [found]
      | some slot => cases owed : slot.isOwed <;> simp_all) clean
  refine ⟨same, ?_⟩
  intro id member slot found
  have here := each id member
  cases owed : slot.isOwed with
  | false => rfl
  | true => simp [found, unpoisoned, owed] at here

/-- The name of the binding a loan is of, if it is one of a scope that ends. -/
def outlivedName (s : BodyState) (ended : List BindingId) (loan : Loan) : Option String :=
  match loan.place.root with
  | .local id => if id ∈ ended then (s.locals.slot? id).map (·.name) else none
  | _ => none

/-- Behind a scope no live loan is of one of its bindings. -/
theorem checkOutlived_accepted {ended : List BindingId}
    (clean : (checkOutlived ctx ended s).2.problems = []) :
    checkOutlived ctx ended s = ((), s) ∧
      ∀ (id : LoanId) (loan : Loan) (binding : BindingId), s.loans.get? id = some loan →
        loan.place.root = .local binding → binding ∈ ended → s.locals.slot? binding = none := by
  let dangling := s.loans.live.values.filterMap (outlivedName s ended)
  have unfolded : checkOutlived ctx ended s =
      (forM dangling fun name => report ctx (.endOfScope name) (.borrow (.outlived name)) :
        Check PUnit) s := rfl
  have none : dangling = [] := by
    cases listed : dangling with
    | nil => rfl
    | cons name rest =>
      rw [unfolded, listed, List.forM_cons] at clean
      have reported := clean_of_bind (fun _ => advances_forM _ rest) clean
      simp at reported
  refine ⟨by rw [unfolded, none]; rfl, ?_⟩
  intro id loan binding live rooted member
  have absent := List.filterMap_eq_nil_iff.mp none loan (Table.mem_values_of_get? live)
  simpa [outlivedName, rooted, member] using absent

/-! ## Bindings -/

/-- A binding that is shadowed gives up its value, which is not owed. -/
theorem dropShadowed_accepted (unpoisoned : s.poisoned = [])
    (clean : (dropShadowed ctx name s).2.problems = []) :
    (s.locals.lookupScope name = none ∧ dropShadowed ctx name s = ((), s)) ∨
      ∃ id slot, s.locals.lookupScope name = some id ∧ s.locals.slot? id = some slot ∧
        slot.isOwed = false ∧
        dropShadowed ctx name s = ((), { s with locals := (s.locals.consume id).2 }) := by
  cases found : s.locals.lookupScope name with
  | none => exact .inl ⟨rfl, by simp [dropShadowed, found]⟩
  | some id =>
    have named := List.find?_some found
    cases present : s.locals.slot? id with
    | none => simp [Locals.isNamed, present] at named
    | some slot =>
      refine .inr ⟨id, slot, rfl, present, ?_⟩
      cases owed : slot.isOwed with
      | false => exact ⟨rfl, by simp [dropShadowed, found, present, owed]⟩
      | true => simp [dropShadowed, found, present, owed, unpoisoned] at clean

/-- The slot a binding starts with. -/
def boundSlot (ctx : BodyContext) (name : String) (value : Operand) : Slot :=
  { name := name, ty := value.ty, abilities := ctx.abilities value.ty, loans := value.loans,
    place := value.place }

theorem bind_accepted {value : Operand} (clean : (bind ctx name value s).2.problems = []) :
    (dropShadowed ctx name s).2.problems = [] ∧
      bind ctx name value s = ((), { (dropShadowed ctx name s).2 with
        locals := ((dropShadowed ctx name s).2.locals.declare (boundSlot ctx name value)).2 }) :=
  ⟨clean, rfl⟩

theorem honest_annotated (ctx : BodyContext) (name : String) (operand : Operand)
    (annotated : Option Ty) : Honest (match annotated with
      | none => bind ctx name operand
      | some ty => do
        if ← expect ctx (.binding name) operand.ty ty then bind ctx name { operand with ty := ty }
        else bind ctx name operand) := by
  cases annotated <;> infer_instance

theorem bindStmt_accepted {type : Option TypeExpr}
    (bindable : ctx.types.isBindable ctx.signature.typeParams.length operand.ty = true)
    (clean : (bindStmt ctx name type (some operand) s).2.problems = []) :
    ∃ ty, operand.ty.flowsInto ty = true ∧
      ctx.types.isBindable ctx.signature.typeParams.length ty = true ∧
      bindStmt ctx name type (some operand) s = bind ctx name { operand with ty := ty } s := by
  cases type with
  | none => exact ⟨operand.ty, by simp [Ty.flowsInto], bindable, rfl⟩
  | some type =>
    unfold bindStmt at clean ⊢
    dsimp only at clean ⊢
    obtain ⟨ty, resolved, same⟩ :=
      resolveType_accepted (clean_of_bind (honest_annotated ctx name operand) clean)
    rw [bind_apply, same] at clean ⊢
    dsimp only at clean ⊢
    obtain ⟨flows, fits⟩ := expect_accepted (clean_first clean)
    refine ⟨ty, flows, Universe.isBindable_resolveAt resolved, ?_⟩
    rw [bind_apply, fits]
    rfl

/-- What is bound or ignored of an unpacked struct, one field after another. -/
theorem bindFields_accepted {struct : String} {fields : List (String × Ty)} {field : String}
    {binder : Binder} {rest : List (String × Binder)} {ty : Ty}
    (known : fields.lookup field = some ty)
    (clean : (bindFields ctx struct fields ((field, binder) :: rest) s).2.problems = []) :
    match binder with
    | .bind name =>
      (bind ctx name { ty := ty } s).2.problems = [] ∧
        bindFields ctx struct fields ((field, binder) :: rest) s =
          bindFields ctx struct fields rest (bind ctx name { ty := ty } s).2
    | .ignore =>
      (ctx.abilities ty).drop = true ∧
        bindFields ctx struct fields ((field, binder) :: rest) s =
          bindFields ctx struct fields rest s := by
  cases binder with
  | bind name =>
    have same : bindFields ctx struct fields ((field, .bind name) :: rest) s =
        bindFields ctx struct fields rest (bind ctx name { ty := ty } s).2 := by
      simp [bindFields, known]
    rw [same] at clean
    exact ⟨clean_before clean, same⟩
  | ignore =>
    cases drops : (ctx.abilities ty).drop with
    | true => exact ⟨rfl, by simp [bindFields, known, drops]⟩
    | false =>
      have same : bindFields ctx struct fields ((field, .ignore) :: rest) s =
          bindFields ctx struct fields rest
            (report ctx (.ignoredField struct field) (.missingDrop ty) s).2 := by
        simp [bindFields, known, drops]
      rw [same] at clean
      have reported := clean_before clean
      simp at reported

theorem unpackStmt_accepted {struct : StructExpr} {binders : List (String × Binder)}
    (clean : (unpackStmt ctx struct binders (some operand) s).2.problems = []) :
    ∃ tag fields, ctx.Names struct tag ∧
      operand.ty.flowsInto tag.ty = true ∧ ctx.types.instantiateFields? tag = some fields ∧
      coverageFaults .unpack struct.name tag (fields.map (·.1)) (binders.map (·.1)) = [] ∧
      unpackStmt ctx struct binders (some operand) s =
        bindFields ctx struct.name fields binders s := by
  have poisons : Honest (poisonBinders ctx binders) := inferInstance
  unfold unpackStmt at clean ⊢
  obtain ⟨tag, resolved, same⟩ := ownStruct_accepted (clean_of_bind (fun tag => by
    cases tag <;> infer_instance) clean)
  rw [bind_apply, same] at clean ⊢
  dsimp only at clean ⊢
  obtain ⟨flows, fits⟩ := expect_accepted (clean_first clean)
  rw [bind_apply, fits] at clean ⊢
  dsimp only at clean ⊢
  simp only [if_true] at clean ⊢
  have covered := clean_first clean
  obtain ⟨faultless, covers⟩ := coversFields_accepted covered
  obtain ⟨⟨definition, declared, _⟩, _⟩ :=
    Universe.isPlain_struct_iff.mp (Universe.isPlain_resolveStruct resolved)
  have instantiated : ctx.types.instantiateFields? tag = some (definition.fieldsAt tag.args) := by
    simp [Universe.instantiateFields?, declared]
  refine ⟨tag, definition.fieldsAt tag.args, resolved, flows, instantiated, ?_, ?_⟩
  · simpa [instantiated] using faultless
  · rw [bind_apply, covers]
    simp [instantiated]

/-! ## Assignments -/

/-- An assignment goes to a binding that is free and owes nothing. -/
theorem assignStmt_accepted (unpoisoned : s.poisoned = [])
    (clean : (assignStmt ctx name (some operand) s).2.problems = []) :
    ∃ id slot, s.locals.lookup name = some id ∧ s.locals.slot? id = some slot ∧
      operand.ty.flowsInto slot.ty = true ∧ slot.isOwed = false ∧
      s.loans.conflicting? { root := .local id } .exclusive = none ∧
      assignStmt ctx name (some operand) s = ((), { s with
        locals := s.locals.modify id fun slot =>
          { slot with state := .live, loans := operand.loans, place := operand.place } }) := by
  cases found : s.locals.lookup name with
  | none => simp [assignStmt, found] at clean
  | some id =>
    obtain ⟨slot, present, _⟩ := slot?_of_lookup found
    refine ⟨id, slot, rfl, present, ?_⟩
    cases flows : operand.ty.flowsInto slot.ty with
    | false => simp [assignStmt, found, present, unpoisoned, expect, flows] at clean
    | true =>
      cases owed : slot.isOwed <;>
        cases free : s.loans.conflicting? { root := .local id } .exclusive <;>
        simp [assignStmt, found, present, unpoisoned, expect, flows, owed, free] at clean ⊢

theorem writeStmt_accepted {value target : Operand}
    (clean : (writeStmt ctx (some value) (some target) s).2.problems = []) :
    ∃ inner, target.ty = .ref true inner ∧ value.ty.flowsInto inner = true ∧
      (ctx.abilities inner).drop = true ∧
      writeStmt ctx (some value) (some target) s = ((), s) := by
  cases form : target.ty with
  | ref mutable inner =>
    cases mutable with
    | false => simp [writeStmt, form] at clean
    | true =>
      simp only [writeStmt, form] at clean ⊢
      have accessed := checkAccess_accepted (clean_first clean)
      rw [bind_apply, accessed] at clean ⊢
      dsimp only at clean ⊢
      obtain ⟨flows, fits⟩ := expect_accepted (clean_first clean)
      rw [bind_apply, fits] at clean ⊢
      dsimp only at clean ⊢
      refine ⟨inner, rfl, flows, ?_⟩
      cases drops : (ctx.abilities inner).drop <;> simp [drops] at clean ⊢
  | _ => simp [writeStmt, form] at clean

/-! ## Leaving a function -/

/-- The place of a loan that a returned reference may not have: anything but a parameter. -/
def escaping (s : BodyState) (id : LoanId) : Option PlaceLabel :=
  match s.loans.get? id with
  | none => none
  | some loan =>
    match loan.place.root with
    | .param _ => none
    | _ => some (label s loan.place)

theorem checkReturned_apply (operand : Operand) : checkReturned ctx operand s =
    (match operand.loans.toList.findSome? (escaping s) with
      | none => return
      | some target => report ctx .ret (.borrow (.escapes target)) : Check Unit) s := rfl

/-- What a returned reference keeps alive belongs to the parameters. -/
theorem checkReturned_accepted (clean : (checkReturned ctx operand s).2.problems = []) :
    checkReturned ctx operand s = ((), s) ∧
      ∀ id ∈ operand.loans, ∀ loan, s.loans.get? id = some loan →
        ∃ param, loan.place.root = .param param := by
  cases found : operand.loans.toList.findSome? (escaping s) with
  | some target => simp [checkReturned_apply, found] at clean
  | none =>
    refine ⟨by rw [checkReturned_apply, found]; rfl, ?_⟩
    intro id member loan live
    have stays := List.findSome?_eq_none_iff.mp found id member
    cases root : loan.place.root with
    | param index => exact ⟨index, rfl⟩
    | «local» index => simp [escaping, live, root] at stays
    | global tag => simp [escaping, live, root] at stays

theorem returnStmt_accepted (unpoisoned : s.poisoned = [])
    (clean : (returnStmt ctx (some operand) s).2.problems = []) :
    operand.ty.flowsInto ctx.signature.ret = true ∧
      (ctx.signature.ret.isRef = true → ∀ id ∈ operand.loans, ∀ loan, s.loans.get? id = some loan →
        ∃ param, loan.place.root = .param param) ∧
      (∀ id ∈ s.locals.visible, ∀ slot, s.locals.slot? id = some slot → slot.isOwed = false) ∧
      returnStmt ctx (some operand) s = ((), s) := by
  simp only [returnStmt] at clean ⊢
  obtain ⟨flows, fits⟩ := expect_accepted (clean_first clean)
  rw [bind_apply, fits] at clean ⊢
  dsimp only at clean ⊢
  cases reference : ctx.signature.ret.isRef with
  | false =>
    simp only [reference, if_true, Bool.false_eq_true, if_false] at clean ⊢
    obtain ⟨same, consumed⟩ := checkUnconsumed_accepted unpoisoned clean
    refine ⟨flows, ?_, consumed, same⟩
    intro absurd
    cases absurd
  | true =>
    simp only [reference, if_true] at clean ⊢
    obtain ⟨returned, params⟩ := checkReturned_accepted
      (clean_first clean)
    rw [bind_apply, returned] at clean ⊢
    obtain ⟨same, consumed⟩ := checkUnconsumed_accepted unpoisoned clean
    exact ⟨flows, fun _ => params, consumed, same⟩

theorem expectOperand_accepted {ty : Ty}
    (clean : (expectOperand ctx site (some operand) ty s).2.problems = []) :
    operand.ty.flowsInto ty = true ∧ expectOperand ctx site (some operand) ty s = ((), s) := by
  obtain ⟨flows, fits⟩ := expect_accepted (clean_first clean)
  refine ⟨flows, ?_⟩
  simp [expectOperand, fits]

theorem discardStmt_accepted (clean : (discardStmt ctx (some operand) s).2.problems = []) :
    (ctx.abilities operand.ty).drop = true ∧ discardStmt ctx (some operand) s = ((), s) := by
  by_cases unit : operand.ty = .unit
  · simp [discardStmt, unit, BodyContext.abilities, Universe.abilities, AbilitySet.reference]
  · cases drops : (ctx.abilities operand.ty).drop with
    | false => simp [discardStmt, unit, drops] at clean
    | true => simp [discardStmt, drops]

/-! ## Blocks and paths -/

theorem checkLoopMoves_accepted {before : Locals}
    (clean : (checkLoopMoves ctx before s).2.problems = []) :
    checkLoopMoves ctx before s = ((), s) := by
  refine (forM_accepted (fun id => .bind fun state => ?_) (fun id here => ?_) clean).1
  · repeat' first | infer_instance | split
  by_cases poisoned : id ∈ s.poisoned
  · simp [poisoned]
  · cases old : before.slot? id with
    | none => simp [poisoned]
    | some oldSlot =>
      cases new : s.locals.slot? id with
      | none => simp [poisoned, new]
      | some slot =>
        by_cases moved : oldSlot.state = .live ∧ slot.state ≠ .live
        · simp [poisoned, old, new, moved] at here
        · simp [poisoned, new, moved]

/-- The state a block is walked in. -/
def entered (s : BodyState) : BodyState := { s with locals := s.locals.pushScope }

/-- The state in which a block is left, before anything is said about what it bound. -/
def left (liveAfter : List String) (s : BodyState) : BodyState :=
  { s with liveAfter := liveAfter, locals := s.locals.popScope.2 }

/-- Only what bindings hold stays borrowed. -/
def released (s : BodyState) : BodyState :=
  { s with loans := s.loans.retain s.locals.heldLoans }

theorem releaseTemporaries_apply (s : BodyState) : releaseTemporaries s = ((), released s) := rfl

/-- Of a block that is left at its end nothing is owed and nothing is borrowed. -/
theorem inScope_accepted {walk : List String → Check Bool}
    (clean : (inScope ctx walk s).2.problems = []) :
    (walk s.liveAfter (entered s)).2.problems = [] ∧
      let ended := (walk s.liveAfter (entered s)).1
      let inner := (walk s.liveAfter (entered s)).2
      (ended = true → inScope ctx walk s = (true, left s.liveAfter inner)) ∧
      (ended = false → inner.poisoned = [] →
        inScope ctx walk s = (false, released (left s.liveAfter inner)) ∧
        (∀ id ∈ inner.locals.popScope.1, ∀ slot,
          (left s.liveAfter inner).locals.slot? id = some slot → slot.isOwed = false) ∧
        ∀ (id : LoanId) (loan : Loan) (binding : BindingId),
          (released (left s.liveAfter inner)).loans.get? id = some loan →
          loan.place.root = .local binding → binding ∈ inner.locals.popScope.1 →
          (left s.liveAfter inner).locals.slot? binding = none) := by
  have unfolded : inScope ctx walk s =
      (do
        unless (walk s.liveAfter (entered s)).1 do
          checkUnconsumed ctx .endOfBlock (walk s.liveAfter (entered s)).2.locals.popScope.1
          releaseTemporaries
          checkOutlived ctx (walk s.liveAfter (entered s)).2.locals.popScope.1
        return (walk s.liveAfter (entered s)).1 : Check Bool)
        (left s.liveAfter (walk s.liveAfter (entered s)).2) := rfl
  rw [unfolded] at clean ⊢
  have behind : (left s.liveAfter (walk s.liveAfter (entered s)).2).problems = [] :=
    clean_before clean
  refine ⟨behind, ?_, ?_⟩
  · intro ended
    simp [ended]
  · intro ended unpoisoned
    rw [ended] at clean ⊢
    simp only [Bool.false_eq_true, if_false] at clean ⊢
    have unowed := clean_first clean
    have behind : (left s.liveAfter (walk s.liveAfter (entered s)).2).poisoned = [] := unpoisoned
    obtain ⟨unconsumed, owed⟩ := checkUnconsumed_accepted behind unowed
    rw [bind_apply, unconsumed, bind_apply, releaseTemporaries_apply] at clean ⊢
    have outlived := clean_first clean
    obtain ⟨gone, ended⟩ := checkOutlived_accepted outlived
    rw [bind_apply, gone]
    exact ⟨rfl, owed, ended⟩

theorem settle_apply (liveAfter : List String) (walk : Check Bool) (s : BodyState) :
    settle liveAfter walk s =
      ((walk { s with liveAfter := liveAfter }).1,
        let inner := (walk { s with liveAfter := liveAfter }).2
        released { inner with locals := inner.locals.expire inner.liveAfter }) := rfl

/-- Where two paths meet. -/
def merged (size : Nat) (other : Path) (ended : Bool) (s : BodyState) : BodyState :=
  { s with
    poisoned := s.poisoned.filter (· < size)
    locals :=
      if other.ended then s.locals.truncate size
      else if ended then other.locals.truncate size
      else (s.locals.truncate size).join (other.locals.truncate size)
    loans :=
      if other.ended then s.loans
      else if ended then other.loans.continueFrom s.loans
      else s.loans.join other.loans }

theorem mergePaths_apply (size : Nat) (other : Path) (ended : Bool) (s : BodyState) :
    mergePaths size other ended s = (other.ended && ended, merged size other ended s) := by
  cases first : other.ended <;> cases ended <;> simp [mergePaths, merged, first]

theorem branchPaths_apply (onTrue onFalse : Check Bool) (s : BodyState) :
    branchPaths onTrue onFalse s =
      let before := released s
      let first := onTrue before
      let second := onFalse (rewind first.2 before.locals before.loans)
      mergePaths before.locals.size ⟨first.2.locals, first.2.loans, first.1⟩ second.1
      second.2 := rfl

theorem loopPaths_accepted {names : List String} {walk : Check Bool}
    (clean : (loopPaths ctx names walk s).2.problems = []) :
    let before := released s
    let first := walk { before with liveAfter := names ++ before.liveAfter }
    let after : BodyState := { first.2 with liveAfter := before.liveAfter }
    first.2.problems = [] ∧
      loopPaths ctx names walk s = ((), merged before.locals.size
        ⟨after.locals, after.loans, first.1⟩ false (rewind after before.locals before.loans)) := by
  intro before first after
  have unfolded : loopPaths ctx names walk s =
      (do
        unless first.1 do checkLoopMoves ctx before.locals
        let after ← get
        set (rewind after before.locals before.loans)
        let _ ← mergePaths before.locals.size ⟨after.locals, after.loans, first.1⟩ false :
        Check Unit) after := rfl
  rw [unfolded] at clean ⊢
  cases ended : first.1 with
  | true =>
    simp only [ended, if_true, bind_apply, pure_apply, get_apply, set_apply, mergePaths_apply]
      at clean ⊢
    exact ⟨clean, trivial⟩
  | false =>
    simp only [ended, Bool.false_eq_true, if_false, bind_apply, pure_apply, get_apply, set_apply,
      mergePaths_apply] at clean ⊢
    have unmoved : checkLoopMoves ctx before.locals after = ((), after) :=
      checkLoopMoves_accepted clean
    rw [unmoved] at clean ⊢
    exact ⟨clean, rfl⟩

end StatementSteps

end Check

end Custody
