import Custody.Check.Program
import Custody.Proofs.Checking.Bounds
/-!
# Checking whole declaration sets stays within its tables

Statements and blocks do what expressions do. A scope that is left lists slots that are still there,
since leaving a scope keeps the table. The table from in front of a loop is no larger than the one
behind its body, so both have the slots that are compared.
-/

namespace Custody

variable {s : BodyState} {ended : List BindingId}

namespace Check

/-! ## Steps that report nothing -/

section Quiet

variable {later : BodyState → BodyState → Prop} [course : Course later]

/-- A slot that was just declared is there. -/
theorem staysAt_declared {loans : Loans} (inBounds : s.locals.InBounds) (slot : Slot) :
    StaysAt (fun watch => (do look (← get).locals [s.locals.size] : @Check watch PUnit))
      { s with locals := (s.locals.declare slot).2, loans := loans } :=
  StaysAt.bind (stays_at (inBounds.declare _)) (staysAt_look (inBounds.declare _)
    (List.forall_mem_singleton.mpr (Locals.size_lt_declare _ _)))

instance stays_settle [reading : Reading later] (liveAfter : List String)
    (walk : (watch : Watch) → @Check watch Bool) (step : Check Bool)
    [inner : Follows later step walk] :
    Follows later (settle liveAfter step) fun watch => settle liveAfter (walk watch) := by
  unfold settle
  have sets : Stays later fun watch => (modify fun state : BodyState =>
      { state with liveAfter := liveAfter } : @Check watch PUnit) :=
    stays_modify (fun _ => rfl) (fun _ _ attests => attests) fun _ => reading.reading rfl rfl
  have expires : Stays later fun watch => (modify fun state : BodyState =>
      { state with locals := state.locals.expire state.liveAfter } : @Check watch PUnit) := {
    advances := fun s => course.quiet rfl rfl rfl
    same := rfl
    stays := fun s inBounds => staysAbove_modify (fun attests _ => attests) (inBounds.expire _)
      (Nat.le_of_eq (Locals.size_of_shapes (Locals.shapes_expire s.locals _)).symm) }
  infer_instance

instance advances_branchPaths (onTrue onFalse : Check Bool)
    [Advances later onTrue] [Advances later onFalse] :
    Advances later (branchPaths onTrue onFalse) := by
  refine ⟨fun s => ?_⟩
  simp only [branchPaths, bind_apply, get_apply, set_apply]
  exact later_after (later_after (later_around (releaseTemporaries s).2 onTrue
    (course.quiet rfl rfl rfl) (course.quiet rfl rfl rfl)))

instance stays_branchPaths (onTrue onFalse : (watch : Watch) → @Check watch Bool)
    (step other : Check Bool) [first : Follows later step onTrue]
    [second : Follows later other onFalse] :
    Follows later (branchPaths step other) fun watch =>
      branchPaths (onTrue watch) (onFalse watch) := by
  obtain rfl : onTrue unwatched = step := first.same
  obtain rfl : onFalse unwatched = other := second.same
  refine ⟨rfl, fun s inBounds => ?_⟩
  let before := (releaseTemporaries s).2
  have walked := first.stays before inBounds
  have other := second.stays (rewind (onTrue unwatched before).2 before.locals before.loans)
    inBounds
  unfold branchPaths
  refine StaysAt.then inBounds (staysAt_get inBounds ?_)
  refine StaysAbove.bind walked
    (StaysAbove.bind ((stays_at walked.inBounds).above walked.enough) ?_)
  exact staysAbove_rewind (StaysAbove.bind (other.above (Nat.le_refl _))
    (staysAbove_mergePaths other.inBounds walked.inBounds other.enough walked.enough))

end Quiet

section Steps

variable {ctx : BodyContext} {site : Site} {later : BodyState → BodyState → Prop}
  [recording : Recording ctx later]

/-! ## Statements -/

instance advances_dropShadowed (name : String) : Advances later (dropShadowed ctx name) := by
  unfold dropShadowed
  repeat' first | infer_instance | split | refine .bind fun _ => ?_

instance stays_dropShadowed (name : String) : Stays later fun _ => dropShadowed ctx name := by
  refine ⟨rfl, fun s inBounds => ?_⟩
  simp only [dropShadowed]
  refine staysAt_get inBounds ((staysAt_look inBounds fun id inside =>
    inBounds id (Locals.mem_visible_of_scope inside)).bind ?_)
  split
  · exact stays_at inBounds
  · rename_i id found
    have inside := inBounds id (Locals.mem_visible_of_lookupScope found)
    refine (staysAt_look inBounds (List.forall_mem_singleton.mpr inside)).bind ?_
    split
    · exact stays_at inBounds
    · split
      · refine StaysAt.then inBounds ?_
        exact staysAt_change inBounds inside
      · exact staysAt_change inBounds inside

instance stays_bindName (name : String) (value : Operand) :
    Stays later fun _ => bind ctx name value := by
  unfold bind
  refine .bind fun _ => ?_
  refine { advances := fun s => recording.quiet rfl rfl rfl, same := rfl, stays :=
    fun s inBounds => ?_ }
  refine staysAt_get inBounds (StaysAt.bind (staysAbove_modify (fun attests _ => attests)
    (inBounds.declare _) (Nat.le_of_lt (Locals.size_lt_declare _ _))) ?_)
  exact staysAt_declared inBounds _

instance stays_bindPoisoned (name : String) : Stays later fun _ => bindPoisoned ctx name := by
  unfold bindPoisoned
  exact .bind fun _ => {
    advances := fun s => recording.quiet rfl rfl rfl
    same := rfl
    stays := fun s inBounds => staysAbove_modify (fun attests _ => attests) (inBounds.declare _)
      (Nat.le_of_lt (Locals.size_lt_declare _ _)) }

instance advances_checkUnconsumed (ids : List BindingId) :
    Advances later (checkUnconsumed ctx site ids) := by
  unfold checkUnconsumed
  refine @advances_forM _ _ _ _ (fun id => .bind fun state => ?_) _
  split <;> infer_instance

theorem staysAt_checkUnconsumed {ids : List BindingId} (inBounds : s.locals.InBounds)
    (inside : ∀ id ∈ ids, id < s.locals.size) :
    StaysAt (fun _ => checkUnconsumed ctx site ids) s := by
  unfold checkUnconsumed
  refine staysAt_forM ids (fun id listed t inBounds enough => ?_) inBounds (Nat.le_refl _)
  have inside := Nat.lt_of_lt_of_le (inside id listed) enough
  refine StaysAt.bind (stays_at inBounds) ?_
  refine StaysAt.bind (staysAt_look inBounds (List.forall_mem_singleton.mpr inside)) ?_
  split <;> exact stays_at inBounds

instance advances_checkOutlived (ended : List BindingId) :
    Advances later (checkOutlived ctx ended) := by
  unfold checkOutlived
  exact .bind fun state => advances_forM _ _

theorem staysAt_checkOutlived (inBounds : s.locals.InBounds)
    (inside : ∀ id ∈ ended, id < s.locals.size) : StaysAt (fun _ => checkOutlived ctx ended) s := by
  simp only [checkOutlived]
  refine StaysAt.bind (stays_at inBounds) (StaysAt.bind (staysAt_look inBounds inside) ?_)
  have reports : ∀ names : List String, Stays Kept fun _ =>
      names.forM fun name => report ctx (.endOfScope name) (.borrow (.outlived name)) :=
    fun names => stays_forM names fun _ _ => inferInstance
  exact (reports _).stays s inBounds

instance stays_bindStmt (name : String) (type : Option TypeExpr) (value : Option Operand) :
    Stays later fun _ => bindStmt ctx name type value := by
  simp only [bindStmt]
  repeat' first | infer_instance | split | refine .bind fun _ => ?_

instance stays_poisonBinders (binders : List (String × Binder)) :
    Stays later fun _ => poisonBinders ctx binders := by
  unfold poisonBinders
  refine stays_forM _ fun entry _ => ?_
  split <;> infer_instance

instance stays_bindFields (struct : String) (fields : List (String × Ty))
    (binders : List (String × Binder)) : Stays later fun _ => bindFields ctx struct fields
    binders := by
  unfold bindFields
  refine stays_forM _ fun entry _ => ?_
  repeat' first | infer_instance | split

instance stays_unpackStmt (struct : StructExpr) (binders : List (String × Binder))
    (value : Option Operand) : Stays later fun _ => unpackStmt ctx struct binders value := by
  simp only [unpackStmt]
  repeat' first | infer_instance | split | refine .bind fun _ => ?_

instance advances_assignStmt (name : String) (value : Option Operand) :
    Advances later (assignStmt ctx name value) := by
  have changes : ∀ (id : BindingId) (change : Slot → Slot), Advances later
      (modify fun s : BodyState => { s with locals := s.locals.modify id change }) :=
    fun _ _ => advances_modify fun s => recording.quiet rfl rfl rfl
  simp only [assignStmt]
  repeat' first | infer_instance | split | refine .bind fun _ => ?_

instance stays_assignStmt (name : String) (value : Option Operand) :
    Stays later fun _ => assignStmt ctx name value := by
  refine ⟨rfl, fun s inBounds => ?_⟩
  simp only [assignStmt]
  refine staysAt_get inBounds ((staysAt_look inBounds inBounds).bind ?_)
  split
  · exact stays_at inBounds
  · rename_i id found
    have inside := inBounds id (Locals.mem_visible_of_lookup found)
    split
    · exact stays_at inBounds
    · refine (staysAt_look inBounds (List.forall_mem_singleton.mpr inside)).bind ?_
      split
      · rename_i operand slot _
        have fits : StaysAt (fun _ => expect ctx (.assignment name) operand.ty slot.ty) s :=
          stays_at inBounds
        have inside := Nat.lt_of_lt_of_le inside fits.enough
        refine StaysAt.bind fits ?_
        repeat' first
          | exact stays_at fits.inBounds
          | exact staysAt_change fits.inBounds inside
          | split
          | refine StaysAt.then fits.inBounds ?_
      · exact stays_at inBounds

instance stays_writeStmt (value target : Option Operand) :
    Stays later fun _ => writeStmt ctx value target := by
  unfold writeStmt
  repeat' first | infer_instance | split

instance stays_checkReturned (operand : Operand) :
    Stays later fun _ => checkReturned ctx operand := by
  simp only [checkReturned]
  refine .bind fun state => ?_
  split <;> infer_instance

instance stays_checkVisible : Stays later fun watch => (do
    let state ← get
    checkUnconsumed ctx site state.locals.visible : @Check watch Unit) :=
  ⟨rfl, fun _ inBounds => staysAt_get inBounds (staysAt_checkUnconsumed inBounds inBounds)⟩

instance stays_returnStmt (value : Option Operand) : Stays later fun _ => returnStmt ctx value := by
  unfold returnStmt
  repeat' first | infer_instance | split

instance stays_expectOperand (value : Option Operand) (ty : Ty) :
    Stays later fun _ => expectOperand ctx site value ty := by
  unfold expectOperand
  split <;> infer_instance

instance stays_discardStmt (value : Option Operand) :
    Stays later fun _ => discardStmt ctx value := by
  unfold discardStmt
  split <;> infer_instance

/-! ## Blocks -/

variable [reading : Reading later]

theorem staysAt_leave {result : Bool} (inBounds : s.locals.InBounds)
    (inside : ∀ id ∈ ended, id < s.locals.size) :
    StaysAt (fun watch => (do
      checkUnconsumed ctx site ended
      releaseTemporaries
      checkOutlived ctx ended
      return result : @Check watch Bool)) s := by
  have consumed : StaysAt (fun _ => checkUnconsumed ctx site ended) s :=
    staysAt_checkUnconsumed inBounds inside
  have released : StaysAt (fun _ => releaseTemporaries) (checkUnconsumed ctx site ended s).2 :=
    stays_at consumed.inBounds
  refine StaysAt.bind consumed (StaysAt.bind released ?_)
  refine StaysAbove.followed (staysAt_checkOutlived released.inBounds fun id listed => ?_)
  exact Nat.lt_of_lt_of_le (inside id listed) (Nat.le_trans consumed.enough released.enough)

instance advances_inScope (walk : List String → Check Bool)
    [inner : ∀ outer, Advances later (walk outer)] : Advances later (inScope ctx walk) := by
  refine ⟨fun s => ?_⟩
  simp only [inScope, bind_apply, modify_apply, get_apply, set_apply]
  exact later_after (later_around { s with locals := s.locals.pushScope } (walk s.liveAfter)
    (recording.quiet rfl rfl rfl) (reading.reading rfl rfl))

instance stays_inScope (walk : (watch : Watch) → List String → @Check watch Bool)
    (step : List String → Check Bool)
    [inner : ∀ outer, Follows later (step outer) fun watch => walk watch outer] :
    Follows later (inScope ctx step) fun watch => inScope ctx (walk watch) := by
  obtain rfl : walk unwatched = step := funext fun outer => (inner outer).same
  refine ⟨rfl, fun s inBounds => ?_⟩
  have walked := (inner s.liveAfter).stays { s with locals := s.locals.pushScope }
    inBounds.pushScope
  obtain ⟨gone, left⟩ := walked.inBounds.popScope
  have kept := Locals.size_popScope
    (walk unwatched s.liveAfter { s with locals := s.locals.pushScope }).2.locals
  rw [← kept] at gone
  simp only [inScope]
  refine StaysAt.bind
    (staysAbove_modify (fun attests _ => attests) inBounds.pushScope (Nat.le_refl _)) ?_
  refine StaysAt.bind (stays_at inBounds.pushScope) ?_
  refine StaysAt.bind walked ?_
  refine StaysAt.bind (stays_at walked.inBounds) ?_
  refine StaysAt.bind (staysAbove_set rfl left (Nat.le_of_eq kept.symm)) ?_
  split
  · exact stays_at left
  · exact staysAt_leave left gone

instance advances_checkLoopMoves (before : Locals) :
    Advances later (checkLoopMoves ctx before) := by
  unfold checkLoopMoves
  refine @advances_forM _ _ _ _ (fun id => .bind fun state => ?_) _
  repeat' first | infer_instance | split

theorem staysAt_checkLoopMoves {before : Locals} (inBounds : s.locals.InBounds)
    (grown : before.size ≤ s.locals.size) : StaysAt (fun _ => checkLoopMoves ctx before) s := by
  unfold checkLoopMoves
  refine staysAt_forM _ (fun id listed t inBounds enough => ?_) inBounds grown
  have inside := List.mem_range.mp listed
  refine StaysAt.bind (stays_at inBounds) ?_
  split
  · exact stays_at inBounds
  · refine StaysAt.bind (staysAt_look inBounds (List.forall_mem_singleton.mpr inside)) ?_
    refine StaysAt.bind (staysAt_look inBounds
      (List.forall_mem_singleton.mpr (Nat.lt_of_lt_of_le inside enough))) ?_
    split <;> exact stays_at inBounds

theorem staysAbove_loopEnd {ended : Bool} {before : BodyState} (earlier : before.locals.InBounds)
    (inBounds : s.locals.InBounds) (grown : before.locals.size ≤ s.locals.size) :
    StaysAbove before.locals.size before.loans (fun watch => (do
      unless ended do checkLoopMoves ctx before.locals
      let after ← get
      set (rewind after before.locals before.loans)
      let _ ← mergePaths before.locals.size ⟨after.locals, after.loans, ended⟩ false :
        @Check watch Unit)) s := by
  have compared : StaysAt (fun _ => checkLoopMoves ctx before.locals) s :=
    staysAt_checkLoopMoves inBounds grown
  have still := Nat.le_trans grown compared.enough
  cases ended with
  | true => exact staysAbove_rejoin earlier inBounds grown
  | false =>
    exact StaysAbove.bind (compared.above grown)
      (staysAbove_rejoin earlier compared.inBounds still)

instance advances_loopPaths (names : List String) (body : Check Bool) [Advances later body] :
    Advances later (loopPaths ctx names body) := by
  refine ⟨fun s => ?_⟩
  let start := { (releaseTemporaries s).2 with liveAfter :=
    names ++ (releaseTemporaries s).2.liveAfter }
  have walked : later s { (body start).2 with liveAfter := s.liveAfter } :=
    later_around start body (reading.reading rfl rfl) (reading.reading rfl rfl)
  simp only [loopPaths, bind_apply, get_apply, set_apply, modify_apply, ite_apply]
  split
  · exact later_after (later_after (recording.trans walked (recording.quiet rfl rfl rfl)))
  · have compared := later_after (x := checkLoopMoves ctx s.locals) walked
    exact later_after (later_after (recording.trans compared (recording.quiet rfl rfl rfl)))

instance stays_loopPaths (names : List String) (body : (watch : Watch) → @Check watch Bool)
    (step : Check Bool) [inner : Follows later step body] :
    Follows later (loopPaths ctx names step) fun watch => loopPaths ctx names (body watch) := by
  obtain rfl : body unwatched = step := inner.same
  refine ⟨rfl, fun s inBounds => ?_⟩
  let before := (releaseTemporaries s).2
  have walked := inner.stays { before with liveAfter := names ++ before.liveAfter } inBounds
  unfold loopPaths
  refine StaysAt.then inBounds (staysAt_get inBounds ?_)
  refine StaysAbove.bind (staysAbove_set rfl inBounds (Nat.le_refl before.locals.size)) ?_
  refine StaysAbove.bind walked ?_
  refine StaysAbove.bind
    (staysAbove_modify (fun attests _ => attests) walked.inBounds (Nat.le_refl _)) ?_
  exact staysAbove_loopEnd inBounds walked.inBounds walked.enough

mutual

theorem stays_stmt : (stmt : Stmt) → Stays later fun _ => Check.stmt ctx stmt
  | .bind _ _ _ | .unpack _ _ _ | .assign _ _ | .eval _ | .abort _ | .assert _ _ | .ret none
  | .ret (some _) | .write _ _ => by
    unfold Check.stmt
    infer_instance
  | .branch _ onTrue none => by
    have inner := fun outer => stays_stmts outer onTrue
    unfold Check.stmt
    infer_instance
  | .branch _ onTrue (some onFalse) => by
    have inner := fun outer => stays_stmts outer onTrue
    have other := fun outer => stays_stmts outer onFalse
    unfold Check.stmt
    infer_instance
  | .loop _ body => by
    have inner := fun outer => stays_stmts outer body
    unfold Check.stmt
    infer_instance

theorem stays_stmts (outer : List String) : (block : List Stmt) → Stays later fun _ =>
    stmts ctx outer block
  | [] => by
    unfold stmts
    infer_instance
  | head :: tail => by
    have first := stays_stmt head
    have rest := stays_stmts outer tail
    unfold stmts
    infer_instance

end

attribute [instance] stays_stmts

/-! ## Bodies -/

instance stays_declareParam (name : String) (ty : Ty) :
    Stays later fun _ => declareParam ctx name ty := by
  refine { advances := fun s => ?_, same := rfl, stays := fun s inBounds => ?_ }
  · cases ty <;> exact recording.quiet rfl rfl rfl
  · have enough := fun slot => Nat.le_of_lt (Locals.size_lt_declare s.locals slot)
    unfold declareParam
    refine staysAt_get inBounds ?_
    cases ty with
    | ref mutable inner => exact staysAt_issue _ rfl (enough _) (staysAt_declared inBounds _)
    | _ =>
      exact StaysAt.bind (staysAbove_set rfl (inBounds.declare _) (enough _))
        (staysAt_declared inBounds _)

instance stays_params (seen : List String) (list : List (String × Ty)) :
    Stays later fun _ => params ctx seen list := by
  induction list generalizing seen with
  | nil =>
    unfold params
    infer_instance
  | cons param rest ih =>
    unfold params
    infer_instance

instance stays_body (block : List Stmt) : Stays later fun _ => body ctx block := by
  unfold body
  infer_instance

end Steps

end Check

/-! ## Numbers of loans -/

theorem Locals.inBounds_empty : ({} : BodyState).locals.InBounds :=
  fun _ visible => absurd visible List.not_mem_nil

/-- Within a body no two loans get the same number, whatever paths give them out and whether or not
these paths exclude each other. Recording changes nothing, and the loans of the tables that meet,
and of the last one, are all on record. So two tables that meet never have different loans under one
number, and joining them hides none. -/
theorem loan_numbers_are_not_reused (ctx : BodyContext) (block : List Stmt) :
    let walk := @Check.body recording ctx block {}
    walk.1 = Check.body ctx block {} ∧ walk.2.Pairwise Notice.Apart ∧ Covers walk.2 walk.1.2.loans ∧
      ∀ here there, .joined here there ∈ walk.2 → Covers walk.2 here ∧ Covers walk.2 there ∧ ∀ id,
        (∀ loan other, here.get? id = some loan → there.get? id = some other → loan = other) ∧
        ∀ loan, (here.join there).get? id = some loan ↔
          here.get? id = some loan ∨ there.get? id = some loan := by
  intro walk
  have walked := Check.stays_at (x := fun _ => Check.body ctx block) Locals.inBounds_empty
  have attests := walked.attested Attests.empty Attests.empty.covers
  rw [List.append_nil] at attests
  refine ⟨walked.faithful, attests.apart, walked.faithful ▸ attests.covers,
    fun here there met => ?_⟩
  obtain ⟨left, right⟩ := attests.traced met
  have agree : ∀ id loan other, here.get? id = some loan → there.get? id = some other →
      loan = other :=
    fun id loan other found found' => attests.unique (left id loan found) (right id other found')
  refine ⟨left, right, fun id => ⟨agree id, fun loan => ?_⟩⟩
  rw [Loans.get?_join, Option.or_eq_some_iff]
  constructor
  · rintro (found | ⟨_, found⟩)
    · exact .inl found
    · exact .inr found
  · rintro (found | found)
    · exact .inl found
    · cases held : here.get? id with
      | none => exact .inr ⟨rfl, found⟩
      | some other => exact .inl (congrArg some (agree id other loan held found))

/-! ## Whole declaration sets -/

section Watched

variable [Watch]

/-- Bodies checked in the order given, and somebody told what is looked up. -/
def watchedBodies (u : Universe) :
    List (FunctionId × FunctionDecl) → Watch.Effect (List (FunctionId × BodyState))
  | [] => pure []
  | (id, decl) :: rest =>
    match u.function? id with
    | none => watchedBodies u rest
    | some signature => do
      let (_, state) ← Check.body ⟨u, signature⟩ decl.body {}
      let states ← watchedBodies u rest
      return (id, state) :: states

/-- Check a declaration set and tell somebody what is looked up. -/
def checkWatched (modules : List Module) : Watch.Effect (Except (List Diagnostic) Program) := do
  let built := Universe.build modules
  let declared := modules.flatMap fun module => module.functions.map (module.name, ·)
  let bodies ← watchedBodies built.1 (registeredFunctions [] declared)
  return verdict modules (problemsOf built bodies)

end Watched

theorem watchedBodies_unwatched (u : Universe) (functions : List (FunctionId × FunctionDecl)) :
    @watchedBodies unwatched u functions =
      functions.filterMap fun entry => (checkFunction u entry.1 entry.2).map (entry.1, ·) := by
  induction functions with
  | nil => rfl
  | cons entry rest ih =>
    obtain ⟨id, decl⟩ := entry
    cases found : u.function? id with
    | none =>
      simp only [watchedBodies, found, List.filterMap_cons, checkFunction, Option.map_none]
      exact ih
    | some signature =>
      simp only [watchedBodies, found, List.filterMap_cons, checkFunction, Option.map_some]
      exact congrArg (List.cons _) ih

theorem watchedBodies_strictly (u : Universe) (functions : List (FunctionId × FunctionDecl)) :
    @watchedBodies strictly u functions = .ok (@watchedBodies unwatched u functions) := by
  induction functions with
  | nil => rfl
  | cons entry rest ih =>
    obtain ⟨id, decl⟩ := entry
    cases found : u.function? id with
    | none =>
      simp only [watchedBodies, found]
      exact ih
    | some signature =>
      have walked := Check.stays_at (x := fun _ => Check.body ⟨u, signature⟩ decl.body)
        Locals.inBounds_empty
      simp only [watchedBodies, found, walked.strict, ih]
      rfl

/-- Unwatched, this is checking as it is. -/
theorem checkWatched_unwatched (modules : List Module) :
    @checkWatched unwatched modules = check modules :=
  congrArg (fun bodies => verdict modules (problemsOf (Universe.build modules) bodies))
    (watchedBodies_unwatched _ _)

/-- A place is named as some local exactly if its slot is gone. -/
theorem label_eq_someLocal_iff (state : BodyState) (id : BindingId) (fields : List String) :
    Check.label state ⟨.local id, fields⟩ = ⟨.someLocal, fields⟩ ↔ state.locals.size ≤ id := by
  have gone : state.locals.slot? id = none ↔ state.locals.size ≤ id := List.getElem?_eq_none_iff
  rw [← gone]
  cases found : state.locals.slot? id <;> simp [Check.label, found]

/-- Whatever is checked, no slot is looked up that its table does not have: not one of a scope, of a
scope that was left, of a table from in front of a branch or loop, nor where tables meet. The strict
watch never stops the check, which ends with its result. Only where diagnostics name a place may its
slot be gone, and there the table is asked first. -/
theorem checking_stays_in_bounds (modules : List Module) :
    @checkWatched strictly modules = .ok (check modules) ∧
      ∀ (state : BodyState) (id : BindingId) (fields : List String),
        (Check.label state ⟨.local id, fields⟩ = ⟨.someLocal, fields⟩ ↔ state.locals.size ≤ id) ∧
        (Check.label state ⟨.param id, fields⟩ = ⟨.someLocal, fields⟩ ↔
          state.locals.size ≤ id) := by
  refine ⟨?_, fun state id fields => ?_⟩
  · rw [← checkWatched_unwatched]
    simp only [checkWatched, watchedBodies_strictly]
    rfl
  · exact ⟨label_eq_someLocal_iff state id fields, label_eq_someLocal_iff state id fields⟩

end Custody
