import Custody.Proofs.Checking.Visits
/-!
# What an accepted walk over statements leaves alone

Statements may add bindings to the scope they stand in; blocks take theirs away again. Each form of
statement is first taken apart into its accepted expressions and the steps behind them; that every
accepted statement keeps the state well formed follows by recursion over blocks. Along with it, what
the statement may evaluate is on record, and a larger universe walks it alike.
-/

namespace Custody

open Locals

variable {statements : List Stmt} {name : String} {cond : Expr} {statement : Stmt}
  {ctx : BodyContext} {fields : List (String × Ty)} {value : Expr} {site : Site}

namespace Check

/-- Statements may have been walked: bindings may have been added to the scope they stand in. -/
structure Continues (ctx : BodyContext) (before after : BodyState) : Prop where
  formed : Formed ctx after
  follows : before.loans.Follows after.loans
  shapes : before.locals.shapes <+: after.locals.shapes
  outer : after.locals.outer = before.locals.outer

/-- A statement may have been walked that binds the given names. Where it is calm, what bindings
keep alive stays so. -/
structure Proceeds (ctx : BodyContext) (before : BodyState) (bound : List String) (calm : Prop)
    (after : BodyState) : Prop extends Continues ctx before after where
  liveAfter : after.liveAfter = before.liveAfter
  names : after.locals.names = before.locals.names ++ bound
  backed : calm → before.Backed → after.Backed

section Continuing

variable {s s' s'' : BodyState} {calm : Prop}

theorem Continues.trans (first : Continues ctx s s') (second : Continues ctx s' s'') :
    Continues ctx s s'' where
  formed := second.formed
  follows := first.follows.trans second.follows
  shapes := first.shapes.trans second.shapes
  outer := second.outer.trans first.outer

theorem Walked.continues (walked : Walked s s') (formed : Formed ctx s) : Continues ctx s s' :=
  ⟨walked.formed formed, walked.follows, walked.shapes, walked.outer⟩

theorem Continues.size_le (continues : Continues ctx s s') : s.locals.size ≤ s'.locals.size := by
  rw [← length_shapes, ← length_shapes]
  exact continues.shapes.length_le

theorem Proceeds.trans {bound bound' : List String} (first : Proceeds ctx s bound calm s')
    (second : Proceeds ctx s' bound' calm s'') : Proceeds ctx s (bound ++ bound') calm s'' where
  toContinues := first.toContinues.trans second.toContinues
  liveAfter := second.liveAfter.trans first.liveAfter
  names := by rw [second.names, first.names, List.append_assoc]
  backed allowed backed := second.backed allowed (first.backed allowed backed)

theorem Walked.proceeds (walked : Walked s s') (formed : Formed ctx s)
    (backed : calm → s.Backed → s'.Backed) : Proceeds ctx s [] calm s' where
  toContinues := walked.continues formed
  liveAfter := walked.liveAfter
  names := by rw [walked.names, List.append_nil]
  backed := backed

theorem Stepped.proceeds (stepped : Stepped s s') (formed : Formed ctx s) :
    Proceeds ctx s [] calm s' :=
  stepped.toWalked.proceeds formed fun _ => stepped.backed

theorem Stepped.andThen {bound : List String} (stepped : Stepped s s') (formed : Formed ctx s)
    (next : Proceeds ctx s' bound (calm ∧ s.Backed) s'') : Proceeds ctx s bound calm s'' where
  toContinues := (stepped.continues formed).trans next.toContinues
  liveAfter := next.liveAfter.trans stepped.liveAfter
  names := by rw [next.names, stepped.names]
  backed allowed backed := next.backed ⟨allowed, backed⟩ (stepped.backed backed)

/-! ## Bindings -/

theorem stepped_dropShadowed (formed : Formed ctx s)
    (clean : (dropShadowed ctx name s).2.problems = []) : Stepped s (dropShadowed ctx name s).2 ∧
    (dropShadowed ctx name s).2.loans = s.loans := by
  rcases dropShadowed_accepted formed.unpoisoned clean with ⟨_, same⟩ | ⟨id, slot, _, _, _, same⟩
  · rw [same]
    exact ⟨.refl formed, rfl⟩
  · rw [same]
    exact ⟨.consume formed id, rfl⟩

theorem continues_declare (formed : Formed ctx s) {slot : Slot}
    (bindable : ctx.Bindable slot.ty)
    (abilities : slot.abilities = ctx.abilities slot.ty) :
    Continues ctx s { s with locals := (s.locals.declare slot).2 } where
  formed := by
    refine ⟨formed.unpoisoned, formed.bounded, ?_, ?_, ?_⟩
    · simp [formed.dense, List.range_succ]
    · intro shape member
      rw [shapes_declare, List.mem_append, List.mem_singleton] at member
      rcases member with old | rfl
      · exact formed.bindable shape old
      · exact bindable
    · intro shape member
      rw [shapes_declare, List.mem_append, List.mem_singleton] at member
      rcases member with old | rfl
      · exact formed.abilities shape old
      · exact abilities
  follows := Loans.Follows.refl _
  shapes := by
    rw [shapes_declare]
    exact List.prefix_append _ _
  outer := rfl

theorem proceeds_declare (formed : Formed ctx s) (slot : Slot)
    (bindable : ctx.Bindable slot.ty)
    (abilities : slot.abilities = ctx.abilities slot.ty) (holds : slot.state.holdsValue = true)
    (live : calm → s.loans.AllLive slot.loans) :
    Proceeds ctx s [slot.name] calm { s with locals := (s.locals.declare slot).2 } where
  toContinues := continues_declare formed bindable abilities
  liveAfter := rfl
  names := by simp [names, Slot.shape]
  backed allowed backed := backed.declare holds (live allowed)

theorem proceeds_bind {value : Operand} (formed : Formed ctx s)
    (clean : (bind ctx name value s).2.problems = [])
    (bindable : ctx.Bindable value.ty)
    (live : calm → s.loans.AllLive value.loans) :
    Proceeds ctx s [name] calm (bind ctx name value s).2 := by
  obtain ⟨shadowed, same⟩ := bind_accepted clean
  obtain ⟨dropped, loans⟩ := stepped_dropShadowed formed shadowed
  rw [same]
  exact dropped.andThen formed (proceeds_declare (dropped.formed formed) (boundSlot ctx name value)
    bindable rfl rfl fun (allowed : calm ∧ s.Backed) => loans ▸ live allowed.1)

theorem lookup_fields_of_mem (member : name ∈ fields.map (·.1)) :
    ∃ ty, fields.lookup name = some ty := by
  obtain ⟨entry, inside, rfl⟩ := List.mem_map.mp member
  cases found : fields.lookup entry.1 with
  | some ty => exact ⟨ty, rfl⟩
  | none =>
    rw [List.lookup_eq_none_iff] at found
    simpa using found entry inside

theorem proceeds_bindFields {struct : String}
    (plain : ∀ entry ∈ fields, ctx.Plain entry.2)
    {binders : List (String × Binder)} (known : ∀ name ∈ binders.map (·.1), name ∈ fields.map (·.1))
    (formed : Formed ctx s) (clean : (bindFields ctx struct fields binders s).2.problems = []) :
    Proceeds ctx s (binders.filterMap (·.2.name?)) calm
    (bindFields ctx struct fields binders s).2 := by
  induction binders generalizing s with
  | nil => exact (Stepped.refl formed).proceeds formed
  | cons entry rest ih =>
    obtain ⟨field, binder⟩ := entry
    obtain ⟨here, others⟩ := List.forall_mem_cons.mp known
    obtain ⟨ty, found⟩ := lookup_fields_of_mem here
    have step := bindFields_accepted found clean
    cases binder with
    | bind name =>
      obtain ⟨bound, same⟩ := step
      have fieldPlain := plain _ (StructDef.mem_of_lookup found)
      have one : Proceeds ctx s [name] calm _ := proceeds_bind formed bound
        (Universe.isBindable_of_isPlain fieldPlain) fun _ => nothing_live
      rw [same] at clean ⊢
      exact one.trans (ih others one.formed clean)
    | ignore =>
      obtain ⟨_, same⟩ := step
      rw [same] at clean ⊢
      exact ih others formed clean

/-! ## Statements without blocks

Each lemma takes an accepted statement apart into its accepted expressions and the step behind them.
-/

theorem single_accepted (declared : ctx.types.Accepted) (next : Option Operand → Check Unit)
    [∀ operand, Honest (next operand)] (ends : Bool) (form : stmt ctx statement = (do
      next (← expr ctx value)
      return ends)) (formed : Formed ctx s) (clean : (stmt ctx statement s).2.problems = []) :
    ∃ operand s', Accepted ctx s value operand s' ∧ (next (some operand) s').2.problems = [] ∧
      stmt ctx statement s = (ends, (next (some operand) s').2) := by
  rw [form] at clean ⊢
  obtain ⟨operand, s', accepted⟩ := walks_expr declared value s formed
    (clean_first clean)
  rw [bind_apply, accepted.result] at clean ⊢
  exact ⟨operand, s', accepted, clean, rfl⟩

theorem Accepted.conditioned {operand : Operand} (accepted : Accepted ctx s cond operand s') :
    conditioned ctx cond s = released s' := by
  rw [Check.conditioned, accepted.result]
  rfl

theorem write_accepted {target : Expr} (declared : ctx.types.Accepted) (formed : Formed ctx s)
    (clean : (stmt ctx (.write target value) s).2.problems = []) :
    ∃ valueOperand s' targetOperand s'' inner, Accepted ctx s value valueOperand s' ∧
      Accepted ctx s' target targetOperand s'' ∧ targetOperand.ty = .ref true inner ∧
      valueOperand.ty.flowsInto inner = true ∧ (ctx.abilities inner).drop = true ∧
      stmt ctx (.write target value) s = (false, s'') := by
  rw [stmt] at clean ⊢
  obtain ⟨valueOperand, s', acceptedValue⟩ := walks_expr declared value s formed
    (clean_first clean)
  rw [bind_apply, acceptedValue.result] at clean ⊢
  obtain ⟨targetOperand, s'', acceptedTarget⟩ := walks_expr declared target s'
    (acceptedValue.walked.formed formed) (clean_first clean)
  rw [bind_apply, acceptedTarget.result] at clean ⊢
  obtain ⟨inner, form, flows, drops, same⟩ := writeStmt_accepted
    (clean_first clean)
  rw [bind_apply, same]
  exact ⟨valueOperand, s', targetOperand, s'', inner, acceptedValue, acceptedTarget, form, flows,
    drops, rfl⟩

/-- A condition was accepted; what its operand borrowed is free again. -/
theorem condition_accepted {α : Type} (next : Check α) [Honest next]
    (declared : ctx.types.Accepted) (formed : Formed ctx s)
    (clean : ((do expectOperand ctx site (← expr ctx cond) .bool; next : Check α) s).2.problems =
      []) :
    ∃ operand s', Accepted ctx s cond operand s' ∧ operand.ty.flowsInto .bool = true ∧
      (next s').2.problems = [] ∧
      (do expectOperand ctx site (← expr ctx cond) .bool; next : Check α) s = next s' := by
  obtain ⟨operand, s', accepted⟩ := walks_expr declared cond s formed
    (clean_first clean)
  rw [bind_apply, accepted.result] at clean ⊢
  obtain ⟨flows, same⟩ := expectOperand_accepted (clean_first clean)
  rw [bind_apply, same] at clean ⊢
  exact ⟨operand, s', accepted, flows, clean, rfl⟩

/-! ## Blocks -/

theorem formed_entered (formed : Formed ctx s) : Formed ctx (entered s) :=
  ⟨formed.unpoisoned, formed.bounded, by simpa [entered, size] using formed.dense,
    formed.bindable, formed.abilities⟩

theorem backed_entered (backed : s.Backed) : (entered s).Backed := by
  simpa [BodyState.Backed, Backed, entered, slot?] using backed

theorem leaves_left (inner : Continues ctx (entered s) s') : Leaves s (left s.liveAfter s') := by
  have popped : s'.locals.popScope = (s'.locals.scope,
      { s'.locals with scope := s.locals.scope, outer := s.locals.outer }) := by
    have outer : s'.locals.outer = s.locals.scope :: s.locals.outer := inner.outer
    simp [popScope, outer]
  refine ⟨inner.formed.unpoisoned, inner.formed.bounded, inner.follows, rfl, ?_, ?_, ?_⟩
  · have shapes := inner.shapes
    simpa [left, Locals.shapes, entered] using shapes
  · simp [left, popped]
  · simp [left, popped]

theorem leaves_released (leaves : Leaves s s') : Leaves s (released s') where
  unpoisoned := leaves.unpoisoned
  bounded := leaves.bounded.retain _
  follows := leaves.follows.trans (Loans.follows_retain _ _)
  liveAfter := leaves.liveAfter
  shapes := leaves.shapes
  scope := leaves.scope
  outer := leaves.outer

/-- The bindings of a block are those from where it began. -/
theorem mem_popScope (formed : Formed ctx s) (inner : Continues ctx (entered s) s')
    {id : Nat} : id ∈ s'.locals.popScope.1 ↔ s.locals.size ≤ id ∧ id < s'.locals.size := by
  have outer : s'.locals.outer = s.locals.scope :: s.locals.outer := inner.outer
  have popped : s'.locals.popScope.1 = s'.locals.scope := by simp [popScope, outer]
  have split : s.locals.visible ++ s'.locals.scope = List.range s'.locals.size := by
    rw [← inner.formed.dense]
    simp [visible, outer]
  rw [formed.dense] at split
  have sizes : s.locals.size ≤ s'.locals.size := by
    have lengths := congrArg List.length split
    simp at lengths
    omega
  obtain ⟨more, count⟩ := Nat.exists_eq_add_of_le sizes
  have scope : s'.locals.scope = (List.range more).map (s.locals.size + ·) := by
    rw [count, List.range_add] at split
    exact List.append_cancel_left split
  rw [popped, scope, count]
  simp only [List.mem_map, List.mem_range]
  constructor
  · rintro ⟨offset, within, rfl⟩
    exact ⟨Nat.le_add_right _ _, Nat.add_lt_add_left within _⟩
  · rintro ⟨least, most⟩
    exact ⟨id - s.locals.size, Nat.sub_lt_left_of_lt_add least most, Nat.add_sub_of_le least⟩

theorem backed_left (backed : s.Backed) (liveAfter : List String) : (left liveAfter s).Backed := by
  refine Locals.Backed.revise backed fun id visible slot found => .inr (.inr ?_)
  cases form : s.locals.outer with
  | nil => simp_all [left, Locals.popScope, Locals.visible, Locals.slot?]
  | cons scope rest =>
    simp_all [left, Locals.popScope, Locals.visible, Locals.slot?]
    exact visible.imp_right .inl

theorem leaves_inScope {walk : List String → Check Bool}
    (walks : (walk s.liveAfter (entered s)).2.problems = [] →
      Continues ctx (entered s) (walk s.liveAfter (entered s)).2)
    (clean : (inScope ctx walk s).2.problems = []) :
    Leaves s (inScope ctx walk s).2 ∧
      ((walk s.liveAfter (entered s)).2.Backed → (inScope ctx walk s).2.Backed) := by
  obtain ⟨inner, whenEnded, whenNot⟩ := inScope_accepted clean
  have continues := walks inner
  cases ended : (walk s.liveAfter (entered s)).1 with
  | true =>
    rw [whenEnded ended]
    exact ⟨leaves_left continues, fun backed => backed_left backed _⟩
  | false =>
    rw [(whenNot ended continues.formed.unpoisoned).1]
    exact ⟨leaves_released (leaves_left continues), fun backed => (backed_left backed _).retain⟩

end Continuing

section Blocks

variable {s : BodyState}

instance honest_walk (statements : List Stmt) : Honest (block ctx statements) := by
  unfold block
  infer_instance

instance honest_otherwise (statements : Option (List Stmt)) :
    Honest (otherwise ctx statements) := by
  cases statements <;> (unfold otherwise; infer_instance)

theorem stmt_branch (cond : Expr) (onTrue : List Stmt) (onFalse : Option (List Stmt)) :
    stmt ctx (.branch cond onTrue onFalse) = (do
      expectOperand ctx .branchCondition (← expr ctx cond) .bool
      branchPaths (block ctx onTrue) (otherwise ctx onFalse)) := by
  cases onFalse <;> (rw [stmt]; rfl)

theorem inScope_fst (walk : List String → Check Bool) (s : BodyState) :
    (inScope ctx walk s).1 = (walk s.liveAfter (entered s)).1 := by
  cases ended : (walk s.liveAfter (entered s)).1 <;> simp_all [inScope, entered]

mutual

/-- Whether a statement ends every path can be seen from the statement. -/
theorem stmt_fst : (statement : Stmt) → (s : BodyState) → (stmt ctx statement s).1 = statement.ends
  | .bind _ _ _, s | .unpack _ _ _, s | .assign _ _, s | .write _ _, s | .loop _ _, s | .ret none, s
  | .ret (some _), s | .abort _, s | .assert _ _, s | .eval _, s => by
    rw [stmt]
    rfl
  | .branch cond onTrue onFalse, s => by
    rw [stmt_branch, bind_apply, bind_apply, branchPaths_apply, mergePaths_apply]
    cases onFalse with
    | none => exact Bool.and_false _
    | some onFalse =>
      simp only [block, otherwise, inScope_fst, stmts_fst onTrue, stmts_fst onFalse, Stmt.ends]

theorem stmts_fst : (statements : List Stmt) → (outer : List String) → (s : BodyState) →
    (stmts ctx outer statements s).1 = Stmt.blockEnds statements
  | [], _, _ => by
    rw [stmts]
    rfl
  | statement :: rest, outer, s => by
    rw [stmts, bind_apply, settle_apply, stmt_fst statement, ite_apply, Stmt.blockEnds]
    cases statement.ends with
    | true => rfl
    | false => exact stmts_fst rest outer _

end

theorem expectOperand_of_flows {operand : Operand} {ty : Ty}
    (flows : operand.ty.flowsInto ty = true) :
    expectOperand ctx site (some operand) ty s = ((), s) := by
  simp [expectOperand, expect, flows]

theorem branch_accepted {onTrue : List Stmt} {onFalse : Option (List Stmt)}
    (declared : ctx.types.Accepted) (formed : Formed ctx s)
    (clean : (stmt ctx (.branch cond onTrue onFalse) s).2.problems = []) :
    ∃ operand s', Accepted ctx s cond operand s' ∧ operand.ty.flowsInto .bool = true ∧
      let before := released s'
      let first := block ctx onTrue before
      let second := otherwise ctx onFalse (rewind first.2 before.locals before.loans)
      first.2.problems = [] ∧ second.2.problems = [] ∧
      stmt ctx (.branch cond onTrue onFalse) s = (first.1 && second.1,
        merged before.locals.size ⟨first.2.locals, first.2.loans, first.1⟩ second.1 second.2) := by
  rw [stmt_branch] at clean ⊢
  obtain ⟨operand, s', accepted, flows, paths, same⟩ :=
    condition_accepted (branchPaths (block ctx onTrue) (otherwise ctx onFalse)) declared
      formed clean
  refine ⟨operand, s', accepted, flows, ?_⟩
  intro before first second
  rw [same]
  rw [branchPaths_apply, mergePaths_apply] at paths ⊢
  have secondClean : second.2.problems = [] := paths
  have rewound : (rewind first.2 before.locals before.loans).problems = [] :=
    clean_before (x := otherwise ctx onFalse) secondClean
  exact ⟨rewound, secondClean, rfl⟩

theorem loop_accepted {body : List Stmt} (declared : ctx.types.Accepted) (formed : Formed ctx s)
    (clean : (stmt ctx (.loop cond body) s).2.problems = []) :
    ∃ operand s', Accepted ctx s cond operand s' ∧ operand.ty.flowsInto .bool = true ∧
      let before := released s'
      let round := block ctx body { before with
        liveAfter := cond.names ++ Stmt.blockNames body ++ before.liveAfter }
      let after : BodyState := { round.2 with liveAfter := before.liveAfter }
      round.2.problems = [] ∧
      stmt ctx (.loop cond body) s = (false, merged before.locals.size
        ⟨after.locals, after.loans, round.1⟩ false (rewind after before.locals before.loans)) := by
  have form : stmt ctx (.loop cond body) = (do
      expectOperand ctx .loopCondition (← expr ctx cond) .bool
      (do
        loopPaths ctx (cond.names ++ Stmt.blockNames body) (block ctx body)
        return false)) := by
    rw [stmt]
    rfl
  rw [form] at clean ⊢
  obtain ⟨operand, s', accepted, flows, paths, same⟩ := condition_accepted _ declared formed clean
  refine ⟨operand, s', accepted, flows, ?_⟩
  obtain ⟨round, walked⟩ := loopPaths_accepted (clean_first paths)
  intro before
  refine ⟨round, ?_⟩
  rw [same, bind_apply, walked]
  rfl

/-- What a statement leaves alone and leaves on record, in a larger universe as well. -/
def WalksStmt (ctx : BodyContext) (statement : Stmt) : Prop :=
  ∀ s : BodyState, Formed ctx s → (stmt ctx statement s).2.problems = [] →
    Proceeds ctx s statement.binds (Calm ctx s.liveAfter [statement] s) (stmt ctx statement s).2 ∧
      (∀ {access}, (stmt ctx statement s).2.access.Within access →
        RecordedStmt ctx access s.locals.names statement) ∧
      ∀ {other}, ctx.types.Within other → stmt (ctx.linked other) statement s = stmt ctx statement s

/-- What a list of statements leaves alone and leaves on record, in a larger universe as well. -/
def WalksStmts (ctx : BodyContext) (statements : List Stmt) : Prop :=
  ∀ (outer : List String) (s : BodyState), Formed ctx s →
    (stmts ctx outer statements s).2.problems = [] →
    Continues ctx s (stmts ctx outer statements s).2 ∧
      (Calm ctx outer statements s → s.Backed → (stmts ctx outer statements s).2.Backed) ∧
      (∀ {access}, (stmts ctx outer statements s).2.access.Within access →
        RecordedBlock ctx access s.locals.names statements) ∧
      ∀ {other}, ctx.types.Within other →
        stmts (ctx.linked other) outer statements s = stmts ctx outer statements s

/-- Statements that evaluate one expression and go on with its value. -/
theorem walks_single (declared : ctx.types.Accepted)
    (next : BodyContext → Option Operand → Check Unit) [∀ operand, Honest (next ctx operand)]
    (ends : Bool) (form : ∀ ctx, stmt ctx statement = (do
      next ctx (← expr ctx value)
      return ends))
    (after : ∀ {s operand s'}, Formed ctx s → Accepted ctx s value operand s' →
      (next ctx (some operand) s').2.problems = [] →
      Proceeds ctx s statement.binds (Calm ctx s.liveAfter [statement] s)
      (next ctx (some operand) s').2 ∧
        (∀ {access}, Recorded ctx access s.locals.names value →
          RecordedStmt ctx access s.locals.names statement) ∧
        ∀ {other}, ctx.types.Within other →
          next (ctx.linked other) (some operand) s' = next ctx (some operand) s') :
    WalksStmt ctx statement := by
  intro s formed clean
  obtain ⟨operand, s', accepted, rest, same⟩ :=
    single_accepted declared (next ctx) ends (form ctx) formed clean
  obtain ⟨proceeds, recorded, linked⟩ := after formed accepted rest
  rw [same]
  refine ⟨proceeds, fun known => recorded (accepted.recorded ((known_behind s').trans known)),
    fun within => ?_⟩
  simp only [form, bind_apply, accepted.linked within, linked within]
  rfl

/-- What a block leaves alone and leaves on record, in a larger universe as well. -/
structure WalkedBlock (ctx : BodyContext) (statements : List Stmt) (s : BodyState) : Prop where
  leaves : Leaves s (block ctx statements s).2
  backed : Calm ctx s.liveAfter statements (entered s) → s.Backed →
    (block ctx statements s).2.Backed
  recorded {access : Access} : (block ctx statements s).2.access.Within access →
    RecordedBlock ctx access s.locals.names statements
  linked {other : Universe} : ctx.types.Within other →
    block (ctx.linked other) statements s = block ctx statements s

theorem walks_block (walks : WalksStmts ctx statements) (formed : Formed ctx s)
    (clean : (block ctx statements s).2.problems = []) : WalkedBlock ctx statements s := by
  obtain ⟨goesOn, backs, recorded, linked⟩ :=
    walks _ _ (formed_entered formed) (inScope_accepted clean).1
  obtain ⟨leaves, keeps⟩ := leaves_inScope (fun _ => goesOn) clean
  have kept : Kept (stmts ctx s.liveAfter statements (entered s)).2 (block ctx statements s).2 := by
    simp only [block, inScope, bind_apply, modify_apply, get_apply, set_apply]
    exact later_after (.refl _)
  exact ⟨leaves, fun calm backed => keeps (backs calm (backed_entered backed)),
    fun known => recorded (kept.2.trans known), fun within => inScope_linked (linked within)⟩

/-- A rewound path has what its start has. -/
theorem backed_rewind {before first : BodyState} (backed : before.Backed) :
    (rewind first before.locals before.loans).Backed :=
  Backed.release backed fun _ _ live => live

theorem walked_expire (formed : Formed ctx s) (live : List String) :
    Walked s { s with locals := s.locals.expire live } :=
  have scopes := scopes_expire s.locals live
  .of_locals formed (shapes_expire s.locals live) scopes.1 scopes.2

theorem stepped_settle (formed : Formed ctx s) :
    Stepped s (released { s with locals := s.locals.expire s.liveAfter }) :=
  have walked := walked_expire formed s.liveAfter
  ⟨walked.trans (.released (walked.formed formed)), fun backed => (backed.expire _).retain⟩

theorem stmts_cons_accepted {rest : List Stmt} {outer : List String}
    (clean : (stmts ctx outer (statement :: rest) s).2.problems = []) :
    let start : BodyState := s.facing rest outer
    let walked := stmt ctx statement start
    let settled := released { walked.2 with locals := walked.2.locals.expire walked.2.liveAfter }
    walked.2.problems = [] ∧
      (walked.1 = true → stmts ctx outer (statement :: rest) s = (true, settled)) ∧
      (walked.1 = false → (stmts ctx outer rest settled).2.problems = [] ∧
        stmts ctx outer (statement :: rest) s = stmts ctx outer rest settled) := by
  intro start walked settled
  have form : stmts ctx outer (statement :: rest) s =
      (if walked.1 then pure true else stmts ctx outer rest : Check Bool) settled := by
    rw [stmts]
    rfl
  rw [form] at clean ⊢
  have settledClean : settled.problems = [] := clean_before clean
  refine ⟨settledClean, ?_, ?_⟩
  · intro ended
    simp [ended]
  · intro ended
    simp only [ended, Bool.false_eq_true, if_false] at clean ⊢
    exact ⟨clean, trivial⟩

/-! ### One form at a time -/

variable {struct : StructExpr} {binders : List (String × Binder)} {type : Option TypeExpr}
  {cond target code : Expr} {onTrue body : List Stmt} {onFalse : Option (List Stmt)}

theorem leaves_otherwise {statements : Option (List Stmt)}
    (walks : ∀ block ∈ statements, WalksStmts ctx block) (formed : Formed ctx s)
    (clean : (otherwise ctx statements s).2.problems = []) :
    Leaves s (otherwise ctx statements s).2 ∧
      ((∀ block ∈ statements, Calm ctx s.liveAfter block (entered s)) → s.Backed →
        (otherwise ctx statements s).2.Backed) ∧
      (∀ {access}, (otherwise ctx statements s).2.access.Within access →
        ∀ block ∈ statements, RecordedBlock ctx access s.locals.names block) ∧
      ∀ {other}, ctx.types.Within other →
        otherwise (ctx.linked other) statements s = otherwise ctx statements s := by
  cases statements with
  | none =>
    exact ⟨(Walked.refl formed).toLeaves, fun _ backed => backed,
      fun _ _ never => absurd never (Option.not_mem_none _), fun _ => rfl⟩
  | some statements =>
    have walked := walks_block (walks _ rfl) formed clean
    refine ⟨walked.leaves, fun calm => walked.backed (calm _ rfl), ?_, walked.linked⟩
    intro access known block same
    obtain rfl := Option.some.inj same
    exact walked.recorded known

theorem walks_bind (declared : ctx.types.Accepted) : WalksStmt ctx (.bind name type value) :=
  walks_single declared (bindStmt · name type) false (fun _ => rfl) fun formed accepted rest => by
    obtain ⟨ty, _, bindable, step⟩ := bindStmt_accepted accepted.bindable rest
    refine ⟨?_, fun recorded => recorded,
      fun within => bindStmt_linked within accepted.bindable rest⟩
    rw [step] at rest ⊢
    exact accepted.stepped.andThen formed (proceeds_bind (accepted.walked.formed formed) rest
      bindable fun calm => accepted.live calm.2 (calm.1 .here _ _ rfl))

theorem walks_unpack (declared : ctx.types.Accepted) :
    WalksStmt ctx (.unpack struct binders value) :=
  walks_single declared (unpackStmt · struct binders) false (fun _ => rfl) fun formed
    accepted rest => by
    obtain ⟨tag, fields, resolved, _, instantiated, covered, step⟩ := unpackStmt_accepted rest
    refine ⟨?_, fun recorded => recorded, fun within => unpackStmt_linked within declared rest⟩
    rw [step] at rest ⊢
    obtain ⟨definition, found, rfl⟩ := Option.map_eq_some_iff.mp instantiated
    have covers := StructDef.perm_of_faultless (declared.fields_nodup found) covered
    rw [← StructDef.names_fieldsAt] at covers
    have plain := Universe.isPlain_resolveStruct resolved
    exact accepted.stepped.andThen formed (proceeds_bindFields
      (fun entry member => isPlain_fieldsAt declared plain found member)
      (fun _ => covers.mem_iff.mp) (accepted.walked.formed formed) rest)

theorem walks_assign (declared : ctx.types.Accepted) : WalksStmt ctx (.assign name value) :=
  walks_single declared (assignStmt · name) false (fun _ => rfl) fun {_ operand s'} formed
    accepted rest => by
    have after := accepted.walked.formed formed
    obtain ⟨id, slot, found, _, _, _, _, step⟩ := assignStmt_accepted after.unpoisoned rest
    refine ⟨?_, fun recorded => ⟨recorded, accepted.walked.names ▸ mem_names_of_lookup found⟩,
      fun _ => rfl⟩
    have assigned : Walked s' { s' with locals := s'.locals.modify id fun slot =>
        { slot with state := .live, loans := operand.loans, place := operand.place } } :=
      .of_locals after (shapes_modify fun _ => rfl) rfl rfl
    rw [step]
    exact (accepted.walked.trans assigned).proceeds formed fun calm backed =>
      (accepted.stepped.backed backed).modify id fun _ =>
        .inr ⟨rfl, accepted.live backed (calm .here _ _ rfl)⟩

theorem walks_write (declared : ctx.types.Accepted) : WalksStmt ctx (.write target value) := by
  intro s formed clean
  obtain ⟨_, _, _, _, _, acceptedValue, acceptedTarget, _, _, _, same⟩ :=
    write_accepted declared formed clean
  refine ⟨?_, fun known => acceptedValue.both acceptedTarget (by rwa [same] at known),
    fun within => ?_⟩
  · rw [same]
    exact (acceptedValue.stepped.trans acceptedTarget.stepped).proceeds formed
  · rw [stmt, stmt]
    simp only [bind_apply, acceptedValue.linked within, acceptedValue.result,
      acceptedTarget.linked within, acceptedTarget.result,
      writeStmt_linked within acceptedTarget.bindable]

theorem walks_branch (declared : ctx.types.Accepted) (whenTrue : WalksStmts ctx onTrue)
    (whenFalse : ∀ block ∈ onFalse, WalksStmts ctx block) :
    WalksStmt ctx (.branch cond onTrue onFalse) := by
  intro s formed clean
  obtain ⟨operand, s', accepted, flows, firstClean, secondClean, same⟩ :=
    branch_accepted declared formed clean
  have entry := accepted.stepped.trans (.released (accepted.walked.formed formed))
  have before := entry.formed formed
  have walked := walks_block whenTrue before firstClean
  have first := walked.leaves
  obtain ⟨second, backs, recorded, linked⟩ :=
    leaves_otherwise whenFalse (formed_rewind before first) secondClean
  rw [same]
  refine ⟨(entry.toWalked.trans (.merge _ _ before first second)).proceeds formed ?_, ?_, ?_⟩
  · intro calm backed
    refine backed_merged before first second (walked.backed ?_ (entry.backed backed))
      (backs ?_ (backed_rewind (entry.backed backed)))
    · rw [← accepted.conditioned]
      exact fun spot => calm (.into .onTrue spot)
    · rintro statements rfl
      rw [← accepted.conditioned]
      exact fun spot => calm (.into .onFalse spot)
  · intro access known
    have behind := (known_behind (x := otherwise ctx onFalse) _).trans known
    have condition := accepted.recorded
      ((known_behind (x := block ctx onTrue) (released s')).trans behind)
    have whenTrue := accepted.walked.names ▸ walked.recorded behind
    cases onFalse with
    | none => exact ⟨condition, whenTrue⟩
    | some onFalse => exact ⟨condition, whenTrue, accepted.walked.names ▸ recorded known _ rfl⟩
  · intro other within
    rw [← same, stmt_branch, stmt_branch]
    simp only [bind_apply, accepted.linked within, accepted.result, expectOperand_of_flows flows,
      branchPaths_apply, walked.linked within, linked within]

theorem walks_loop (declared : ctx.types.Accepted) (walks : WalksStmts ctx body) :
    WalksStmt ctx (.loop cond body) := by
  intro s formed clean
  obtain ⟨operand, s', accepted, flows, roundClean, same⟩ := loop_accepted declared formed clean
  have entry := accepted.stepped.trans (.released (accepted.walked.formed formed))
  have before := entry.formed formed
  have inside := before.reading
    (cond.names ++ Stmt.blockNames body ++ (Check.released s').liveAfter)
  have round := walks_block walks inside roundClean
  have first := round.leaves.round
  have second := (Walked.refl (formed_rewind before first)).toLeaves
  rw [same]
  refine ⟨(entry.toWalked.trans (.merge _ _ before first second)).proceeds formed ?_, ?_, ?_⟩
  · intro calm backed
    refine backed_merged before first second (round.backed ?_ (entry.backed backed))
      (backed_rewind (entry.backed backed))
    rw [← accepted.conditioned]
    exact fun spot => calm (.into .body spot)
  · intro access known
    have behind := (known_behind (x := block ctx body) _).trans known
    exact ⟨accepted.recorded behind, accepted.walked.names ▸ round.recorded known⟩
  · intro other within
    rw [← same, stmt, stmt]
    simp only [bind_apply, accepted.linked within, accepted.result, expectOperand_of_flows flows]
    exact congrArg
      (fun result : Unit × BodyState => (false, result.2)) (loopPaths_linked (round.linked within))

theorem walks_return : WalksStmt ctx (.ret none) := by
  intro s formed clean
  refine ⟨?_, fun _ => trivial, fun _ => by rw [stmt, stmt]; rfl⟩
  rw [stmt] at clean ⊢
  obtain ⟨_, _, _, same⟩ := returnStmt_accepted formed.unpoisoned
    (clean_first clean)
  rw [bind_apply, same]
  exact (Stepped.refl formed).proceeds formed

theorem walks_returnValue (declared : ctx.types.Accepted) : WalksStmt ctx (.ret (some value)) :=
  walks_single declared returnStmt true (fun _ => rfl) fun formed accepted rest => by
    obtain ⟨_, _, _, step⟩ := returnStmt_accepted (accepted.walked.formed formed).unpoisoned rest
    exact ⟨step ▸ accepted.stepped.proceeds formed, fun recorded => recorded, fun _ => rfl⟩

theorem walks_abort (declared : ctx.types.Accepted) : WalksStmt ctx (.abort code) :=
  walks_single declared (expectOperand · .abortCode · .u64) true (fun _ => rfl)
    fun formed accepted rest => by
      obtain ⟨_, step⟩ := expectOperand_accepted rest
      exact ⟨step ▸ accepted.stepped.proceeds formed, fun recorded => recorded, fun _ => rfl⟩

theorem walks_assert {code : BitVec 64} (declared : ctx.types.Accepted) :
    WalksStmt ctx (.assert cond code) :=
  walks_single declared (expectOperand · .assertCondition · .bool) false (fun _ => rfl)
    fun formed accepted rest => by
      obtain ⟨_, step⟩ := expectOperand_accepted rest
      exact ⟨step ▸ accepted.stepped.proceeds formed, fun recorded => recorded, fun _ => rfl⟩

theorem walks_eval (declared : ctx.types.Accepted) : WalksStmt ctx (.eval value) :=
  walks_single declared discardStmt false (fun _ => rfl) fun formed accepted rest => by
    obtain ⟨_, step⟩ := discardStmt_accepted rest
    exact ⟨step ▸ accepted.stepped.proceeds formed, fun recorded => recorded,
      fun within => discardStmt_linked within accepted.bindable⟩

theorem walks_nil : WalksStmts ctx [] := by
  intro outer s formed clean
  rw [stmts]
  exact ⟨(Walked.refl formed).continues formed, fun _ backed => backed, fun _ => trivial,
    fun _ => by rw [stmts]⟩

theorem walks_cons {rest : List Stmt} (first : WalksStmt ctx statement)
    (walks : WalksStmts ctx rest) : WalksStmts ctx (statement :: rest) := by
  intro outer s formed clean
  obtain ⟨walkedClean, whenEnded, whenNot⟩ := stmts_cons_accepted clean
  have start := formed.reading (Stmt.blockNames rest ++ outer)
  obtain ⟨head, recorded, linked⟩ := first _ start walkedClean
  have settled := stepped_settle head.formed
  have whole := head.toContinues.trans (settled.continues head.formed)
  have one : Continues ctx s _ := ⟨whole.formed, whole.follows, whole.shapes, whole.outer⟩
  cases ended : (stmt ctx statement (s.facing rest outer)).1 with
  | true =>
    rw [whenEnded ended]
    refine ⟨one, fun calm backed => settled.backed (head.backed calm.head backed),
      fun known => ⟨recorded known, fun goes => ?_⟩, fun within => ?_⟩
    · exact absurd (goes.symm.trans ((stmt_fst statement _).symm.trans ended)) Bool.false_ne_true
    · rw [← whenEnded ended, stmts, stmts]
      simp only [bind_apply, settle_apply, linked within, ended, if_true]
  | false =>
    obtain ⟨restClean, same⟩ := whenNot ended
    have tail := walks outer _ one.formed restClean
    rw [same]
    refine ⟨one.trans tail.1, fun calm backed =>
      tail.2.1 (calm.tail ended) (settled.backed (head.backed calm.head backed)),
      fun known => ?_, fun within => ?_⟩
    · have behind := (known_behind (x := stmts ctx outer rest) _).trans known
      exact ⟨recorded behind, fun _ => settled.names.trans head.names ▸ tail.2.2.1 known⟩
    · rw [stmts]
      simp only [bind_apply, settle_apply, linked within, ended, Bool.false_eq_true, if_false]
      exact tail.2.2.2 within

mutual

theorem walks_stmt (declared : ctx.types.Accepted) : (statement : Stmt) → WalksStmt ctx statement
  | .bind .. => walks_bind declared
  | .unpack .. => walks_unpack declared
  | .assign .. => walks_assign declared
  | .write .. => walks_write declared
  | .branch _ onTrue none => walks_branch declared (walks_stmts declared onTrue)
    fun _ never => absurd never (Option.not_mem_none _)
  | .branch _ onTrue (some onFalse) => walks_branch declared (walks_stmts declared onTrue)
    fun _ same => Option.some.inj same ▸ walks_stmts declared onFalse
  | .loop _ body => walks_loop declared (walks_stmts declared body)
  | .ret none => walks_return
  | .ret (some _) => walks_returnValue declared
  | .abort _ => walks_abort declared
  | .assert .. => walks_assert declared
  | .eval _ => walks_eval declared

theorem walks_stmts (declared : ctx.types.Accepted) :
    (statements : List Stmt) → WalksStmts ctx statements
  | [] => walks_nil
  | statement :: rest => walks_cons (walks_stmt declared statement) (walks_stmts declared rest)

end

/-- Checking comes to a block of an accepted statement with the bindings the statement begins
with. -/
theorem arm_accepted {arm : Arm} {entry : BodyState} (declared : ctx.types.Accepted)
    (formed : Formed ctx s) (clean : (stmt ctx statement s).2.problems = [])
    (found : arm? ctx arm statement s = some (statements, entry)) :
    Formed ctx entry ∧ entry.locals.names = s.locals.names ∧ (s.Backed → entry.Backed) ∧
      (block ctx statements entry).2.problems = [] := by
  cases statement with
  | branch cond onTrue onFalse =>
    obtain ⟨_, s', accepted, _, firstClean, secondClean, _⟩ := branch_accepted declared formed clean
    have step := accepted.stepped.trans (.released (accepted.walked.formed formed))
    rw [← accepted.conditioned] at firstClean secondClean step
    have before := step.formed formed
    cases arm with
    | onTrue =>
      cases found
      exact ⟨before, step.names, step.backed, firstClean⟩
    | onFalse =>
      cases onFalse <;> cases found
      exact ⟨formed_rewind before
        (walks_block (walks_stmts declared onTrue) before firstClean).leaves,
        step.names, fun backed => backed_rewind (step.backed backed), secondClean⟩
    | body => cases found
  | loop cond body =>
    obtain ⟨_, s', accepted, _, roundClean, _⟩ := loop_accepted declared formed clean
    have step := accepted.stepped.trans (.released (accepted.walked.formed formed))
    rw [← accepted.conditioned] at roundClean step
    cases arm <;> cases found
    exact ⟨(step.formed formed).reading _, step.names, step.backed, roundClean⟩
  | _ => cases arm <;> cases found

end Blocks

/-! ## Whole bodies -/

section Bodies

variable {s : BodyState}

theorem reportAll_accepted {faults : List Fault}
    (clean : (reportAll ctx site faults s).2.problems = []) :
    reportAll ctx site faults s = (⟨⟩, s) := by
  obtain ⟨none, faultless⟩ := List.append_eq_nil_iff.mp clean
  rw [reportAll_apply, faultless, List.append_nil]

theorem formed_empty : Formed ctx {} where
  unpoisoned := rfl
  bounded _ _ found := nomatch found
  dense := rfl
  bindable _ member := nomatch member
  abilities _ member := nomatch member

/-- A parameter is declared as a live binding; a reference comes with a loan of its own, for what
the parameter points at. -/
theorem declareParam_eq (ctx : BodyContext) (name : String) (ty : Ty) (s : BodyState) :
    ∃ slot : Slot, slot.shape = (name, ty, ctx.abilities ty) ∧ slot.state = .live ∧
      ((ty.isRef = false ∧ (declareParam ctx name ty s).2 =
          { s with locals := (s.locals.declare slot).2 }) ∨
        ∃ loan : Loan, s.loans.next ∈ slot.loans ∧ (∀ mutable inner, ty = .ref mutable inner →
            loan.place = { root := .param s.locals.size } ∧ loan.mode = .ofMutable mutable) ∧
          (declareParam ctx name ty s).2 =
            { s with loans := (s.loans.insert loan).2, locals := (s.locals.declare slot).2 }) := by
  cases ty with
  | ref mutable inner =>
    refine ⟨{ name, ty := .ref mutable inner, abilities := _, loans := _, place := _ }, rfl, rfl,
      .inr ⟨⟨{ root := .param s.locals.size }, .ofMutable mutable, ∅⟩, ?_, ?_, rfl⟩⟩
    · exact SortedSet.mem_ofList.mpr (List.mem_singleton.mpr rfl)
    · intro mutable' inner' same
      obtain ⟨rfl, rfl⟩ := Ty.ref.inj same
      exact ⟨rfl, rfl⟩
  | _ => exact ⟨{ name, ty := _, abilities := _ }, rfl, rfl, .inl ⟨rfl, rfl⟩⟩

theorem params_cons_accepted {seen : List String} {ty : Ty} {rest : List (String × Ty)}
    (clean : (params ctx seen ((name, ty) :: rest) s).2.problems = []) :
    (params ctx (name :: seen) rest (declareParam ctx name ty s).2).2.problems = [] ∧
      params ctx seen ((name, ty) :: rest) s =
        params ctx (name :: seen) rest (declareParam ctx name ty s).2 := by
  by_cases again : name ∈ seen
  · simp only [params, again, if_true] at clean
    have reported := clean_first clean
    simp at reported
  · simp only [params, again, if_false] at clean ⊢
    have faultless := reportAll_accepted (clean_first clean)
    rw [bind_apply, faultless] at clean ⊢
    exact ⟨clean, rfl⟩

theorem proceeds_declareParam (formed : Formed ctx s) (name : String) {ty : Ty}
    (bindable : ctx.Bindable ty) :
    Proceeds ctx s [name] True (declareParam ctx name ty s).2 := by
  let slot : Slot := { name := name, ty := ty, abilities := ctx.abilities ty }
  cases ty with
  | ref mutable inner =>
    let place : Place := { root := .param s.locals.size }
    have granted := Stepped.grant formed ⟨place, .ofMutable mutable, ∅⟩ s.access
    exact granted.andThen formed (proceeds_declare (granted.formed formed)
      { slot with loans := SortedSet.ofList [s.loans.next], place := some place } bindable rfl rfl
      fun (_ : True ∧ s.Backed) => nothing_live.granted _)
  | _ => exact proceeds_declare formed slot bindable rfl rfl fun _ => nothing_live

theorem proceeds_params {declared : List (String × Ty)}
    (bindable : ∀ param ∈ declared, ctx.Bindable param.2)
    (seen : List String) (formed : Formed ctx s)
    (clean : (params ctx seen declared s).2.problems = []) :
    Proceeds ctx s (declared.map (·.1)) True (params ctx seen declared s).2 := by
  induction declared generalizing seen s with
  | nil => exact (Stepped.refl formed).proceeds formed
  | cons param rest ih =>
    obtain ⟨restClean, same⟩ := params_cons_accepted clean
    rw [same]
    have first := proceeds_declareParam formed param.1 (bindable _ List.mem_cons_self)
    exact first.trans (ih
      (fun other member => bindable other (List.mem_cons_of_mem _ member)) _ first.formed restClean)

/-- An accepted body starts with its parameters in scope. -/
theorem proceeds_started (declared : ctx.types.Accepted)
    (registered : ctx.types.function? ctx.signature.id = some ctx.signature)
    (clean : (started ctx).problems = []) :
    Proceeds ctx {} (ctx.signature.params.map (·.1)) True (started ctx) :=
  proceeds_params (declared.params_bindable registered) [] formed_empty clean

/-- The end of a body that is reached. -/
def closing (ctx : BodyContext) (ended : Bool) : Check Unit :=
  unless ended do
    if ctx.signature.ret ≠ .unit then
      report ctx .endOfFunction (.mismatch (.type ctx.signature.ret) .unit)
    let state ← get
    checkUnconsumed ctx .endOfFunction state.locals.visible

instance honest_closing (ended : Bool) : Honest (closing ctx ended) := by
  unfold closing
  infer_instance

theorem closing_accepted (unpoisoned : s.poisoned = [])
    (clean : (closing ctx false s).2.problems = []) :
    ctx.signature.ret = .unit ∧ ∀ id ∈ s.locals.visible, ∀ slot, s.locals.slot? id = some slot →
      slot.isOwed = false := by
  by_cases unit : ctx.signature.ret = .unit
  · have same : closing ctx false s = checkUnconsumed ctx .endOfFunction s.locals.visible s := by
      simp [closing, unit]
    rw [same] at clean
    exact ⟨unit, (checkUnconsumed_accepted unpoisoned clean).2⟩
  · have reported : (checkUnconsumed ctx .endOfFunction s.locals.visible
        (report ctx .endOfFunction (.mismatch (.type ctx.signature.ret) .unit) s).2).2.problems =
        [] := by
      simpa [closing, unit] using clean
    have none := clean_before reported
    simp at none

theorem runBody_eq (statements : List Stmt) : runBody ctx statements = ((do
      reportAll ctx .returnType (ctx.constraintFaults ctx.signature.ret)
      let ended ← block ctx statements
      closing ctx ended : Check Unit) (started ctx)).2 := rfl

theorem body_accepted (clean : (runBody ctx statements).problems = []) :
    (started ctx).problems = [] ∧ (block ctx statements (started ctx)).2.problems = [] ∧
      ((block ctx statements (started ctx)).1 = false →
        (block ctx statements (started ctx)).2.poisoned = [] →
        ctx.signature.ret = .unit ∧ ∀ id ∈ (block ctx statements (started ctx)).2.locals.visible,
          ∀ slot, (block ctx statements (started ctx)).2.locals.slot? id = some slot →
            slot.isOwed = false) := by
  rw [runBody_eq] at clean
  have faultless := reportAll_accepted (clean_first clean)
  rw [bind_apply, faultless] at clean
  have walked := clean_first clean
  refine ⟨clean_before walked, walked, fun goes unpoisoned => ?_⟩
  rw [bind_apply, goes] at clean
  exact closing_accepted unpoisoned clean

/-- Everything that an accepted body may evaluate is on the record that its walk leaves behind. -/
theorem recorded_body (declared : ctx.types.Accepted)
    (registered : ctx.types.function? ctx.signature.id = some ctx.signature)
    (clean : (runBody ctx statements).problems = []) :
    RecordedBlock ctx (runBody ctx statements).access (ctx.signature.params.map (·.1))
    statements := by
  obtain ⟨startedClean, walked, _⟩ := body_accepted clean
  have start := proceeds_started declared registered startedClean
  have names : (started ctx).locals.names = ctx.signature.params.map (·.1) := start.names
  rw [← names]
  refine (walks_block (walks_stmts declared statements) start.formed walked).recorded ?_
  rw [runBody_eq] at clean ⊢
  have faultless := reportAll_accepted (clean_first clean)
  rw [bind_apply, faultless, bind_apply]
  exact known_behind (x := closing ctx _) _

/-- A body that is accepted against a declared signature is walked alike in the larger universe. -/
theorem runBody_linked {other : Universe} (within : ctx.types.Within other)
    (declared : ctx.types.Accepted)
    (params : ∀ param ∈ ctx.signature.params, ctx.Bindable param.2)
    (ret : ctx.Bindable ctx.signature.ret)
    (clean : (runBody ctx statements).problems = []) :
    runBody (ctx.linked other) statements = runBody ctx statements := by
  obtain ⟨startedClean, blockClean, _⟩ := body_accepted clean
  have formed : Formed ctx (started ctx) :=
    (proceeds_params params [] formed_empty startedClean).formed
  have same : started (ctx.linked other) = started ctx :=
    congrArg Prod.snd (congrFun (params_linked within params []) {})
  have walked := (walks_block (walks_stmts declared statements) formed blockClean).linked within
  rw [runBody_eq] at clean
  have reported := reportAll_accepted (clean_first clean)
  have reported' : reportAll (ctx.linked other) .returnType (ctx.constraintFaults ctx.signature.ret)
    (started ctx) = _ := reported
  simp only [runBody_eq, bind_apply, same, BodyContext.linked_signature,
    constraintFaults_linked within ret, reported', reported, walked]
  rfl

end Bodies

end Check

end Custody
