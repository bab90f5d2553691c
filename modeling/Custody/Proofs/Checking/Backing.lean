import Custody.Proofs.Checking.BlockWalks
/-!
# References keep their loans

A reference that a binding holds is safe as long as its loans are in the table: every later grant,
access, end of scope and return is checked against what is there. Operations let go of the loans
their operands held, and ask only whether a binding still holds them. An operand that waits for the
same call is not asked, so the result of a call may carry a loan that has ended. Only by keeping
such a result does a binding come to hold a loan that is not in the table.
-/

namespace Custody

namespace Check

/-! ## What a loan stands in the way of -/

/-- What the loan excludes is refused. -/
structure Sees (ctx : BodyContext) (s : BodyState) (id : LoanId) (loan : Loan) : Prop where
  granted : ∀ place mode, loan.blocks place mode = true →
    (s.loans.conflicting? place mode).isSome = true
  accessed : ∀ place mode held, loan.blocks place mode = true → id ∉ s.loans.ancestors held →
    (s.loans.conflictingAccess? place mode held).isSome = true
  outlived : ∀ ended binding slot, loan.place.root = .local binding → binding ∈ ended →
    s.locals.slot? binding = some slot → (checkOutlived ctx ended s).2.problems ≠ []
  returned : ∀ operand, id ∈ operand.loans → (∀ param, loan.place.root ≠ .param param) →
    (checkReturned ctx operand s).2.problems ≠ []

section States

variable {ctx : BodyContext} {s : BodyState}

theorem sees_of_get? {id : LoanId} {loan : Loan} (live : s.loans.get? id = some loan) :
    Sees ctx s id loan where
  granted place mode blocks :=
    List.find?_isSome.mpr ⟨loan, Table.mem_values_of_get? live, blocks⟩
  accessed place mode held blocks foreign := by
    rw [Loans.conflictingAccess?, Option.isSome_map, List.find?_isSome]
    refine ⟨(id, loan), Table.mem_entries_of_get? live, ?_⟩
    simpa [blocks, ← SortedSet.contains_iff] using foreign
  outlived ended binding slot root member present clean := by
    have gone := (checkOutlived_accepted clean).2 id loan binding live root member
    cases gone.symm.trans present
  returned operand held foreign clean := by
    obtain ⟨param, root⟩ := (checkReturned_accepted clean).2 id held loan live
    exact foreign param root

/-! ## Along a body -/

theorem backed_visit (declared : ctx.types.Accepted) (spot : Spot) {outer : List String}
    {statements : List Stmt} {statement : Stmt} {state : BodyState} (formed : Formed ctx s)
    (clean : (stmts ctx outer statements s).2.problems = []) (calm : Calm ctx outer statements s)
    (backed : s.Backed) (found : visit? ctx outer spot statements s = some (statement, state)) :
    state.Backed ∧ (settle state.liveAfter (stmt ctx statement) state).2.Backed := by
  induction spot generalizing outer statements s with
  | here =>
    cases statements <;> cases found
    obtain ⟨headClean, _⟩ := stmts_cons_accepted clean
    have ⟨head, _⟩ := walks_stmt declared statement _ (formed.reading _) headClean
    exact ⟨backed, (stepped_settle head.formed).backed (head.backed calm.head backed)⟩
  | later spot ih =>
    cases statements with
    | nil => cases found
    | cons first rest =>
      obtain ⟨headClean, _, whenNot⟩ := stmts_cons_accepted clean
      have ⟨head, _⟩ := walks_stmt declared first _ (formed.reading _) headClean
      have settled := stepped_settle head.formed
      cases goes : (stmt ctx first (s.facing rest outer)).1 with
      | true => simp [visit?, settle_apply, goes] at found
      | false =>
        rw [visit?_later spot goes] at found
        exact ih (settled.formed head.formed) (whenNot goes).1 (calm.tail goes)
          (settled.backed (head.backed calm.head backed)) found
  | into arm spot ih =>
    cases statements with
    | nil => cases found
    | cons first rest =>
      obtain ⟨headClean, _⟩ := stmts_cons_accepted clean
      obtain ⟨⟨inner, entry⟩, here, inside⟩ := Option.bind_eq_some_iff.mp found
      obtain ⟨formed', _, backed', blockClean⟩ :=
        arm_accepted declared (formed.reading _) headClean here
      refine ih (formed_entered formed') (inScope_accepted blockClean).1 ?_
        (backed_entered (backed' backed)) inside
      intro deeper visited state' reached
      exact calm (.into arm deeper) visited state' (Option.bind_eq_some_iff.mpr ⟨_, here, reached⟩)

end States

end Check

open Check

/-- In an accepted body every loan of a binding that has a value is in the table before and behind
every statement, unless the body keeps the result of a call whose loans have ended. -/
theorem bindings_keep_their_loans {modules : List Module} {program : Program}
    (checked : check modules = .ok program) {function : FunctionId} {decl : FunctionDecl}
    (declared : program.function? function = some decl) {signature : Signature}
    (registered : program.types.function? function = some signature) :
    let ctx : BodyContext := ⟨program.types, signature⟩
    (∀ spot statement state, visited? ctx decl.body spot = some (statement, state) →
      lapsesAt ctx statement state = false) →
    ∀ spot statement before, visited? ctx decl.body spot = some (statement, before) →
      ∀ s ∈ [before, (settle before.liveAfter (stmt ctx statement) before).2],
      ∀ binding ∈ s.locals.visible, ∀ slot, s.locals.slot? binding = some slot →
        slot.state.holdsValue = true → ∀ id ∈ slot.loans,
          ∃ loan, s.loans.get? id = some loan ∧ Sees ctx s id loan := by
  intro ctx calm spot statement before found s among binding visible slot present _ id member
  have sound := accepted_of_check checked
  obtain ⟨_, body⟩ := sound.function declared
  obtain rfl := Option.mem_unique body.registered registered
  obtain ⟨startClean, blockClean, _⟩ := body_accepted body.body
  have same := sound.types.function_id registered
  have start := proceeds_started sound.types (same.symm ▸ registered) startClean
  have backed := start.backed trivial fun _ listed => absurd listed List.not_mem_nil
  obtain ⟨kept, kept'⟩ := backed_visit sound.types spot (formed_entered start.formed)
    (inScope_accepted blockClean).1 calm (backed_entered backed) found
  have here : s.Backed := by
    rcases List.mem_cons.mp among with rfl | behind
    · exact kept
    · exact List.mem_singleton.mp behind ▸ kept'
  obtain ⟨loan, live⟩ := Option.isSome_iff_exists.mp (here binding visible slot present id member).2
  exact ⟨loan, live, sees_of_get? live⟩

/-- Hands on its first argument. -/
def picking : FunctionDecl where
  name := "pick"
  params := [⟨"r", .ref false .u64⟩, ⟨"a", .u64⟩]
  ret := some (.ref false .u64)
  body := [.ret (some (.var "r"))]

/-- Keeps what `pick` hands on. -/
def handing : FunctionDecl where
  name := "keep"
  ret := some .u64
  body := [
    .bind "x" none (.u64 7),
    .bind "r" none (.borrow false "x"),
    .bind "s" none (.call none "pick" [] [.var "r", .deref (.var "r")]),
    .ret (some (.deref (.var "s")))]

/-- Lets go of an argument of `pick` while it waits for the other. -/
def lending : FunctionDecl where
  name := "main"
  ret := some .u64
  body := [
    .bind "x" none (.u64 7),
    .bind "r" none (.borrow false "x"),
    .bind "s" none (.call none "pick" [] [.var "r", .deref (.move "r")]),
    .bind "y" none (.move "x"),
    .ret (some (.deref (.var "s")))]

/-- The three functions in a module. -/
def lenders : List Module := [{ name := "M", functions := [picking, handing, lending] }]

/-- What `pick` hands on still borrows what it was given. -/
theorem kept_reference_keeps_its_loan :
    let ctx : BodyContext := ⟨(programOf lenders).types, { id := ⟨"M", "keep"⟩, ret := .u64 }⟩
    check lenders = .ok (programOf lenders) ∧ ∃ statement before slot id loan,
      visited? ctx handing.body (.later (.later (.later .here))) = some (statement, before) ∧
        before.locals.slot? 2 = some slot ∧ slot.name = "s" ∧ id ∈ slot.loans ∧
          before.loans.get? id = some loan ∧ Sees ctx before id loan := by
  intro ctx
  have checked : check lenders = .ok (programOf lenders) := check_of_clean (by decide +kernel)
  have declared : (programOf lenders).function? ⟨"M", "keep"⟩ = some handing := rfl
  have registered : (programOf lenders).types.function? ⟨"M", "keep"⟩ = some ctx.signature := rfl
  have calm : Calm ctx (started ctx).liveAfter handing.body (entered (started ctx)) := by
    refine calm_cons ?_ ?_ (calm_cons ?_ ?_ (calm_cons ?_ ?_ (calm_cons ?_ ?_ calm_nil))) <;>
      first | decide +kernel | exact fun arm _ => by cases arm <;> rfl
  have held : ((visited? ctx handing.body (.later (.later (.later .here)))).bind fun (_, before) =>
      (before.locals.slot? 2).map fun slot => (slot.name, slot.state.holdsValue,
        decide (2 ∈ before.locals.visible), slot.loans.contains 0)) =
      some ("s", true, true, true) := by decide +kernel
  obtain ⟨⟨statement, before⟩, found, seen⟩ := Option.bind_eq_some_iff.mp held
  obtain ⟨slot, present, shown⟩ := Option.map_eq_some_iff.mp seen
  simp only [Prod.mk.injEq, decide_eq_true_eq, SortedSet.contains_iff] at shown
  obtain ⟨name, holds, visible, member⟩ := shown
  obtain ⟨loan, live, sees⟩ := bindings_keep_their_loans checked declared registered calm _ _ _
    found _ List.mem_cons_self 2 visible slot present holds 0 member
  exact ⟨checked, statement, before, slot, 0, loan, found, present, name, member, live, sees⟩

theorem lent_reference_loses_its_loan :
    let ctx : BodyContext := ⟨(programOf lenders).types, { id := ⟨"M", "main"⟩, ret := .u64 }⟩
    check lenders = .ok (programOf lenders) ∧
      ((visited? ctx lending.body (.later (.later (.later .here)))).bind fun (_, before) =>
        (before.locals.slot? 2).map fun slot => (slot.name, slot.state.holdsValue,
          slot.loans.toList.map fun id => (before.loans.get? id).isSome)) =
        some ("s", true, [false]) :=
  ⟨check_of_clean (by decide +kernel), by decide +kernel⟩

end Custody
