import Custody.Proofs.Execution.Statements
/-!
# Blocks, branches and loops

Paths through a body. The bindings of a block are gone behind it, on the machine at once and for the
checker where paths meet; until then the checker keeps their slots, and agreement is with the state
from which they are cut off.
-/

namespace Custody

open Exec Check Locals

variable {setup : Setup} {invoke : Invoke} {a : Activation} {linear : Bool} {live : List String}
  {before first : BodyState} {m m' : Machine} {sum : Int} {flow : Flow} {index : Nat} {slot : Slot}
  {cond : Expr} {onTrue : List Stmt} {onFalse : Option (List Stmt)}

/-! ## Blocks -/

/-- Statements are run where they were accepted. -/
structure PoisedAll (a : Activation) (linear : Bool) (statements : List Stmt) (outer : List String)
    (s : BodyState) (sum : Int) (m : Machine) : Prop where
  formed : Formed a.ctx s
  clean : (stmts a.ctx outer statements s).2.problems = []
  tried : Tried a linear (·.passesAll a.ctx statements outer s)
  agrees : Agrees a (Stmt.blockNames statements ++ outer) s sum m

/-- Wherever the statements are accepted, they are run without a breach. -/
def SoundStmts (setup : Setup) (invoke : Invoke) (a : Activation) (linear : Bool)
    (statements : List Stmt) : Prop :=
  ∀ outer s sum m, PoisedAll a linear statements outer s sum m →
    Ensures a.toTerms (runAll setup invoke statements) m
      (Ran a m sum (stmts a.ctx outer statements s).1 outer
        (stmts a.ctx outer statements s).2)

/-- A block in a scope of its own. -/
def SoundBlock (setup : Setup) (invoke : Invoke) (a : Activation) (linear : Bool)
    (statements : List Stmt) : Prop :=
  ∀ s sum m, Formed a.ctx s → (block a.ctx statements s).2.problems = [] →
    Tried a linear (·.passesAll a.ctx statements s.liveAfter (entered s)) →
    Agrees a (Stmt.blockNames statements ++ s.liveAfter) s sum m →
    Ensures a.toTerms (inScope (runAll setup invoke statements)) m
      (Ran a m sum (block a.ctx statements s).1 s.liveAfter
        (cut s.locals.size (block a.ctx statements s).2))

section Blocks

variable {s inner : BodyState}

theorem Returned.shrunk {value : Value} (returned : Returned a m sum value m') (valid : a.Valid)
    (height : m.callers.length = a.depth) (size : Nat) :
    Returned a m sum value (m'.shrunk size) := by
  have height' : m'.callers.length = a.depth := returned.leaves.keeps.height.trans height
  refine ⟨returned.result, returned.surroundings.rebound valid height',
    returned.leaves.trans (leaves_rebound height'), ?_, returned.repays⟩
  rw [← returned.worth]
  exact congrArg (· + _) (Machine.worth_congr _ rfl rfl rfl)

theorem formed_cut (formed : Formed a.ctx s) {size : Nat} (within : size ≤ s.locals.size) :
    Formed a.ctx (cut size s) where
  unpoisoned := formed.unpoisoned
  bounded := formed.bounded
  dense := by
    have visible : (cut size s).locals.visible = s.locals.visible.filter (· < size) := by
      simp [cut, visible, truncate, List.filter_append, List.filter_flatten]
    have length : (cut size s).locals.size = size := by
      simpa [cut, Locals.size, Locals.truncate] using within
    obtain ⟨more, total⟩ := Nat.exists_eq_add_of_le within
    rw [visible, length, formed.dense, total, List.range_add, List.filter_append,
      List.filter_eq_self.mpr (by simp), List.filter_eq_nil_iff.mpr (by simp), List.append_nil]
  bindable := by
    intro shape member
    rw [cut, shapes_truncate] at member
    exact formed.bindable shape (List.mem_of_mem_take member)
  abilities := by
    intro shape member
    rw [cut, shapes_truncate] at member
    exact formed.abilities shape (List.mem_of_mem_take member)

/-- No loan that is left behind a block is of one of its bindings. -/
def Outlived (s inner : BodyState) : Prop :=
  ∀ (id : LoanId) (loan : Loan) (binding : BindingId),
    (released (left s.liveAfter inner)).loans.get? id = some loan →
    loan.place.root = .local binding → binding ∈ inner.locals.popScope.1 →
    (left s.liveAfter inner).locals.slot? binding = none

theorem slot?_left (id : BindingId) :
    (left s.liveAfter inner).locals.slot? id = inner.locals.slot? id := by
  rw [slot?, slot?, show (left s.liveAfter inner).locals.slots = inner.locals.slots
    from slots_popScope _]

section Leaving

variable (formed : Formed a.ctx s) (continues : Continues a.ctx (entered s) inner)

include formed continues

/-- What a binding outside the block holds is not released at its end. -/
theorem held_left (lower : index < s.locals.size) (found : inner.locals.slot? index = some slot)
    (state : slot.state = .live) :
    ∀ id ∈ slot.loans, ∀ loan, inner.loans.get? id = some loan →
      (released (left s.liveAfter inner)).loans.get? id = some loan := by
  intro id member loan granted
  have visible : index ∈ (left s.liveAfter inner).locals.visible := by
    rw [(leaves_left continues).visible, formed.dense]
    exact List.mem_range.mpr lower
  have holds : id ∈ (left s.liveAfter inner).locals.heldLoans :=
    mem_heldLoans.mpr ⟨index, visible, slot, (slot?_left index).trans found,
      by rw [state]; rfl, member⟩
  have before : (left s.liveAfter inner).loans.get? id = some loan := granted
  rw [released, Loans.get?_retain]
  simpa [holds] using before

/-- What a binding outside the block borrows lies outside the block. -/
theorem lower_of_outlived (outlived : Outlived s inner) (lower : index < s.locals.size)
    (found : inner.locals.slot? index = some slot) (state : slot.state = .live)
    {binding : BindingId} (inside : binding ∈ inner.loans.borrowed slot.loans) {other : Slot}
    (known : inner.locals.slot? binding = some other) : binding < s.locals.size := by
  obtain ⟨id, member, loan, granted, rooted⟩ := Loans.mem_borrowed.mp inside
  by_contra beyond
  have popped : binding ∈ inner.locals.popScope.1 :=
    (mem_popScope formed continues).mpr ⟨Nat.le_of_not_lt beyond, slot?_lt known⟩
  have gone := outlived id loan binding (held_left formed continues lower found state id member loan
    granted) rooted popped
  rw [slot?_left, known] at gone
  cases gone

/-- The end of a block releases nothing that a binding outside of it holds. -/
theorem forgets_left :
    Forgets a live (cut s.locals.size inner)
      (cut s.locals.size (released (left s.liveAfter inner))) := by
  have kept : Forgets a live (cut s.locals.size inner) { cut s.locals.size inner with
      loans := (released (left s.liveAfter inner)).loans, access := inner.access } := by
    refine forgets_of_loans ?_
    intro index slot found state id member loan granted
    obtain ⟨lower, found⟩ := slot?_of_truncate found
    exact held_left formed continues lower found state id member loan granted
  have same : Forgets a live { cut s.locals.size inner with
      loans := (released (left s.liveAfter inner)).loans, access := inner.access }
      (cut s.locals.size (released (left s.liveAfter inner))) := by
    refine forgets_of_slots ?_ fun _ _ granted => granted
    exact congrArg (List.take s.locals.size) (slots_popScope _)
  exact kept.trans same

/-- What held inside a block holds of what the block leaves. -/
theorem agrees_left (valid : a.Valid) (agrees : Agrees a live inner sum m)
    (unowed : ∀ id ∈ inner.locals.popScope.1, ∀ slot,
      (left s.liveAfter inner).locals.slot? id = some slot → slot.isOwed = false)
    (outlived : Outlived s inner) :
    Agrees a live (cut s.locals.size (released (left s.liveAfter inner))) sum
      (m.shrunk s.locals.size) := by
  have shrunk : Agrees a live (cut s.locals.size inner) sum (m.shrunk s.locals.size) := by
    refine agrees_shrunk valid continues.formed agrees continues.size_le ?_ ?_
    · intro id slot beyond found
      have popped : id ∈ inner.locals.popScope.1 :=
        (mem_popScope formed continues).mpr ⟨beyond, slot?_lt found⟩
      exact unowed id popped slot ((slot?_left id).trans found)
    · intro index slot lower found state binding inside other known
      exact lower_of_outlived formed continues outlived lower found state inside known
  have formed' : Formed a.ctx (cut s.locals.size inner) :=
    formed_cut continues.formed continues.size_le
  exact shrunk.forget valid formed' (forgets_left formed continues) fun _ inside => inside

end Leaving

theorem soundBlock_of_stmts (running : Running setup invoke a linear) {statements : List Stmt}
    (sound : SoundStmts setup invoke a linear statements) :
    SoundBlock setup invoke a linear statements := by
  intro s sum m formed clean tried agrees
  obtain ⟨innerClean, _, whenNot⟩ := inScope_accepted clean
  have ⟨continues, _⟩ := walks_stmts running.valid.declared statements s.liveAfter _
    (formed_entered formed) innerClean
  have entered : Agrees a (Stmt.blockNames statements ++ s.liveAfter) (entered s) sum m :=
    agrees.forget running.valid formed (forgets_of_slots rfl fun _ _ granted => granted)
      fun _ inside => inside
  refine ensures_get ?_
  refine (sound s.liveAfter _ sum m
    ⟨formed_entered formed, innerClean, tried, entered⟩).bind ?_
  intro flow m' ran
  have mark : m.current.bindings.length = s.locals.size := agrees.frame.length
  rw [mark]
  refine Ensures.bind (ensures_modify rfl (?_ : Ran _ _ _ _ _ _ flow (m'.shrunk s.locals.size)))
    fun _ _ here => ensures_pure here
  cases flow with
  | next =>
    obtain ⟨ended, agrees', leaves⟩ := ran
    obtain ⟨same, unowed, outlived⟩ := whenNot ended continues.formed.unpoisoned
    have left := agrees_left formed continues running.valid agrees' unowed outlived
    rw [block, same]
    exact ⟨rfl, left, leaves.trans (leaves_rebound agrees'.frame.height)⟩
  | ret value =>
    have returned : Returned a m sum value m' := ran
    exact returned.shrunk running.valid agrees.frame.height _

end Blocks

/-! ## Branches -/

/-- The names of the second path of a branch. -/
def otherwiseNames : Option (List Stmt) → List String
  | none => []
  | some statements => Stmt.blockNames statements

/-- Where there is a second path, it passes. -/
def Check.Trial.passesOtherwise (trial : Trial) (ctx : BodyContext) (s : BodyState) :
    Option (List Stmt) → Bool
  | none => true
  | some statements => trial.passesAll ctx statements s.liveAfter (entered s)

/-- The second path of a branch, which may be missing. -/
def SoundOtherwise (setup : Setup) (invoke : Invoke) (a : Activation) (linear : Bool)
    (statements : Option (List Stmt)) : Prop :=
  ∀ s sum m, Formed a.ctx s → (otherwise a.ctx statements s).2.problems = [] →
    Tried a linear (·.passesOtherwise a.ctx s statements) →
    Agrees a (otherwiseNames statements ++ s.liveAfter) s sum m →
    Ensures a.toTerms (runOtherwise setup invoke statements) m
      (Ran a m sum (otherwise a.ctx statements s).1 s.liveAfter
        (cut s.locals.size (otherwise a.ctx statements s).2))

section Branches

variable {s second : BodyState}

/-- A state with nothing behind its own bindings. -/
theorem agrees_cut_self (valid : a.Valid) (formed : Formed a.ctx s)
    (agrees : Agrees a live s sum m) : Agrees a live (cut s.locals.size s) sum m :=
  agrees.forget valid formed
    (forgets_of_slots (slots_truncate_of_size rfl) fun _ _ granted => granted)
    fun _ inside => inside

theorem soundOtherwise (running : Running setup invoke a linear) {statements : Option (List Stmt)}
    (sound : ∀ block, statements = some block → SoundStmts setup invoke a linear block) :
    SoundOtherwise setup invoke a linear statements := by
  intro s sum m formed clean tried agrees
  cases statements with
  | none =>
    rw [runOtherwise]
    exact ensures_pure (.of_agrees (agrees_cut_self running.valid formed agrees) (.refl _ _))
  | some block =>
    rw [runOtherwise]
    exact soundBlock_of_stmts running (sound block rfl) s sum m formed clean tried agrees

theorem formed_cut_of_leaves (formed : Formed a.ctx before) (leaves : Leaves before first) :
    Formed a.ctx (cut before.locals.size first) := by
  obtain ⟨shapes, scope, outer⟩ := leaves.truncated formed
  have size := size_of_shapes shapes
  refine ⟨leaves.unpoisoned, leaves.bounded, ?_, ?_, ?_⟩
  · have visible : (first.locals.truncate before.locals.size).visible = before.locals.visible := by
      rw [visible, visible, scope, outer]
    simp only [cut]
    rw [visible, size, formed.dense]
  · simp only [cut]
    rw [shapes]
    exact formed.bindable
  · simp only [cut]
    rw [shapes]
    exact formed.abilities

section Meeting

variable (formed : Formed a.ctx before) (one : Leaves before first)
  (other : Leaves (rewind first before.locals before.loans) second)

include formed one other

/-- Where two paths meet, nothing is known that the first one does not know. -/
theorem forgets_meet_first (ended : Bool) :
    Forgets a live (cut before.locals.size first)
      (merged before.locals.size ⟨first.locals, first.loans, false⟩ ended second) := by
  refine forgets_merged_first ended ?_ ?_
  · rw [(one.truncated formed).1]
    exact (other.truncated (formed_rewind formed one)).1
  · exact fun id loan second' here there => Loans.Follows.agree formed.bounded
      one.follows one.bounded other.follows here there

/-- Where two paths meet, nothing is known that the second one does not know. -/
theorem forgets_meet_last (ended : Bool) :
    Forgets a live (cut before.locals.size second)
      (merged before.locals.size ⟨first.locals, first.loans, ended⟩ false second) := by
  refine forgets_merged_last ended ?_
  exact (one.truncated formed).1.trans (other.truncated (formed_rewind formed one)).1.symm

/-- Behind the first of two paths that meet. -/
theorem Ran.merge_first (valid : a.Valid) (ended ended' : Bool)
    (ran : Ran a m sum ended live (cut before.locals.size first) flow m') :
    Ran a m sum (ended && ended') live
      (merged before.locals.size ⟨first.locals, first.loans, ended⟩ ended' second) flow m' := by
  cases flow with
  | ret value => exact ran
  | next =>
    obtain ⟨rfl, agrees, leaves⟩ := ran
    exact ⟨rfl, agrees.forget valid (formed_cut_of_leaves formed one)
      (forgets_meet_first formed one other ended') fun _ inside => inside, leaves⟩

/-- Behind the second of two paths that meet. -/
theorem Ran.merge_last (valid : a.Valid) (ended ended' : Bool)
    (ran : Ran a m sum ended' live (cut before.locals.size second) flow m') :
    Ran a m sum (ended && ended') live
      (merged before.locals.size ⟨first.locals, first.loans, ended⟩ ended' second) flow m' := by
  cases flow with
  | ret value => exact ran
  | next =>
    obtain ⟨rfl, agrees, leaves⟩ := ran
    have rewound := formed_rewind formed one
    exact ⟨Bool.and_false _, agrees.forget valid (formed_cut_of_leaves rewound other)
      (forgets_meet_last formed one other ended) fun _ inside => inside, leaves⟩

end Meeting

/-- Behind a condition, with what it borrowed given up. -/
theorem ensures_condition (running : Running setup invoke a linear) {operand : Operand}
    {s' : BodyState} (accepted : Accepted a.ctx s cond operand s')
    (flow : operand.ty.flowsInto .bool = true) (formed : Formed a.ctx s)
    (tried : Tried a linear (·.evaluates cond s)) (names : cond.names ⊆ live)
    (agrees : Agrees a live s sum m) :
    Ensures a.toTerms (do asBool (← eval setup invoke cond)) m fun _ m' =>
      Agrees a live (released s') sum m' ∧ a.Leaves m m' := by
  have formed' := accepted.walked.formed formed
  refine (running.eval accepted formed tried names agrees).bind ?_
  rintro held m' ⟨after, holds⟩
  refine (ensures_asBool holds flow).mono ?_
  rintro flag _ ⟨rfl, rfl⟩
  have here := after.agrees.forget running.valid formed' (forgets_released formed')
    fun _ inside => inside
  rw [weigh_bool, Int.ofNat_zero, Int.sub_zero] at here
  exact ⟨here, after.leaves⟩

theorem names_branch (cond : Expr) (onTrue : List Stmt) (onFalse : Option (List Stmt)) :
    (Stmt.branch cond onTrue onFalse).names =
      cond.names ++ (Stmt.blockNames onTrue ++ otherwiseNames onFalse) := by
  cases onFalse <;> simp [Stmt.names, otherwiseNames]

theorem passes_branch {trial : Trial}
    (passes : trial.passes a.ctx (.branch cond onTrue onFalse) s = true)
    (conditioned : conditioned a.ctx cond s = before) :
    trial.evaluates cond s = true ∧
      trial.passesAll a.ctx onTrue before.liveAfter (entered before) = true ∧
      trial.passesOtherwise a.ctx (rewind (block a.ctx onTrue before).2 before.locals before.loans)
        onFalse = true := by
  cases onFalse with
  | none =>
    simp only [Trial.passes, conditioned, Bool.and_eq_true] at passes
    exact ⟨passes.1, passes.2, rfl⟩
  | some block =>
    simp only [Trial.passes, conditioned, Bool.and_eq_true] at passes
    exact ⟨passes.1.1, passes.1.2, passes.2⟩

theorem sound_branch (running : Running setup invoke a linear) (cond : Expr)
    (soundTrue : SoundStmts setup invoke a linear onTrue)
    (soundFalse : ∀ block, onFalse = some block → SoundStmts setup invoke a linear block) :
    SoundStmt setup invoke a linear (.branch cond onTrue onFalse) := by
  intro s sum m poised
  have valid := running.valid
  have formed := poised.formed
  obtain ⟨operand, s', accepted, flow, firstClean, secondClean, same⟩ :=
    Check.branch_accepted valid.declared formed poised.clean
  have formed' := accepted.walked.formed formed
  have released := Walked.released formed'
  have before := released.formed formed'
  have one := (walks_block (walks_stmts valid.declared onTrue) before firstClean).leaves
  have rewound := formed_rewind before one
  have ⟨other, _⟩ := leaves_otherwise (fun block _ => walks_stmts valid.declared block)
    rewound secondClean
  have liveAfter : (Check.released s').liveAfter = s.liveAfter :=
    released.liveAfter.trans accepted.walked.liveAfter
  have rewoundAfter := one.liveAfter.trans liveAfter
  have parts (trial : Trial) (passes : trial.passes a.ctx (.branch cond onTrue onFalse) s = true) :=
    passes_branch passes accepted.conditioned
  have agrees := poised.agrees
  rw [names_branch, List.append_assoc] at agrees
  rw [run, same, ← bind_assoc]
  refine (ensures_condition running accepted flow formed
    (poised.tried.imp fun trial passes => (parts trial passes).1) (List.subset_append_left _ _)
    agrees).bind ?_
  rintro flag m' ⟨agrees', leaves⟩
  cases flag with
  | true =>
    have given : Agrees a (Stmt.blockNames onTrue ++ (Check.released s').liveAfter)
        (Check.released s') sum m' := by
      refine agrees'.mono fun name inside => ?_
      rw [liveAfter] at inside
      simp only [List.mem_append] at inside ⊢
      exact .inr (inside.imp_left .inl)
    refine (soundBlock_of_stmts running soundTrue _ sum m' before firstClean
      (poised.tried.imp fun trial passes => (parts trial passes).2.1) given).mono ?_
    intro flow m'' ran
    rw [liveAfter] at ran
    exact (ran.merge_first before one other valid _ _).after leaves
  | false =>
    have given : Agrees a (otherwiseNames onFalse ++ s.liveAfter)
        (Check.rewind (Check.block a.ctx onTrue (Check.released s')).2 (Check.released s').locals
          (Check.released s').loans) sum m' := by
      refine agrees'.forget valid before (forgets_of_slots rfl fun _ _ granted => granted)
        fun name inside => ?_
      simp only [List.mem_append] at inside ⊢
      exact .inr (inside.imp_left .inr)
    rw [← rewoundAfter] at given
    refine (soundOtherwise running soundFalse _ sum m' rewound secondClean
      (poised.tried.imp fun trial passes => (parts trial passes).2.2) given).mono ?_
    intro flow m'' ran
    rw [show (rewind _ _ _).liveAfter = s.liveAfter from rewoundAfter] at ran
    exact (ran.merge_last before one other valid _ _).after leaves

end Branches

/-! ## Loops -/

section Loops

variable {s round : BodyState}

/-- A loop that comes round stands where it began. -/
theorem forgets_round (frugal : linear = true ∨ ∀ id, a.weight id = 0)
    (shapes : (cut s.locals.size round).locals.shapes = s.locals.shapes)
    (comes : covers linear s round = true) (recalls : a.held → recalls s round = true) :
    Forgets a live (cut s.locals.size round) s := by
  have each : ∀ {index slot slot'}, (cut s.locals.size round).locals.slot? index = some slot →
      s.locals.slot? index = some slot' →
      (slot'.state = .live → slot.state = .live ∧
        ∀ binding ∈ round.loans.borrowed slot.loans, binding ∈ s.loans.borrowed slot'.loans) ∧
      (linear = true → slot'.state = .consumed → slot.state = .consumed ∨ slot.canDrop = true) := by
    intro index slot slot' behind found
    have lower := slot?_lt found
    rw [cut, slot?_truncate, if_pos lower] at behind
    have here := List.all_eq_true.mp comes index (List.mem_range.mpr lower)
    simpa only [found, behind, Bool.and_eq_true, decide_eq_true_eq] using here
  refine ⟨shapes.symm, ?_, ?_⟩
  · intro index slot slot' behind found state
    obtain ⟨here, borrowed⟩ := (each behind found).1 state
    refine ⟨here, fun _ => ⟨borrowed, fun held => ?_⟩⟩
    have lower := slot?_lt found
    rw [cut, slot?_truncate, if_pos lower] at behind
    have recalled := List.all_eq_true.mp (recalls held) index (List.mem_range.mpr lower)
    simp only [found, behind, decide_eq_true_eq] at recalled
    exact recalled state
  · intro index slot slot' behind found state
    obtain counted | weightless := frugal
    · exact ((each behind found).2 counted state).imp_right .inl
    · exact .inr (.inr weightless)

/-- A condition and a body that between them keep the head of a loop keep it for every number of
rounds. -/
theorem ensures_repeatWhile {cond : Exec Bool} {body : Exec Flow} (bound : Nat)
    (tested : ∀ m, Agrees a live s sum m → Ensures a.toTerms cond m fun _ m' =>
      Agrees a live before sum m' ∧ a.Leaves m m')
    (comes : ∀ m, Agrees a live before sum m → Ensures a.toTerms body m (Ran a m sum false live s))
    (m : Machine) (agrees : Agrees a live s sum m) :
    Ensures a.toTerms (repeatWhile cond body bound) m (Ran a m sum false live before) := by
  induction bound generalizing m with
  | zero => exact ensures_throw ⟨rfl, fun _ _ absurd => by cases absurd⟩
  | succ bound again =>
    rw [repeatWhile]
    refine (tested m agrees).bind ?_
    rintro flag m' ⟨agrees', leaves⟩
    cases flag with
    | false => exact ensures_pure ⟨rfl, agrees', leaves⟩
    | true =>
      refine (comes m' agrees').bind ?_
      intro flow m'' ran
      cases flow with
      | ret value => exact ensures_pure (Ran.after leaves ran)
      | next =>
        obtain ⟨_, agrees'', further⟩ := ran
        exact (again m'' agrees'').mono fun _ _ ran => ran.after (leaves.trans further)

/-- Where the path that left a loop at its condition meets the one through its body. -/
theorem forgets_leave_loop (formed : Formed a.ctx before) (one : Leaves before first)
    (ended : Bool) : Forgets a live before
    (merged before.locals.size ⟨first.locals, first.loans, ended⟩ false
      (rewind first before.locals before.loans)) := by
  have rewound := formed_rewind formed one
  have back : Forgets a live before (cut before.locals.size
      (rewind first before.locals before.loans)) :=
    forgets_of_slots (slots_truncate_of_size rfl) fun _ _ granted => granted
  exact back.trans (forgets_meet_last formed one (Walked.refl rewound).toLeaves ended)

theorem Ran.leave_loop (valid : a.Valid) (formed : Formed a.ctx before) (one : Leaves before first)
    (ended : Bool) (ran : Ran a m sum false live before flow m') :
    Ran a m sum false live (merged before.locals.size ⟨first.locals, first.loans, ended⟩ false
      (rewind first before.locals before.loans)) flow m' := by
  cases flow with
  | ret value => exact ran
  | next =>
    obtain ⟨_, agrees, leaves⟩ := ran
    exact ⟨rfl, agrees.forget valid formed (forgets_leave_loop formed one ended) fun _ here => here,
      leaves⟩

/-- At the head of a loop again. -/
theorem Ran.come_round (running : Running setup invoke a linear) {entry : BodyState}
    (formed : Formed a.ctx entry) (left : Leaves entry round)
    (shapes : entry.locals.shapes = s.locals.shapes) {ended : Bool}
    (tried : Tried a linear fun trial => ended || trial.comesRound s round)
    (ran : Ran a m sum ended live (cut entry.locals.size round) flow m') :
    Ran a m sum false live s flow m' := by
  cases flow with
  | ret value => exact ran
  | next =>
    obtain ⟨rfl, agrees, leaves⟩ := ran
    have size := size_of_shapes shapes
    have cutFormed := formed_cut_of_leaves formed left
    have cutShapes := (left.truncated formed).1.trans shapes
    rw [size] at agrees cutFormed cutShapes
    exact ⟨rfl, agrees.forget running.valid cutFormed
      (forgets_round running.frugal cutShapes tried.steady tried.guarded) fun _ inside => inside,
      leaves⟩

theorem sound_loop (running : Running setup invoke a linear) (cond : Expr) {body : List Stmt}
    (sound : SoundStmts setup invoke a linear body) :
    SoundStmt setup invoke a linear (.loop cond body) := by
  intro s sum m poised
  have valid := running.valid
  have formed := poised.formed
  obtain ⟨operand, s', accepted, flow, roundClean, same⟩ :=
    loop_accepted valid.declared formed poised.clean
  have walked := accepted.walked.trans (Walked.released (accepted.walked.formed formed))
  have before := walked.formed formed
  have liveAfter : (released s').liveAfter = s.liveAfter := walked.liveAfter
  have parts (trial : Trial) (passes : trial.passes a.ctx (.loop cond body) s = true) := by
    simpa only [Trial.passes, loopEntry, accepted.conditioned, Bool.and_eq_true] using passes
  have names : (Stmt.loop cond body).names = cond.names ++ Stmt.blockNames body := by
    rw [Stmt.names]
  have agrees := poised.agrees
  rw [names, ← liveAfter] at agrees
  have inside := before.reading (cond.names ++ Stmt.blockNames body ++ (released s').liveAfter)
  have left := (walks_block (walks_stmts valid.declared body) inside roundClean).leaves
  have first := left.round
  have shapes : (released s').locals.shapes = s.locals.shapes :=
    (walked.shapes.eq_of_length (by simp [length_shapes, walked.size])).symm
  rw [run, same]
  have read : cond.names ⊆
      cond.names ++ Stmt.blockNames body ++ (released s').liveAfter :=
    fun _ here => List.mem_append_left _ (List.mem_append_left _ here)
  have tested := fun m' (agrees' : Agrees a _ s sum m') =>
    ensures_condition running accepted flow formed
      (poised.tried.imp fun trial passes => (parts trial passes).1.1) read agrees'
  have rounds : ∀ m', Agrees a (cond.names ++ Stmt.blockNames body ++ (released s').liveAfter)
      (released s') sum m' → Ensures a.toTerms (inScope (runAll setup invoke body)) m'
        (Ran a m' sum false (cond.names ++ Stmt.blockNames body ++ (released s').liveAfter) s) := by
    intro m' agrees'
    refine (soundBlock_of_stmts running sound _ sum m' inside roundClean
      (poised.tried.imp fun trial passes => (parts trial passes).1.2) ?_).mono fun _ _ ran =>
        ran.come_round running inside left shapes
          (poised.tried.imp fun trial passes => (parts trial passes).2)
    refine agrees'.forget valid before (forgets_of_slots rfl fun _ _ granted => granted)
      fun name here => ?_
    simp only [List.mem_append] at here ⊢
    exact here.elim (fun inBody => .inl (.inr inBody)) id
  refine (ensures_repeatWhile setup.loopBound tested rounds m agrees).mono fun flow m' ran => ?_
  have exit := ran.leave_loop valid before first
    (block a.ctx body { released s' with
      liveAfter := cond.names ++ Stmt.blockNames body ++ (released s').liveAfter }).1
  rw [← liveAfter]
  exact exit.fewer fun _ here => List.mem_append_right _ here

end Loops

/-! ## All statements -/

section Statements

theorem forgets_settle {s : BodyState} (formed : Formed a.ctx s) (after : s.liveAfter = live) :
    Forgets a live s (released { s with locals := s.locals.expire s.liveAfter }) := by
  subst after
  exact (forgets_expire formed _).trans
    (forgets_released ((walked_expire formed s.liveAfter).formed formed))

theorem soundStmts_nil : SoundStmts setup invoke a linear [] := by
  intro outer s sum m poised
  rw [runAll, stmts]
  exact ensures_pure (.of_agrees poised.agrees (.refl _ _))

theorem soundStmts_cons (running : Running setup invoke a linear) {statement : Stmt}
    {rest : List Stmt} (head : SoundStmt setup invoke a linear statement)
    (tail : SoundStmts setup invoke a linear rest) :
    SoundStmts setup invoke a linear (statement :: rest) := by
  intro outer s sum m poised
  have valid := running.valid
  have formed := poised.formed
  obtain ⟨headClean, _, whenNot⟩ := stmts_cons_accepted poised.clean
  have parts (trial : Trial)
      (passes : trial.passesAll a.ctx (statement :: rest) outer s = true) := by
    simpa only [Trial.passesAll, Bool.and_eq_true, Bool.or_eq_true] using passes
  have start := formed.reading (Stmt.blockNames rest ++ outer)
  have ⟨continues, _⟩ := walks_stmt valid.declared statement _ start headClean
  have given : Agrees a (statement.names ++ (Stmt.blockNames rest ++ outer))
      (s.facing rest outer) sum m := by
    refine poised.agrees.forget valid formed (forgets_of_slots rfl fun _ _ granted => granted)
      fun _ here => ?_
    rwa [Stmt.blockNames, List.append_assoc]
  rw [runAll]
  refine (head _ sum m ⟨start, headClean,
    poised.tried.imp fun trial passes => (parts trial passes).1, given⟩).bind ?_
  intro flow m' ran
  cases flow with
  | ret value => exact ensures_pure ran
  | next =>
    obtain ⟨goes, agrees', leaves⟩ := ran
    obtain ⟨tailClean, same⟩ := whenNot goes
    have settled : Agrees a (Stmt.blockNames rest ++ outer)
        (settle (Stmt.blockNames rest ++ outer) (stmt a.ctx statement) s).2 sum m' :=
      agrees'.forget valid continues.formed (forgets_settle continues.formed continues.liveAfter)
        fun _ here => here
    have goesOn : ¬ (stmt a.ctx statement (s.facing rest outer)).1 = true := by
      rw [goes]
      exact Bool.false_ne_true
    rw [same]
    have tried := poised.tried.imp fun trial passes =>
      (parts trial passes).2.resolve_left goesOn
    exact (tail outer _ sum m' ⟨(stepped_settle continues.formed).formed continues.formed,
      tailClean, tried, settled⟩).mono fun _ _ ran => ran.after leaves

variable (running : Running setup invoke a linear)

include running

mutual

theorem sound_stmt : (statement : Stmt) → SoundStmt setup invoke a linear statement
  | .bind name type value => sound_bind running name type value
  | .unpack name fields value => sound_unpack running name fields value
  | .assign name value => sound_assign running name value
  | .write target value => sound_write running target value
  | .branch cond onTrue none =>
    sound_branch running cond (sound_stmts onTrue) fun _ none => by cases none
  | .branch cond onTrue (some onFalse) =>
    sound_branch running cond (sound_stmts onTrue) fun _ found =>
      Option.some.inj found ▸ sound_stmts onFalse
  | .loop cond body => sound_loop running cond (sound_stmts body)
  | .ret none => sound_ret_none running
  | .ret (some value) => sound_ret running value
  | .abort code => sound_abort running code
  | .assert cond code => sound_assert running cond code
  | .eval value => sound_evalStmt running value

theorem sound_stmts : (statements : List Stmt) → SoundStmts setup invoke a linear statements
  | [] => soundStmts_nil
  | statement :: rest =>
    soundStmts_cons running (sound_stmt statement) (sound_stmts rest)

end

end Statements

end Custody
