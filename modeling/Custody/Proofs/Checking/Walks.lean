import Custody.Proofs.Checking.Linked
import Custody.Proofs.Checking.Recorded
/-!
# What an accepted walk leaves alone

The checker follows paths that an execution may never take, and merges them where they meet. What it
keeps along every accepted path, taken or not, is collected here: bindings keep their names and
types, scopes are left as they were entered, numbers of loans go on, and a loan that ended does not
come back. Expressions moreover end no loan that a binding keeps alive. The loans of their values
are live, but for those of calls: a loan that an argument came with may have ended while the later
arguments were walked. What an accepted expression does is on record, and a larger universe walks it
alike.
-/

namespace Custody

open Locals Universe

variable {e : Expr} {given : LoanId → Prop} {field : String} {id : BindingId} {held : LoanSet}
  {loans : Loans} {ty : Ty}

/-- What bindings in scope keep alive is there. -/
abbrev BodyState.Backed (s : BodyState) : Prop := s.locals.Backed s.loans

namespace Check

/-! ## States -/

/-- A state as accepted walks leave it between two steps. -/
structure Formed (ctx : BodyContext) (s : BodyState) : Prop where
  unpoisoned : s.poisoned = []
  bounded : s.loans.Bounded
  /-- Every binding that still has a slot is in scope. -/
  dense : s.locals.visible = List.range s.locals.size
  bindable : ∀ shape ∈ s.locals.shapes, ctx.Bindable shape.2.1
  abilities : ∀ shape ∈ s.locals.shapes, shape.2.2 = ctx.abilities shape.2.1

/-- A block may have been walked: it may have left slots behind, but nothing in scope. -/
structure Leaves (before after : BodyState) : Prop where
  unpoisoned : after.poisoned = []
  bounded : after.loans.Bounded
  follows : before.loans.Follows after.loans
  liveAfter : after.liveAfter = before.liveAfter
  shapes : before.locals.shapes <+: after.locals.shapes
  scope : after.locals.scope = before.locals.scope
  outer : after.locals.outer = before.locals.outer

/-- An expression may have been walked: every slot is still there, and no other. -/
structure Walked (before after : BodyState) : Prop extends Leaves before after where
  size : after.locals.size = before.locals.size

section States

variable {ctx : BodyContext} {s s' s'' : BodyState}

theorem Formed.slot (formed : Formed ctx s) {slot : Slot} (found : s.locals.slot? id = some slot) :
    ctx.Bindable slot.ty ∧ slot.abilities = ctx.abilities slot.ty := by
  have member := List.mem_of_getElem? (shape_of_slot? found)
  exact ⟨formed.bindable _ member, formed.abilities _ member⟩

theorem Formed.mem_visible (formed : Formed ctx s) {slot : Slot}
    (found : s.locals.slot? id = some slot) : id ∈ s.locals.visible := by
  rw [formed.dense]
  exact List.mem_range.mpr (slot?_lt found)

theorem Formed.lt_of_mem_visible (formed : Formed ctx s) (member : id ∈ s.locals.visible) :
    id < s.locals.size := by
  rw [formed.dense] at member
  exact List.mem_range.mp member

theorem Formed.reading (formed : Formed ctx s) (names : List String) :
    Formed ctx { s with liveAfter := names } :=
  ⟨formed.unpoisoned, formed.bounded, formed.dense, formed.bindable, formed.abilities⟩

/-- Behind a round of a loop fewer names are still read. -/
theorem Leaves.round {names : List String} (leaves : Leaves { s with liveAfter := names } s') :
    Leaves s { s' with liveAfter := s.liveAfter } :=
  ⟨leaves.unpoisoned, leaves.bounded, leaves.follows, rfl, leaves.shapes, leaves.scope,
    leaves.outer⟩

theorem Leaves.trans (first : Leaves s s') (second : Leaves s' s'') : Leaves s s'' where
  unpoisoned := second.unpoisoned
  bounded := second.bounded
  follows := first.follows.trans second.follows
  liveAfter := second.liveAfter.trans first.liveAfter
  shapes := first.shapes.trans second.shapes
  scope := second.scope.trans first.scope
  outer := second.outer.trans first.outer

theorem Leaves.visible (leaves : Leaves s s') : s'.locals.visible = s.locals.visible := by
  simp [Locals.visible, leaves.scope, leaves.outer]

theorem Walked.refl (formed : Formed ctx s) : Walked s s where
  unpoisoned := formed.unpoisoned
  bounded := formed.bounded
  follows := Loans.Follows.refl _
  liveAfter := rfl
  shapes := List.prefix_rfl
  scope := rfl
  outer := rfl
  size := rfl

theorem Walked.trans (first : Walked s s') (second : Walked s' s'') : Walked s s'' :=
  ⟨first.toLeaves.trans second.toLeaves, second.size.trans first.size⟩

theorem Walked.same (walked : Walked s s') : s'.locals.shapes = s.locals.shapes := by
  refine (walked.shapes.eq_of_length ?_).symm
  rw [length_shapes, length_shapes, walked.size]

theorem Walked.names (walked : Walked s s') : s'.locals.names = s.locals.names :=
  congrArg (List.map Prod.fst) walked.same

theorem Walked.formed (walked : Walked s s') (formed : Formed ctx s) : Formed ctx s' where
  unpoisoned := walked.unpoisoned
  bounded := walked.bounded
  dense := by rw [walked.visible, walked.size, formed.dense]
  bindable := by rw [walked.same]; exact formed.bindable
  abilities := by rw [walked.same]; exact formed.abilities

/-- Steps that change loans only, apart from what they record. -/
theorem Walked.of_loans (formed : Formed ctx s) (locals : s'.locals = s.locals)
    (liveAfter : s'.liveAfter = s.liveAfter) (poisoned : s'.poisoned = s.poisoned)
    (follows : s.loans.Follows s'.loans) (bounded : s'.loans.Bounded) : Walked s s' where
  unpoisoned := poisoned.trans formed.unpoisoned
  bounded := bounded
  follows := follows
  liveAfter := liveAfter
  shapes := isPrefix_of_eq (by rw [locals])
  scope := by rw [locals]
  outer := by rw [locals]
  size := by rw [locals]

theorem Walked.grant (formed : Formed ctx s) (loan : Loan) (access : Access) :
    Walked s { s with loans := (s.loans.insert loan).2, access := access } :=
  .of_loans formed rfl rfl rfl (Loans.follows_insert _ _) (formed.bounded.insert loan)

theorem Releases.follows {before after : Loans} (releases : Releases held given before after) :
    before.Follows after :=
  ⟨Nat.le_of_eq releases.next.symm, fun _ found => releases.shrinks found⟩

theorem Releases.bounded {before after : Loans} (releases : Releases held given before after)
    (bounded : before.Bounded) : after.Bounded := by
  intro id loan found
  rw [releases.next]
  exact bounded _ _ (releases.shrinks found)

theorem Walked.release (formed : Formed ctx s) (releases : Releases held given s.loans loans)
    (access : Access) : Walked s { s with loans := loans, access := access } :=
  .of_loans formed rfl rfl rfl releases.follows (releases.bounded formed.bounded)

/-- Steps that change what is known of bindings only. -/
theorem Walked.of_locals (formed : Formed ctx s) {locals : Locals}
    (shapes : locals.shapes = s.locals.shapes) (scope : locals.scope = s.locals.scope)
    (outer : locals.outer = s.locals.outer) : Walked s { s with locals := locals } where
  unpoisoned := formed.unpoisoned
  bounded := formed.bounded
  follows := Loans.Follows.refl _
  liveAfter := rfl
  shapes := isPrefix_of_eq shapes.symm
  scope := scope
  outer := outer
  size := size_of_shapes shapes

theorem Walked.consume (formed : Formed ctx s) (id : BindingId) :
    Walked s { s with locals := (s.locals.consume id).2 } :=
  .of_locals formed (shapes_consume _ _) rfl rfl

theorem Walked.released (formed : Formed ctx s) : Walked s (released s) :=
  .of_loans formed rfl rfl rfl (Loans.follows_retain _ _) (formed.bounded.retain _)

end States

/-! ## Where paths meet -/

section Meeting

variable {ctx : BodyContext} {before first second : BodyState}

theorem Leaves.take_shapes (leaves : Leaves before first) :
    first.locals.shapes.take before.locals.size = before.locals.shapes := by
  rw [← length_shapes]
  exact List.prefix_iff_eq_take.mp leaves.shapes |>.symm

theorem Leaves.truncated (formed : Formed ctx before) (leaves : Leaves before first) :
    (first.locals.truncate before.locals.size).shapes = before.locals.shapes ∧
      (first.locals.truncate before.locals.size).scope = before.locals.scope ∧
      (first.locals.truncate before.locals.size).outer = before.locals.outer := by
  have within : ∀ id ∈ first.locals.visible, id < before.locals.size := by
    intro id member
    rw [leaves.visible] at member
    exact formed.lt_of_mem_visible member
  obtain ⟨scope, outer⟩ := scopes_truncate within
  exact ⟨(shapes_truncate _ _).trans leaves.take_shapes, scope.trans leaves.scope,
    outer.trans leaves.outer⟩

theorem formed_rewind (formed : Formed ctx before) (leaves : Leaves before first) :
    Formed ctx (rewind first before.locals before.loans) :=
  ⟨leaves.unpoisoned, formed.bounded.continueFrom _, formed.dense, formed.bindable,
    formed.abilities⟩

/-- Two paths that were followed one after the other from one point and merged. -/
theorem Walked.merge (ended ended' : Bool) (formed : Formed ctx before) (one : Leaves before first)
    (other : Leaves (rewind first before.locals before.loans) second) :
    Walked before (merged before.locals.size ⟨first.locals, first.loans, ended⟩ ended' second) := by
  obtain ⟨firstShapes, firstScope, firstOuter⟩ := one.truncated formed
  obtain ⟨secondShapes, secondScope, secondOuter⟩ := other.truncated (formed_rewind formed one)
  have rewound : before.loans.Follows (before.loans.continueFrom first.loans) :=
    Loans.follows_continueFrom (Loans.Follows.refl _) _
  have follows : before.loans.Follows second.loans := rewound.trans other.follows
  have unpoisoned : second.poisoned.filter (· < before.locals.size) = [] :=
    by simp [other.unpoisoned]
  have meets : ∀ {locals : Locals} {loans : Loans}, locals.shapes = before.locals.shapes →
      locals.scope = before.locals.scope → locals.outer = before.locals.outer → loans.Bounded →
      before.loans.Follows loans → Walked before { second with
        poisoned := second.poisoned.filter (· < before.locals.size), locals := locals,
          loans := loans } :=
    fun shapes scope outer bounded follows => ⟨⟨unpoisoned, bounded, follows,
      other.liveAfter.trans one.liveAfter, isPrefix_of_eq shapes.symm, scope, outer⟩,
      size_of_shapes shapes⟩
  have alone := meets secondShapes secondScope secondOuter other.bounded follows
  cases ended <;> cases ended'
  · exact meets ((shapes_join _ _).trans secondShapes) secondScope secondOuter
      (other.bounded.join one.bounded) (follows.join one.follows)
  · exact meets firstShapes firstScope firstOuter (one.bounded.continueFrom _)
      (Loans.follows_continueFrom one.follows _)
  · exact alone
  · exact alone

end Meeting

/-! ## Expressions -/

/-- Steps of an expression: what bindings keep alive stays so. -/
structure Stepped (before after : BodyState) : Prop extends Walked before after where
  backed : before.Backed → after.Backed

namespace Stepped

variable {ctx : BodyContext} {s s' s'' : BodyState}

theorem refl (formed : Formed ctx s) : Stepped s s := ⟨.refl formed, fun backed => backed⟩

theorem trans (first : Stepped s s') (second : Stepped s' s'') : Stepped s s'' :=
  ⟨first.toWalked.trans second.toWalked, fun backed => second.backed (first.backed backed)⟩

theorem grant (formed : Formed ctx s) (loan : Loan) (access : Access) :
    Stepped s { s with loans := (s.loans.insert loan).2, access := access } :=
  ⟨.grant formed loan access, fun backed => backed.release fun _ _ live =>
    Loans.isSome_insert live loan⟩

theorem release (formed : Formed ctx s) (releases : Releases s.locals.heldLoans given s.loans loans)
    (access : Access) : Stepped s { s with loans := loans, access := access } :=
  ⟨.release formed releases access, fun backed => backed.release fun _ held live =>
    (releases.keeps (.inl held)).symm ▸ live⟩

theorem consume (formed : Formed ctx s) (id : BindingId) :
    Stepped s { s with locals := (s.locals.consume id).2 } :=
  ⟨.consume formed id, fun backed => backed.modify id fun _ => .inl rfl⟩

theorem released (formed : Formed ctx s) : Stepped s (released s) :=
  ⟨.released formed, fun backed => backed.retain⟩

end Stepped

/-- Where two paths that were followed one after the other meet, bindings keep what they keep on
either. -/
theorem backed_merged {ctx : BodyContext} {before first second : BodyState} {ended ended' : Bool}
    (formed : Formed ctx before) (one : Leaves before first)
    (other : Leaves (rewind first before.locals before.loans) second)
    (backed : first.Backed) (backed' : second.Backed) :
    (merged before.locals.size ⟨first.locals, first.loans, ended⟩ ended' second).Backed := by
  obtain ⟨shapes, scope, outer⟩ := one.truncated formed
  obtain ⟨shapes', scope', outer'⟩ := other.truncated (formed_rewind formed one)
  have sizes := congrArg List.length (Eq.trans shapes' shapes.symm)
  rw [length_shapes, length_shapes] at sizes
  have scopes := congr (congrArg List.cons (Eq.trans scope' scope.symm))
    (Eq.trans outer' outer.symm)
  have cut := backed.truncate before.locals.size
  have cut' := backed'.truncate before.locals.size
  cases ended <;> cases ended' <;>
    simp only [BodyState.Backed, merged, if_true, Bool.false_eq_true, if_false]
  · exact cut'.join cut sizes (congrArg (List.flatten ∘ List.reverse) scopes)
  · exact cut
  · exact cut'
  · exact cut'

/-- The value comes from a call that hands on a loan which has ended. -/
def lapses (ctx : BodyContext) : Expr → BodyState → Bool
  | .freeze inner, s | .borrowField _ inner _, s => lapses ctx inner s
  | .call module function typeArgs args, s =>
    match expr ctx (.call module function typeArgs args) s with
    | (some operand, s') => operand.loans.toList.any fun id => (s'.loans.get? id).isNone
    | (none, _) => false
  | _, _ => false

/-- An expression was accepted: it has an operand of a type that may be bound, what it does is on
record, and a larger universe walks it alike. -/
structure Accepted (ctx : BodyContext) (s : BodyState) (e : Expr) (operand : Operand)
    (s' : BodyState) : Prop where
  result : expr ctx e s = (some operand, s')
  clean : s'.problems = []
  bindable : ctx.Bindable operand.ty
  stepped : Stepped s s'
  live : s.Backed → lapses ctx e s = false → s'.loans.AllLive operand.loans
  recorded : ∀ {access}, s'.access.Within access → Recorded ctx access s.locals.names e
  linked : ∀ {other}, ctx.types.Within other → expr (ctx.linked other) e s = (some operand, s')

/-- What a reference refers to is plain. -/
theorem Accepted.plain {operand : Operand} {mutable : Bool} {inner : Ty}
    (accepted : Accepted ctx s e operand s') (form : operand.ty = .ref mutable inner) :
    ctx.Plain inner := by
  have bindable := accepted.bindable
  rwa [form] at bindable

/-- Every expression of a list was accepted. -/
structure AcceptedAll (ctx : BodyContext) (s : BodyState) (es : List Expr) (operands : List Operand)
    (s' : BodyState) : Prop where
  result : exprs ctx es s = (operands.map some, s')
  count : operands.length = es.length
  clean : s'.problems = []
  bindable : ∀ operand ∈ operands, ctx.Bindable operand.ty
  stepped : Stepped s s'
  recorded : ∀ {access}, s'.access.Within access → RecordedAll ctx access s.locals.names es
  linked : ∀ {other}, ctx.types.Within other → exprs (ctx.linked other) es s =
    (operands.map some, s')

/-- An expression has an operand wherever it is accepted. -/
def Walks (ctx : BodyContext) (e : Expr) : Prop :=
  ∀ s : BodyState, Formed ctx s → (expr ctx e s).2.problems = [] →
    ∃ operand s', Accepted ctx s e operand s'

/-- The same of expressions one after another. -/
def WalksAll (ctx : BodyContext) (es : List Expr) : Prop :=
  ∀ s : BodyState, Formed ctx s → (exprs ctx es s).2.problems = [] →
    ∃ operands s', AcceptedAll ctx s es operands s'

section Expressions

variable {ctx : BodyContext} {s s' s'' : BodyState} {other : Universe} {operand : Operand}

theorem Accepted.walked (accepted : Accepted ctx s e operand s') : Walked s s' :=
  accepted.stepped.toWalked

theorem AcceptedAll.walked {es : List Expr} {operands : List Operand}
    (accepted : AcceptedAll ctx s es operands s') : Walked s s' :=
  accepted.stepped.toWalked

/-- What was known before an accepted expression is known behind it. -/
theorem Accepted.known (accepted : Accepted ctx s e operand s') : s.access.Within s'.access := by
  have kept := known_behind (x := expr ctx e) s
  rwa [accepted.result] at kept

/-- Of two expressions that are walked one behind the other both are on record. -/
theorem Accepted.both {e' : Expr} {operand' : Operand} {access : Access}
    (first : Accepted ctx s e operand s') (second : Accepted ctx s' e' operand' s'')
    (known : s''.access.Within access) :
    Recorded ctx access s.locals.names e ∧ Recorded ctx access s.locals.names e' :=
  ⟨first.recorded (second.known.trans known), first.walked.names ▸ second.recorded known⟩

theorem Accepted.of_live (clean : (expr ctx e s).2.problems = [])
    (result : expr ctx e s = (some operand, s'))
    (bindable : ctx.Bindable operand.ty) (stepped : Stepped s s')
    (live : s.Backed → lapses ctx e s = false → s'.loans.AllLive operand.loans)
    (recorded : ∀ {access}, s'.access.Within access → Recorded ctx access s.locals.names e)
    (linked : ∀ {other}, ctx.types.Within other → expr (ctx.linked other) e s = expr ctx e s) :
    Accepted ctx s e operand s' :=
  ⟨result, by rw [result] at clean; exact clean, bindable, stepped, live, recorded,
    fun within => (linked within).trans result⟩

theorem nothing_live : loans.AllLive ∅ :=
  fun id member => absurd member (SortedSet.not_mem_empty id)

/-- Most values keep no loan alive. -/
theorem Accepted.of {place : Option Place} (clean : (expr ctx e s).2.problems = [])
    (result : expr ctx e s = (some { ty := ty, place := place }, s'))
    (bindable : ctx.Bindable ty) (stepped : Stepped s s')
    (recorded : ∀ {access}, s'.access.Within access → Recorded ctx access s.locals.names e)
    (linked : ∀ {other}, ctx.types.Within other → expr (ctx.linked other) e s = expr ctx e s) :
    Accepted ctx s e { ty := ty, place := place } s' :=
  .of_live clean result bindable stepped (fun _ _ => nothing_live) recorded linked

theorem Accepted.unique {operand' : Operand}
    (first : Accepted ctx s e operand s') (second : Accepted ctx s e operand' s'') :
    operand = operand' ∧ s' = s'' := by
  obtain ⟨same, state⟩ := Prod.mk.inj (first.result.symm.trans second.result)
  exact ⟨Option.some.inj same, state⟩

/-! ### One form after another

Each lemma takes an accepted expression apart into its accepted operands and the step behind them.
-/

theorem unary_accepted {e inner : Expr} (next : Operand → Check (Option Operand))
    [∀ operand, Honest (next operand)]
    (form : expr ctx e = (do withOperand (← expr ctx inner) next)) (walks : Walks ctx inner)
    (formed : Formed ctx s) (clean : (expr ctx e s).2.problems = []) :
    ∃ operand s', Accepted ctx s inner operand s' ∧ (next operand s').2.problems = [] ∧
      expr ctx e s = next operand s' := by
  rw [form] at clean
  obtain ⟨operand, s', accepted⟩ := walks _ formed (clean_first clean)
  have same : expr ctx e s = next operand s' := by
    rw [form, bind_apply, accepted.result]
    rfl
  refine ⟨operand, s', accepted, ?_, same⟩
  rw [← form, same] at clean
  exact clean

theorem unary_linked {inner : Expr} (next : BodyContext → Operand → Check (Option Operand))
    (form : ∀ ctx, expr ctx e = (do withOperand (← expr ctx inner) (next ctx)))
    (accepted : Accepted ctx s inner operand s')
    (same : ctx.types.Within other → next (ctx.linked other) operand s' = next ctx operand s')
    (within : ctx.types.Within other) : expr (ctx.linked other) e s = expr ctx e s := by
  rw [form, form, bind_apply, bind_apply, accepted.linked within, accepted.result]
  exact same within

theorem expr_borrowField {mutable : Bool} {base : Expr}
    (other : ¬ ∃ baseMutable name, base = .borrow baseMutable name) :
    expr ctx (.borrowField mutable base field) =
      (do withOperand (← expr ctx base) (borrowField ctx mutable field)) := by
  rw [expr]
  exact fun baseMutable name equal => other ⟨baseMutable, name, equal⟩

/-- A field of a local is borrowed without borrowing the local. -/
theorem borrowField_local_accepted {mutable baseMutable : Bool} {name field : String}
    (formed : Formed ctx s)
    (clean : (expr ctx (.borrowField mutable (.borrow baseMutable name) field) s).2.problems = []) :
    ∃ id slot, s.locals.lookup name = some id ∧ s.locals.slot? id = some slot ∧
      slot.state = .live ∧ slot.ty.isRef = false ∧
      let base : Operand := { ty := .ref baseMutable slot.ty, place := some { root := .local id } }
      (borrowField ctx mutable field base s).2.problems = [] ∧
        expr ctx (.borrowField mutable (.borrow baseMutable name) field) s =
          borrowField ctx mutable field base s ∧
        ∀ other, expr (ctx.linked other) (.borrowField mutable (.borrow baseMutable name) field) s =
          borrowField (ctx.linked other) mutable field base s := by
  rw [expr] at clean
  obtain ⟨id, slot, found, present, live, value, base⟩ :=
    localBase_accepted formed.unpoisoned (clean_first clean)
  have based : ∀ other, localBase (ctx.linked other) (.fieldBorrow field) baseMutable name s = _ :=
    fun _ => base
  rw [bind_apply, base] at clean
  refine ⟨id, slot, found, present, live, value, clean, ?_, fun other => ?_⟩
  · rw [expr, bind_apply, base]
    rfl
  · rw [expr, bind_apply, based]
    rfl

theorem exprs_cons_accepted {es : List Expr} (walks : Walks ctx e) (walksAll : WalksAll ctx es)
    (formed : Formed ctx s) (clean : (exprs ctx (e :: es) s).2.problems = []) :
    ∃ operand s' operands s'', Accepted ctx s e operand s' ∧
      AcceptedAll ctx s' es operands s'' ∧
      exprs ctx (e :: es) s = ((operand :: operands).map some, s'') := by
  rw [exprs] at clean ⊢
  obtain ⟨operand, s', accepted⟩ := walks _ formed (clean_first clean)
  rw [bind_apply, accepted.result] at clean ⊢
  obtain ⟨operands, s'', acceptedAll⟩ := walksAll _ (accepted.walked.formed formed)
    (clean_first clean)
  refine ⟨operand, s', operands, s'', accepted, acceptedAll, ?_⟩
  rw [bind_apply, acceptedAll.result]
  rfl

theorem walksAll_nil : WalksAll ctx [] := by
  intro s formed clean
  exact ⟨[], s, by rw [exprs]; rfl, rfl, by rw [exprs] at clean; exact clean,
    fun _ member => (nomatch member), .refl formed, fun _ => trivial, fun _ => by rw [exprs]; rfl⟩

theorem walksAll_cons {es : List Expr} (walks : Walks ctx e) (walksAll : WalksAll ctx es) :
    WalksAll ctx (e :: es) := by
  intro s formed clean
  obtain ⟨operand, s', operands, s'', accepted, acceptedAll, same⟩ :=
    exprs_cons_accepted walks walksAll formed clean
  refine ⟨operand :: operands, s'', same, congrArg Nat.succ acceptedAll.count,
    acceptedAll.clean, ?_, accepted.stepped.trans acceptedAll.stepped, ?_, ?_⟩
  · exact List.forall_mem_cons.mpr ⟨accepted.bindable, acceptedAll.bindable⟩
  · intro access known
    have behind := known_behind (x := exprs ctx es) s'
    rw [acceptedAll.result] at behind
    exact ⟨accepted.recorded (behind.trans known),
      accepted.walked.names ▸ acceptedAll.recorded known⟩
  · intro other within
    rw [exprs, bind_apply, accepted.linked within, bind_apply, acceptedAll.linked within]
    rfl

theorem several_accepted {es : List Expr} (next : List (Option Operand) → Check (Option Operand))
    [∀ operands, Honest (next operands)] (form : expr ctx e = (do next (← exprs ctx es)))
    (walksAll : WalksAll ctx es) (formed : Formed ctx s) (clean : (expr ctx e s).2.problems = []) :
    ∃ operands s', AcceptedAll ctx s es operands s' ∧
      (next (operands.map some) s').2.problems = [] ∧
      expr ctx e s = next (operands.map some) s' := by
  rw [form] at clean ⊢
  obtain ⟨operands, s', accepted⟩ := walksAll _ formed (clean_first clean)
  rw [bind_apply, accepted.result] at clean ⊢
  exact ⟨operands, s', accepted, clean, rfl⟩

theorem several_linked {es : List Expr} {operands : List Operand}
    (next : BodyContext → List (Option Operand) → Check (Option Operand))
    (form : ∀ ctx, expr ctx e = (do next ctx (← exprs ctx es)))
    (accepted : AcceptedAll ctx s es operands s')
    (same : ctx.types.Within other →
      next (ctx.linked other) (operands.map some) s' = next ctx (operands.map some) s')
    (within : ctx.types.Within other) : expr (ctx.linked other) e s = expr ctx e s := by
  rw [form, form, bind_apply, bind_apply, accepted.linked within, accepted.result]
  exact same within

theorem fieldValues_apply (fields : List (String × Expr)) (s : BodyState) :
    fieldValues ctx fields s = ((fields.map (·.1)).zip (exprs ctx (fields.map (·.2)) s).1,
      (exprs ctx (fields.map (·.2)) s).2) := by
  induction fields generalizing s with
  | nil =>
    simp only [fieldValues, List.map_nil, exprs]
    rfl
  | cons field fields ih =>
    simp only [fieldValues, List.map_cons, exprs, bind_apply, pure_apply, ih, List.zip_cons_cons]

/-- The values of fields are walked as expressions, and their names put beside the operands. -/
theorem expr_pack (struct : StructExpr) (fields : List (String × Expr)) :
    expr ctx (.pack struct fields) = (do
      pack ctx struct ((fields.map (·.1)).zip (← exprs ctx (fields.map (·.2))))) := by
  funext s
  rw [expr, bind_apply, fieldValues_apply]
  rfl

theorem pack_accepted_operands {struct : StructExpr} {fields : List (String × Expr)}
    (walksAll : WalksAll ctx (fields.map (·.2))) (formed : Formed ctx s)
    (clean : (expr ctx (.pack struct fields) s).2.problems = []) :
    ∃ operands s', AcceptedAll ctx s (fields.map (·.2)) operands s' ∧
      let given := named ((fields.map (·.1)).zip operands)
      (pack ctx struct given s').2.problems = [] ∧
        expr ctx (.pack struct fields) s = pack ctx struct given s' ∧
        ∀ {other}, ctx.types.Within other →
          expr (ctx.linked other) (.pack struct fields) s = expr ctx (.pack struct fields) s := by
  obtain ⟨operands, s', accepted, rest, same⟩ := several_accepted _ (expr_pack struct fields)
    walksAll formed clean
  have linked : ∀ {other}, ctx.types.Within other →
      expr (ctx.linked other) (.pack struct fields) s = expr ctx (.pack struct fields) s := by
    intro other within
    rw [same, expr_pack, bind_apply, accepted.linked within]
    exact pack_linked within rest
  rw [List.zip_map_right] at rest same
  exact ⟨operands, s', accepted, rest, same, linked⟩

theorem eager_accepted {op : BinOp} {left right : Expr} (eager : op.isLogical = false)
    (walksLeft : Walks ctx left) (walksRight : Walks ctx right) (formed : Formed ctx s)
    (clean : (expr ctx (.binary op left right) s).2.problems = []) :
    ∃ leftOperand s' rightOperand s'', Accepted ctx s left leftOperand s' ∧
      Accepted ctx s' right rightOperand s'' ∧
      (binary ctx op leftOperand rightOperand s'').2.problems = [] ∧
      expr ctx (.binary op left right) s = binary ctx op leftOperand rightOperand s'' := by
  have form : expr ctx (.binary op left right) = (do
      let leftOperand ← expr ctx left
      let rightOperand ← expr ctx right
      withOperand leftOperand fun leftValue =>
        withOperand rightOperand (binary ctx op leftValue)) := by
    rw [expr]
    simp [eager]
  rw [form] at clean ⊢
  obtain ⟨leftOperand, s', acceptedLeft⟩ := walksLeft _ formed (clean_first clean)
  rw [bind_apply, acceptedLeft.result] at clean ⊢
  obtain ⟨rightOperand, s'', acceptedRight⟩ := walksRight _ (acceptedLeft.walked.formed formed)
    (clean_first clean)
  rw [bind_apply, acceptedRight.result] at clean ⊢
  exact ⟨leftOperand, s', rightOperand, s'', acceptedLeft, acceptedRight, clean, rfl⟩

/-- The state behind an operator whose right operand may be left out. -/
def joined (before after : BodyState) : BodyState :=
  merged before.locals.size ⟨after.locals, after.loans, false⟩ false
    (rewind after before.locals before.loans)

theorem logical_accepted_operands {op : BinOp} {left right : Expr} (lazy : op.isLogical = true)
    (walksLeft : Walks ctx left) (walksRight : Walks ctx right) (formed : Formed ctx s)
    (clean : (expr ctx (.binary op left right) s).2.problems = []) :
    ∃ leftOperand s' rightOperand s'', Accepted ctx s left leftOperand s' ∧
      Accepted ctx s' right rightOperand s'' ∧ leftOperand.ty.flowsInto .bool = true ∧
      rightOperand.ty.flowsInto .bool = true ∧
      expr ctx (.binary op left right) s = (some { ty := .bool }, joined s' s'') := by
  have form : expr ctx (.binary op left right) s =
      (withOperand (expr ctx left s).1 fun leftValue =>
        withOperand (expr ctx right (expr ctx left s).2).1 (logical ctx op leftValue))
      (joined (expr ctx left s).2 (expr ctx right (expr ctx left s).2).2) := by
    rw [expr]
    simp only [lazy, if_true, bind_apply, get_apply, set_apply, mergePaths_apply]
    rfl
  rw [form] at clean ⊢
  have joinedClean : (joined (expr ctx left s).2
    (expr ctx right (expr ctx left s).2).2).problems = [] := clean_before clean
  have rightClean : (expr ctx right (expr ctx left s).2).2.problems = [] := joinedClean
  have leftClean : (expr ctx left s).2.problems = [] := clean_before rightClean
  obtain ⟨leftOperand, s', acceptedLeft⟩ := walksLeft _ formed leftClean
  rw [acceptedLeft.result] at clean rightClean ⊢
  obtain ⟨rightOperand, s'', acceptedRight⟩ :=
    walksRight _ (acceptedLeft.walked.formed formed) rightClean
  rw [acceptedRight.result] at clean ⊢
  obtain ⟨leftFlows, rightFlows, same⟩ := logical_accepted clean
  exact ⟨leftOperand, s', rightOperand, s'', acceptedLeft, acceptedRight, leftFlows, rightFlows,
    same⟩

/-- What is done with an operand in storage of a struct, where both are known. -/
def onStored (ctx : BodyContext) (action : StructUse) (struct : StructExpr) (addr : Expr)
    (next : StructTag → Operand → Check (Option Operand)) : Check (Option Operand) := do
  let operand ← expr ctx addr
  let tag ← storedStruct ctx action struct
  withOperand operand fun value =>
    match tag with
    | some tag => next tag value
    | none => return none

theorem stored_accepted {e addr : Expr} (action : StructUse) (struct : StructExpr)
    (next : StructTag → Operand → Check (Option Operand)) [∀ tag operand, Honest (next tag operand)]
    (form : expr ctx e = onStored ctx action struct addr next)
    (walks : Walks ctx addr) (formed : Formed ctx s) (clean : (expr ctx e s).2.problems = []) :
    ∃ operand s' tag, Accepted ctx s addr operand s' ∧
      ctx.Names struct tag ∧ storedStruct ctx action struct s' = (some tag, s') ∧
      (next tag operand s').2.problems = [] ∧ expr ctx e s = next tag operand s' := by
  have rest : ∀ (operand : Option Operand) (tag : Option StructTag),
      Honest (withOperand operand fun value =>
        match tag with
        | some tag => next tag value
        | none => return none) := by
    intro operand tag
    cases operand <;> cases tag <;> (simp only [withOperand]; infer_instance)
  rw [form, onStored] at clean ⊢
  obtain ⟨operand, s', accepted⟩ := walks _ formed (clean_first clean)
  rw [bind_apply, accepted.result] at clean ⊢
  obtain ⟨tag, resolved, stored⟩ := storedStruct_accepted (clean_of_bind (rest _) clean)
  rw [bind_apply, stored] at clean ⊢
  exact ⟨operand, s', tag, accepted, resolved, stored, clean, rfl⟩

theorem stored_linked {addr : Expr} {tag : StructTag} (action : StructUse) (struct : StructExpr)
    (next : BodyContext → StructTag → Operand → Check (Option Operand))
    (form : ∀ ctx, expr ctx e = onStored ctx action struct addr (next ctx))
    (accepted : Accepted ctx s addr operand s')
    (stored : storedStruct ctx action struct s' = (some tag, s'))
    (same : ∀ other, next (ctx.linked other) = next ctx) (within : ctx.types.Within other) :
    expr (ctx.linked other) e s = expr ctx e s := by
  simp only [form, onStored, bind_apply, accepted.linked within, accepted.result, stored,
    storedStruct_linked within stored accepted.clean, same]

theorem Accepted.stored {addr : Expr} {tag : StructTag} {action : StructUse} {struct : StructExpr}
    {access : Access} (accepted : Accepted ctx s addr operand s')
    (resolved : ctx.Names struct tag)
    (stored : storedStruct ctx action struct s' = (some tag, s')) (known : s'.access.Within access)
    (acquired : action.acquires = true → tag.id ∈ access.direct) :
    Recorded ctx access s.locals.names addr ∧ StorageSite ctx access action struct := by
  obtain ⟨own, key⟩ := storedStruct_owned resolved stored accepted.clean
  exact ⟨accepted.recorded known, tag, resolved, own, key, acquired⟩

theorem moveTo_accepted_operands {struct : StructExpr} {signer value : Expr}
    (walksSigner : Walks ctx signer) (walksValue : Walks ctx value) (formed : Formed ctx s)
    (clean : (expr ctx (.moveTo struct signer value) s).2.problems = []) :
    ∃ signerOperand s' valueOperand s'' tag, Accepted ctx s signer signerOperand s' ∧
      Accepted ctx s' value valueOperand s'' ∧
      ctx.Names struct tag ∧ storedStruct ctx .moveTo struct s'' = (some tag, s'') ∧
      (moveTo ctx tag signerOperand valueOperand s'').2.problems = [] ∧
      expr ctx (.moveTo struct signer value) s =
        moveTo ctx tag signerOperand valueOperand s'' := by
  have rest : ∀ (first second : Option Operand) (tag : Option StructTag),
      Honest (withOperand first fun signer => withOperand second fun value =>
        match tag with
        | some tag => moveTo ctx tag signer value
        | none => return none) := by
    intro first second tag
    cases first <;> cases second <;> cases tag <;> (simp only [withOperand]; infer_instance)
  have next : ∀ first second : Option Operand, Honest (do
      let tag ← storedStruct ctx .moveTo struct
      withOperand first fun signer => withOperand second fun value =>
        match tag with
        | some tag => moveTo ctx tag signer value
        | none => return none) := fun first second => .bind (rest first second)
  rw [expr] at clean ⊢
  obtain ⟨signerOperand, s', acceptedSigner⟩ := walksSigner _ formed
    (clean_of_bind (fun _ => .bind fun _ => next _ _) clean)
  rw [bind_apply, acceptedSigner.result] at clean ⊢
  obtain ⟨valueOperand, s'', acceptedValue⟩ := walksValue _ (acceptedSigner.walked.formed formed)
    (clean_of_bind (fun _ => next _ _) clean)
  rw [bind_apply, acceptedValue.result] at clean ⊢
  obtain ⟨tag, resolved, stored⟩ := storedStruct_accepted (clean_of_bind (rest _ _) clean)
  rw [bind_apply, stored] at clean ⊢
  exact ⟨signerOperand, s', valueOperand, s'', tag, acceptedSigner, acceptedValue, resolved, stored,
    clean, rfl⟩

/-! ### The walk -/

theorem isPlain_fieldType? {u : Universe} (declared : u.Accepted) {count : Nat} {id : StructId}
    {args : List Ty} (plain : u.isPlain count (.struct id args) = true)
    (found : u.fieldType? ⟨id, args⟩ field = some ty) : u.isPlain count ty = true := by
  obtain ⟨struct, index, present, _, typed⟩ := StructDef.fieldType?_eq_some found
  obtain ⟨entry, here, rfl⟩ := Option.map_eq_some_iff.mp typed
  exact isPlain_fieldsAt declared plain present (List.mem_of_getElem? here)

theorem walks_useLocal {use : LocalUse} {name : String}
    (form : ∀ ctx, expr ctx e = useLocal ctx use name)
    (recorded : ∀ {access scope}, name ∈ scope → Recorded ctx access scope e) : Walks ctx e := by
  intro s formed clean
  rw [form] at clean
  obtain ⟨id, slot, found, present, _, step⟩ := useLocal_accepted formed.unpoisoned clean
  rw [← form] at clean step
  have named := mem_names_of_lookup found
  have linked : ∀ other, expr (ctx.linked other) e s = expr ctx e s := by
    intro other
    rw [form, form]
    rfl
  have live : s.Backed → lapses ctx e s = false → s.loans.AllLive slot.loans :=
    fun backed _ loan member => (backed id (formed.mem_visible present) slot present loan member).2
  rcases step with ⟨_, _, same⟩ | ⟨_, _, same⟩
  · exact ⟨_, _, .of_live clean same (formed.slot present).1 (.refl formed) live
      (fun _ => recorded named) fun _ => linked _⟩
  · exact ⟨_, _, .of_live clean same (formed.slot present).1 (.consume formed id) live
      (fun _ => recorded named) fun _ => linked _⟩

theorem walks_literal (form : ∀ ctx, expr ctx e = pure (some { ty := ty }))
    (plain : ctx.Plain ty)
    (recorded : ∀ {access scope}, Recorded ctx access scope e) : Walks ctx e := by
  intro s formed clean
  exact ⟨_, _, .of clean (by rw [form]; rfl) (isBindable_of_isPlain plain) (.refl formed)
    (fun _ => recorded) fun _ => by rw [form, form]⟩

theorem walked_borrowField {mutable : Bool} {base : Operand} (declared : ctx.types.Accepted)
    (bindable : ctx.Bindable base.ty) (formed : Formed ctx s')
    (stepped : Stepped s s')
    (live : s.Backed → lapses ctx e s = false → s'.loans.AllLive base.loans)
    (recorded : ∀ {access}, s'.access.Within access → Recorded ctx access s.locals.names e)
    (linked : ∀ {other}, ctx.types.Within other → expr (ctx.linked other) e s = expr ctx e s)
    (clean : (expr ctx e s).2.problems = [])
    (same : expr ctx e s = borrowField ctx mutable field base s') :
    ∃ operand s'', Accepted ctx s e operand s'' := by
  rw [same] at clean
  obtain ⟨_, id, args, ty, form, _, typed, step⟩ := borrowField_accepted clean
  rw [← same] at clean step
  have plain : ctx.Plain (.struct id args) := by rwa [form] at bindable
  have fieldPlain := isPlain_fieldType? declared plain typed
  rcases step with ⟨place, _, step⟩ | ⟨_, step⟩
  · exact ⟨_, _, .of_live clean step fieldPlain (stepped.trans (.grant formed _ s'.access))
      (fun backed calm => (live backed calm).granted _) recorded linked⟩
  · exact ⟨_, _, .of_live clean step fieldPlain stepped live recorded linked⟩

/-! ### One form at a time -/

variable {mutable : Bool} {name : String} {op : BinOp} {struct : StructExpr} {elem : TypeExpr}
  {module : Option String} {function : String} {typeArgs : List TypeExpr}
  {addr base inner left right signer value : Expr} {args items : List Expr}
  {fields : List (String × Expr)}

theorem walks_borrow : Walks ctx (.borrow mutable name) := by
  intro s formed clean
  have form : expr ctx (.borrow mutable name) s = borrowLocal ctx mutable name s := by rw [expr]
  rw [form] at clean
  obtain ⟨id, slot, found, present, _, value, step⟩ := borrowLocal_accepted formed.unpoisoned clean
  rw [← form] at clean step
  exact ⟨_, _, .of_live clean step (isPlain_of_isBindable (formed.slot present).1 value)
    (.grant formed _ s.access) (fun _ _ => Loans.AllLive.granted nothing_live _)
    (fun _ => mem_names_of_lookup found) fun _ => by rw [expr, expr]; rfl⟩

theorem walks_borrowField (declared : ctx.types.Accepted) (walks : Walks ctx base) :
    Walks ctx (.borrowField mutable base field) := by
  intro s formed clean
  by_cases direct : ∃ baseMutable name, base = .borrow baseMutable name
  · obtain ⟨baseMutable, name, rfl⟩ := direct
    obtain ⟨id, slot, found, present, _, value, _, same, linked⟩ :=
      borrowField_local_accepted formed clean
    have plain : ctx.Bindable (.ref baseMutable slot.ty) :=
      isPlain_of_isBindable (formed.slot present).1 value
    exact walked_borrowField declared plain formed (.refl formed) (fun _ _ => nothing_live)
      (fun _ => mem_names_of_lookup found)
      (fun within => (linked _).trans ((borrowField_linked within plain).trans same.symm)) clean
      same
  · obtain ⟨operand, s', accepted, _, same⟩ :=
      unary_accepted _ (expr_borrowField direct) walks formed clean
    exact walked_borrowField declared accepted.bindable (accepted.walked.formed formed)
      accepted.stepped accepted.live accepted.recorded (unary_linked (borrowField · mutable field)
        (fun _ => expr_borrowField direct) accepted fun within =>
          borrowField_linked within accepted.bindable) clean same

theorem walks_freeze (walks : Walks ctx inner) : Walks ctx (.freeze inner) := by
  intro s formed clean
  obtain ⟨operand, s', accepted, rest, same⟩ :=
    unary_accepted (freeze ctx) rfl walks formed clean
  obtain ⟨target, form, step⟩ := freeze_accepted rest
  exact ⟨_, _, .of_live clean (same.trans step) (accepted.plain form) accepted.stepped
    accepted.live accepted.recorded (unary_linked freeze (fun _ => rfl) accepted fun _ => rfl)⟩

theorem walks_deref (walks : Walks ctx inner) : Walks ctx (.deref inner) := by
  intro s formed clean
  obtain ⟨operand, s', accepted, rest, same⟩ :=
    unary_accepted (dereference ctx) rfl walks formed clean
  obtain ⟨mutable, target, loans, form, _, step, releases⟩ := dereference_accepted rest
  exact ⟨_, _, .of clean (same.trans step) (isBindable_of_isPlain (accepted.plain form))
    (accepted.stepped.trans (.release (accepted.walked.formed formed) releases s'.access))
    accepted.recorded (unary_linked dereference (fun _ => rfl) accepted fun within =>
      dereference_linked within accepted.bindable)⟩

theorem walks_pack (walks : WalksAll ctx (fields.map (·.2))) : Walks ctx (.pack struct fields) := by
  intro s formed clean
  obtain ⟨operands, s', accepted, rest, same, linked⟩ :=
    pack_accepted_operands walks formed clean
  obtain ⟨tag, _, resolved, _, _, _, step⟩ := pack_accepted rest
  exact ⟨_, _, .of clean (same.trans step)
    (isBindable_of_isPlain (isPlain_resolveStruct resolved)) accepted.stepped
    (fun known => recordedFields_iff.mpr (accepted.recorded known)) linked⟩

theorem walks_call (declared : ctx.types.Accepted) (walks : WalksAll ctx args) :
    Walks ctx (.call module function typeArgs args) := by
  intro s formed clean
  obtain ⟨operands, s', accepted, rest, same⟩ := several_accepted
    (call ctx module function typeArgs) rfl walks formed clean
  obtain ⟨callee, types, access, loans, found, count, resolved, faultless, fit, step,
    releases, known, listed⟩ := call_accepted rest
  have plain := arePlain_of_resolved resolved
  have enough : callee.typeParams.length ≤ types.length :=
    Nat.le_of_eq (count.trans resolved.length_eq)
  have bindable := isBindable_subst enough plain (declared.ret_bindable found)
  refine ⟨_, _, .of_live clean (same.trans step) ?_ (accepted.stepped.trans
    (.release (accepted.walked.formed formed) releases access)) (fun _ calm id member => ?_)
    (fun within => ⟨accepted.recorded (known.trans within), within.calls _ listed, callee, types,
      found, count, resolved, faultless, fit.length_eq.symm.trans accepted.count⟩)
    (several_linked (call · module function typeArgs) (fun _ => rfl) accepted fun within =>
      call_linked within rest)⟩
  · unfold callResult
    split <;> exact bindable
  · rw [lapses, same.trans step] at calm
    simpa [Option.isSome_iff_ne_none] using List.any_eq_false.mp calm id member

theorem walks_binary (walksLeft : Walks ctx left) (walksRight : Walks ctx right) :
    Walks ctx (.binary op left right) := by
  intro s formed clean
  cases lazy : op.isLogical with
  | true =>
    obtain ⟨_, s', _, s'', acceptedLeft, acceptedRight, _, _, same⟩ := logical_accepted_operands
      lazy walksLeft walksRight formed clean
    have between := acceptedLeft.walked.formed formed
    have one := acceptedRight.walked.toLeaves
    have other := (Walked.refl (formed_rewind between one)).toLeaves
    exact ⟨_, _, .of clean same rfl
      (acceptedLeft.stepped.trans ⟨.merge false false between one other,
        fun backed => backed_merged between one other (acceptedRight.stepped.backed backed) backed⟩)
      (fun known => acceptedLeft.both acceptedRight known) fun within => by
        rw [expr, expr]
        simp only [lazy, if_true, bind_apply, get_apply, acceptedLeft.linked within,
          acceptedLeft.result, acceptedRight.linked within, acceptedRight.result]
        rfl⟩
  | false =>
    obtain ⟨leftOperand, s', _, s'', acceptedLeft, acceptedRight, rest, same⟩ := eager_accepted
      lazy walksLeft walksRight formed clean
    have stepped := acceptedLeft.stepped.trans acceptedRight.stepped
    have linked : ∀ {other}, ctx.types.Within other →
        expr (ctx.linked other) (.binary op left right) s =
          expr ctx (.binary op left right) s := by
      intro other within
      rw [expr, expr]
      simp only [lazy, Bool.false_eq_true, if_false, bind_apply, acceptedLeft.linked within,
        acceptedLeft.result, acceptedRight.linked within, acceptedRight.result]
      exact binary_linked within acceptedLeft.bindable
    cases integer : op.isArithmetic || op.isOrdering with
    | true =>
      obtain ⟨_, _, step⟩ := binary_accepted_integer integer rest
      refine ⟨_, _, .of clean (same.trans step) ?_ stepped
        (fun known => acceptedLeft.both acceptedRight known) linked⟩
      split
      · exact acceptedLeft.bindable
      · rfl
    | false =>
      obtain ⟨loans, _, _, step, releases⟩ := binary_accepted_equality integer rest
      exact ⟨_, _, .of clean (same.trans step) rfl
        (stepped.trans (.release (stepped.formed formed) releases s''.access))
        (fun known => acceptedLeft.both acceptedRight known) linked⟩

theorem walks_not (walks : Walks ctx inner) : Walks ctx (.not inner) := by
  intro s formed clean
  obtain ⟨operand, s', accepted, rest, same⟩ :=
    unary_accepted (negate ctx) rfl walks formed clean
  obtain ⟨_, step⟩ := negate_accepted rest
  exact ⟨_, _, .of clean (same.trans step) rfl accepted.stepped accepted.recorded
    (unary_linked negate (fun _ => rfl) accepted fun _ => rfl)⟩

theorem walks_vector (walks : WalksAll ctx items) : Walks ctx (.vector elem items) := by
  intro s formed clean
  obtain ⟨operands, s', accepted, rest, same⟩ :=
    several_accepted (vector ctx elem) rfl walks formed clean
  obtain ⟨ty, resolved, _, step⟩ := vector_accepted rest
  have plain : ctx.Plain ty := isPlain_resolveAt resolved
  exact ⟨_, _, .of clean (same.trans step) plain accepted.stepped accepted.recorded (several_linked
    (vector · elem) (fun _ => rfl) accepted fun within => vector_linked within rest)⟩

theorem walks_signerAddress (walks : Walks ctx inner) : Walks ctx (.signerAddress inner) := by
  intro s formed clean
  obtain ⟨operand, s', accepted, rest, same⟩ :=
    unary_accepted (signerAddress ctx) rfl walks formed clean
  obtain ⟨loans, _, step, releases⟩ := signerAddress_accepted rest
  exact ⟨_, _, .of clean (same.trans step) rfl
    (accepted.stepped.trans (.release (accepted.walked.formed formed) releases s'.access))
    accepted.recorded (unary_linked signerAddress (fun _ => rfl) accepted fun _ => rfl)⟩

theorem walks_moveTo (walksSigner : Walks ctx signer) (walksValue : Walks ctx value) :
    Walks ctx (.moveTo struct signer value) := by
  intro s formed clean
  obtain ⟨_, s', _, s'', tag, acceptedSigner, acceptedValue, resolved, stored, rest, same⟩ :=
    moveTo_accepted_operands walksSigner walksValue formed clean
  obtain ⟨loans, _, _, step, releases⟩ := moveTo_accepted rest
  have stepped := acceptedSigner.stepped.trans acceptedValue.stepped
  refine ⟨_, _, .of clean (same.trans step) rfl
    (stepped.trans (.release (stepped.formed formed) releases s''.access)) (fun known => ?_)
    fun within => ?_⟩
  · have both := acceptedSigner.both acceptedValue known
    have site := acceptedValue.stored resolved stored known (absurd · Bool.false_ne_true)
    exact ⟨both.1, both.2, site.2⟩
  · rw [same, expr]
    simp only [bind_apply, acceptedSigner.linked within, acceptedValue.linked within,
      storedStruct_linked within stored acceptedValue.clean]
    rfl

theorem walks_moveFrom (walks : Walks ctx addr) : Walks ctx (.moveFrom struct addr) := by
  intro s formed clean
  obtain ⟨operand, s', tag, accepted, resolved, stored, rest, same⟩ :=
    stored_accepted .moveFrom struct (moveFrom ctx) rfl walks formed clean
  obtain ⟨access, _, _, step, known, listed⟩ := moveFrom_accepted rest
  have after := accepted.walked.formed formed
  exact ⟨_, _, .of clean (same.trans step)
    (isBindable_of_isPlain (isPlain_resolveStruct resolved))
    (accepted.stepped.trans ⟨.of_loans after rfl rfl rfl (Loans.Follows.refl _) after.bounded,
      fun backed => backed⟩)
    (fun within => accepted.stored resolved stored (known.trans within) fun _ =>
      within.direct _ listed)
    (stored_linked .moveFrom struct moveFrom (fun _ => rfl) accepted stored fun _ => rfl)⟩

theorem walks_borrowGlobal (walks : Walks ctx addr) :
    Walks ctx (.borrowGlobal struct mutable addr) := by
  intro s formed clean
  obtain ⟨operand, s', tag, accepted, resolved, stored, rest, same⟩ := stored_accepted
    (.borrowGlobal mutable) struct (borrowGlobal ctx · mutable) rfl walks formed clean
  obtain ⟨access, _, step, known, listed⟩ := borrowGlobal_accepted rest
  exact ⟨_, _, .of_live clean (same.trans step) (isPlain_resolveStruct resolved)
    (accepted.stepped.trans (.grant (accepted.walked.formed formed) _ access))
    (fun _ _ => Loans.AllLive.granted nothing_live _)
    (fun within => accepted.stored resolved stored (known.trans within) fun _ =>
      within.direct _ listed)
    (stored_linked (.borrowGlobal mutable) struct (borrowGlobal · · mutable) (fun _ => rfl)
      accepted stored fun _ => rfl)⟩

theorem walks_existsAt (walks : Walks ctx addr) : Walks ctx (.existsAt struct addr) := by
  intro s formed clean
  obtain ⟨operand, s', tag, accepted, resolved, stored, rest, same⟩ :=
    stored_accepted .existsAt struct (fun _ => existsAt ctx) rfl walks formed clean
  obtain ⟨_, step⟩ := existsAt_accepted rest
  exact ⟨_, _, .of clean (same.trans step) rfl accepted.stepped
    (fun known => accepted.stored resolved stored known (absurd · Bool.false_ne_true))
    (stored_linked .existsAt struct (fun ctx _ => existsAt ctx) (fun _ => rfl) accepted stored
      fun _ => rfl)⟩

mutual

theorem walks_expr (declared : ctx.types.Accepted) : (e : Expr) → Walks ctx e
  | .unit | .bool _ | .u8 _ | .u64 _ | .u128 _ | .address _ =>
    walks_literal (fun _ => rfl) rfl trivial
  | .var _ | .move _ | .copy _ => walks_useLocal (fun _ => rfl) fun found => found
  | .borrow .. => walks_borrow
  | .borrowField _ base _ => walks_borrowField declared (walks_expr declared base)
  | .freeze inner => walks_freeze (walks_expr declared inner)
  | .deref inner => walks_deref (walks_expr declared inner)
  | .pack _ fields => walks_pack (walks_fields declared fields)
  | .call _ _ _ args => walks_call declared (walks_exprs declared args)
  | .binary _ left right => walks_binary (walks_expr declared left) (walks_expr declared right)
  | .not inner => walks_not (walks_expr declared inner)
  | .vector _ items => walks_vector (walks_exprs declared items)
  | .signerAddress inner => walks_signerAddress (walks_expr declared inner)
  | .moveTo _ signer value => walks_moveTo (walks_expr declared signer) (walks_expr declared value)
  | .moveFrom _ addr => walks_moveFrom (walks_expr declared addr)
  | .borrowGlobal _ _ addr => walks_borrowGlobal (walks_expr declared addr)
  | .existsAt _ addr => walks_existsAt (walks_expr declared addr)

theorem walks_exprs (declared : ctx.types.Accepted) : (es : List Expr) → WalksAll ctx es
  | [] => walksAll_nil
  | e :: es => walksAll_cons (walks_expr declared e) (walks_exprs declared es)

theorem walks_fields (declared : ctx.types.Accepted) :
    (fields : List (String × Expr)) → WalksAll ctx (fields.map (·.2))
  | [] => walksAll_nil
  | (_, e) :: fields => walksAll_cons (walks_expr declared e) (walks_fields declared fields)

end

end Expressions

end Check

end Custody
