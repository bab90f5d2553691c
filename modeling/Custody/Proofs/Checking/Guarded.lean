import Custody.Proofs.Checking.Reach
/-!
# Guarded bodies

Two more things the checker takes for granted. While a slot of storage is borrowed, it lets go of
the struct only the calls that name it in their `acquires` clause, and a clause does not mention
structs of other modules: a call that leaves the module and comes back may empty the slot. And it
keeps arguments apart by the places they are known to point at, although a place may be unknown, or
that of another path. A body is guarded where neither can do harm. The test reruns the checker:
against everything that a function reaches, and against the loans of the arguments, which cover
every place they may come from.
-/

namespace Custody

variable {loans : Loans} {ids : LoanSet}

/-! ## Origins of references -/

/-- What a loan says of the references it stands for, whatever its number. -/
def Loan.origin (loan : Loan) : Place × LoanMode := (loan.place, loan.mode)

namespace Loans

/-- The origins of the given loans, as far as the loans are live. -/
def origins (loans : Loans) (ids : LoanSet) : List (Place × LoanMode) :=
  ids.toList.filterMap fun id => (loans.get? id).map Loan.origin

theorem mem_origins {origin : Place × LoanMode} :
    origin ∈ loans.origins ids ↔
      ∃ id ∈ ids, ∃ loan, loans.get? id = some loan ∧ loan.origin = origin := by
  simp only [origins, List.mem_filterMap, Option.map_eq_some_iff]
  rfl

theorem origins_mono {loans' : Loans} {ids' : LoanSet}
    (kept : ∀ id ∈ ids, ∀ loan, loans.get? id = some loan →
      id ∈ ids' ∧ loans'.get? id = some loan) :
    ∀ origin ∈ loans.origins ids, origin ∈ loans'.origins ids' := by
  intro origin inside
  obtain ⟨id, member, loan, granted, known⟩ := mem_origins.mp inside
  obtain ⟨member', granted'⟩ := kept id member loan granted
  exact mem_origins.mpr ⟨id, member', loan, granted', known⟩

/-- A further loan takes no origin away. -/
theorem origins_insert {ids' : LoanSet} (bounded : loans.Bounded) (loan : Loan)
    (more : ∀ id ∈ ids, id ∈ ids') :
    ∀ origin ∈ loans.origins ids, origin ∈ (loans.insert loan).2.origins ids' :=
  origins_mono fun id member other granted => ⟨more id member, by
    rw [get?_insert, if_neg (Nat.ne_of_lt (bounded id other granted)), granted]⟩

/-- Locals are borrowed where an origin says so. -/
theorem borrowed_subset {loans' : Loans} {ids' : LoanSet}
    (known : ∀ origin ∈ loans.origins ids, origin ∈ loans'.origins ids') :
    ∀ binding ∈ loans.borrowed ids, binding ∈ loans'.borrowed ids' := by
  intro binding inside
  obtain ⟨id, member, loan, granted, rooted⟩ := mem_borrowed.mp inside
  obtain ⟨id', member', loan', granted', same⟩ :=
    mem_origins.mp (known loan.origin (mem_origins.mpr ⟨id, member, loan, granted, rfl⟩))
  have samePlace : loan'.place = loan.place := congrArg (·.1) same
  exact mem_borrowed.mpr ⟨id', member', loan', granted', by rw [samePlace, rooted]⟩

end Loans

/-! ## Reach -/

/-- The structs that a function is known to reach. -/
def Access.reached (reach : Reach) (id : FunctionId) : SortedSet StructId := (reach.get? id).getD ∅

/-- What bodies are held to: the structs that functions reach and, if `apart`, that a mutable
reference is handed over only without another one into the same place. -/
structure Guard where
  reach : Access.Reach
  apart : Bool

namespace Check

variable (guard : Guard) (ctx : BodyContext)

/-- Nothing in storage that a callee reaches is borrowed. -/
def unborrowed (structs : SortedSet StructId) (loans : Loans) : Bool :=
  structs.toList.all fun struct => (loanOf? loans struct).isNone

/-- No place that the first operand lets one write to meets a place of the second. -/
def keepsOff (loans : Loans) (left right : Operand) : Bool :=
  (loans.origins left.loans).all fun origin =>
    decide (origin.2 = .shared) ||
      (loans.origins right.loans).all fun other => !other.1.overlaps origin.1

/-- Mutable references among the operands keep off every other reference. -/
def allApart (loans : Loans) (operands : List Operand) : Bool :=
  operands.zipIdx.all fun left => operands.zipIdx.all fun right =>
    decide (left.2 = right.2) || !left.1.ty.isMutableRef || !right.1.ty.isRef ||
      keepsOff loans left.1 right.1

/-- The struct that a written one denotes is reached. -/
def reachesStruct (struct : StructExpr) : Bool :=
  match ctx.types.resolveStruct ctx.module ctx.signature.typeParams struct with
  | .ok tag => (Access.reached guard.reach ctx.signature.id).contains tag.id
  | .error _ => true

/-- A call, behind its operands: the caller reaches what the callee does, nothing of it is borrowed,
and the operands are apart. -/
def guardedCall (callee : FunctionId) (operands : List (Option Operand)) (loans : Loans) : Bool :=
  (Access.reached guard.reach callee).toList.all
      (Access.reached guard.reach ctx.signature.id).contains &&
    unborrowed (Access.reached guard.reach callee) loans &&
    (!guard.apart || ((allOperands? operands).map (allApart loans)).getD true)

mutual

/-- Storage that an expression reaches is known to be reached, and every call in it is guarded. -/
def guardedExpr : Expr → BodyState → Bool
  | .borrowField _ inner _, s | .freeze inner, s | .deref inner, s | .not inner, s
  | .signerAddress inner, s | .existsAt _ inner, s => guardedExpr inner s
  | .moveFrom struct inner, s | .borrowGlobal struct _ inner, s =>
    guardedExpr inner s && reachesStruct guard ctx struct
  | .pack _ fields, s => guardedFields fields s
  | .call module function _ args, s =>
    guardedExprs args s &&
      guardedCall guard ctx ⟨module.getD ctx.module, function⟩ (exprs ctx args s).1
        (exprs ctx args s).2.loans
  | .vector _ items, s => guardedExprs items s
  | .moveTo _ left right, s | .binary _ left right, s =>
    guardedExpr left s && guardedExpr right (expr ctx left s).2
  | .unit, _ | .bool _, _ | .u8 _, _ | .u64 _, _ | .u128 _, _ | .address _, _ | .var _, _
  | .move _, _ | .copy _, _ | .borrow _ _, _ => true

/-- Expressions, each in the state behind the one before. -/
def guardedExprs : List Expr → BodyState → Bool
  | [], _ => true
  | head :: tail, s => guardedExpr head s && guardedExprs tail (expr ctx head s).2

/-- Fields likewise. -/
def guardedFields : List (String × Expr) → BodyState → Bool
  | [], _ => true
  | (_, head) :: tail, s => guardedExpr head s && guardedFields tail (expr ctx head s).2

end

/-! ## Statements -/

/-- Behind one round of a loop references come from no other places than at its head. -/
def recalls (head behind : BodyState) : Bool :=
  (List.range head.locals.size).all fun id =>
    match head.locals.slot? id, behind.locals.slot? id with
    | some old, some new =>
      decide (old.state = .live → ∀ origin ∈ behind.loans.origins new.loans,
        origin ∈ head.loans.origins old.loans)
    | _, _ => true

/-- Expressions are guarded, and loops bring no reference from elsewhere. -/
def guardedness : Trial := ⟨guardedExpr guard ctx, recalls⟩

end Check

namespace Program

/-- Every body of the program is guarded. -/
def guarded (guard : Guard) (program : Program) : Bool := program.passes (Check.guardedness guard)

/-- No call reaches storage that is borrowed while it lasts. -/
def isGuarded (program : Program) : Bool := program.guarded ⟨program.reach, false⟩

/-- Guarded, and mutable references are handed over without another one into the same place. -/
def isApart (program : Program) : Bool := program.guarded ⟨program.reach, true⟩

end Program

end Custody
