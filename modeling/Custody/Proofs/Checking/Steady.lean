import Custody.Check.Program
import Custody.Proofs.Checking.Loans
/-!
# Steady bodies

The checker looks at every statement once. Two things it takes for granted that need not hold: that
an operand still waiting for its operation keeps what it borrowed while the operands behind it are
checked, and that a loop, having gone round once, stands where it began. A body is steady where both
hold. The test reruns the checker and compares the states it passes through.
-/

namespace Custody

variable {decl : FunctionDecl} {program : Program} {id : FunctionId}

/-- The state in which a statement is walked that the rest of its block stands behind. -/
abbrev BodyState.facing (s : BodyState) (rest : List Stmt) (outer : List String) : BodyState :=
  { s with liveAfter := Stmt.blockNames rest ++ outer }

namespace Check

variable (linear : Bool) (ctx : BodyContext)

/-! ## Operands in waiting -/

/-- Those of the given loans that are live before are live after. -/
def stay (ids : List LoanId) (before after : Loans) : Bool :=
  ids.all fun id => (before.get? id).isNone || (after.get? id).isSome

/-- The loans an operand keeps alive. -/
def heldBy : Option Operand → List LoanId
  | some operand => operand.loans.toList
  | none => []

mutual

/-- No operand loses a loan while it waits for the operands behind it, and the right operand of `&&`
and `||`, which may be left out, takes no loan away. -/
def steadyExpr : Expr → BodyState → Bool
  | .borrowField _ inner _, s | .freeze inner, s | .deref inner, s | .not inner, s
  | .signerAddress inner, s | .moveFrom _ inner, s | .borrowGlobal _ _ inner, s
  | .existsAt _ inner, s => steadyExpr inner s
  | .pack _ fields, s => steadyFields fields s
  | .call _ _ _ args, s => steadyExprs args s
  | .vector _ items, s => steadyExprs items s
  | .moveTo _ signer value, s =>
    steadyExpr signer s && steadyExpr value (expr ctx signer s).2
  | .binary op left right, s =>
    let between := (expr ctx left s).2
    let waiting := if op.isLogical then between.loans.live.keys else heldBy (expr ctx left s).1
    steadyExpr left s && steadyExpr right between &&
      stay waiting between.loans (expr ctx right between).2.loans
  | .unit, _ | .bool _, _ | .u8 _, _ | .u64 _, _ | .u128 _, _ | .address _, _ | .var _, _
  | .move _, _ | .copy _, _ | .borrow _ _, _ => true

/-- No operand of several loses a loan while it waits. -/
def steadyExprs : List Expr → BodyState → Bool
  | [], _ => true
  | head :: tail, s =>
    let between := (expr ctx head s).2
    steadyExpr head s && steadyExprs tail between &&
      stay (heldBy (expr ctx head s).1) between.loans (exprs ctx tail between).2.loans

/-- Fields likewise. -/
def steadyFields : List (String × Expr) → BodyState → Bool
  | [], _ => true
  | (_, head) :: tail, s =>
    let between := (expr ctx head s).2
    steadyExpr head s && steadyFields tail between &&
      stay (heldBy (expr ctx head s).1) between.loans (fieldValues ctx tail between).2.loans

end

/-! ## Loops -/

/-- What is known behind one round of a loop holds as well of what was known at its head: what had a
value has one, and references borrow no other locals than before. If `linear`, what had no value has
none, or none that matters. -/
def covers (head behind : BodyState) : Bool :=
  (List.range head.locals.size).all fun id =>
    match head.locals.slot? id, behind.locals.slot? id with
    | some old, some new =>
      decide (old.state = .live → new.state = .live ∧
        ∀ binding ∈ behind.loans.borrowed new.loans, binding ∈ head.loans.borrowed old.loans) &&
      decide (linear = true → old.state = .consumed →
        new.state = .consumed ∨ new.canDrop = true)
    | _, _ => true

/-- The state behind a condition, where what it borrowed is free again. -/
def conditioned (cond : Expr) (s : BodyState) : BodyState :=
  (releaseTemporaries (expr ctx cond s).2).2

/-- The state in which the body of a loop is walked. -/
def loopEntry (cond : Expr) (body : List Stmt) (s : BodyState) : BodyState :=
  { conditioned ctx cond s with
    liveAfter := cond.names ++ Stmt.blockNames body ++ (conditioned ctx cond s).liveAfter }

/-- A test that reruns the checker: of each expression where it is walked, and of each loop by the
states at its head and behind one round. -/
structure Trial where
  evaluates : Expr → BodyState → Bool
  comesRound : BodyState → BodyState → Bool

namespace Trial

variable (trial : Trial)

mutual

/-- Every expression of a statement passes, and so does every loop in it. -/
def passes : Stmt → BodyState → Bool
  | .bind _ _ value, s | .unpack _ _ value, s | .assign _ value, s | .ret (some value), s
  | .abort value, s | .assert value _, s | .eval value, s => trial.evaluates value s
  | .ret none, _ => true
  | .write target value, s =>
    trial.evaluates value s && trial.evaluates target (expr ctx value s).2
  | .branch cond onTrue none, s =>
    trial.evaluates cond s &&
      passesAll onTrue (conditioned ctx cond s).liveAfter
        { conditioned ctx cond s with locals := (conditioned ctx cond s).locals.pushScope }
  | .branch cond onTrue (some onFalse), s =>
    let before := conditioned ctx cond s
    let first := inScope ctx (fun outer => stmts ctx outer onTrue) before
    let rewound := rewind first.2 before.locals before.loans
    trial.evaluates cond s &&
      passesAll onTrue before.liveAfter { before with locals := before.locals.pushScope } &&
      passesAll onFalse rewound.liveAfter { rewound with locals := rewound.locals.pushScope }
  | .loop cond body, s =>
    let entry := loopEntry ctx cond body s
    let round := inScope ctx (fun outer => stmts ctx outer body) entry
    trial.evaluates cond s &&
      passesAll body entry.liveAfter { entry with locals := entry.locals.pushScope } &&
      (round.1 || trial.comesRound s round.2)

/-- Every statement passes, up to the first behind which no path goes on. -/
def passesAll : List Stmt → List String → BodyState → Bool
  | [], _, _ => true
  | head :: tail, outer, s =>
    let start : BodyState := s.facing tail outer
    let walked := settle (Stmt.blockNames tail ++ outer) (stmt ctx head) s
    passes head start && (walked.1 || passesAll tail outer walked.2)

end

/-- A whole body, from where its parameters are declared. -/
def passesBody (body : List Stmt) : Bool :=
  let start := (params ctx [] ctx.signature.params {}).2
  trial.passesAll ctx body start.liveAfter { start with locals := start.locals.pushScope }

end Trial

/-- Expressions are steady, and every loop comes round to where it began. -/
def steadiness : Trial := ⟨steadyExpr ctx, covers linear⟩

end Check

namespace Program

/-- Every body of the program passes. -/
def passes (trial : BodyContext → Check.Trial) (program : Program) : Bool :=
  program.modules.all fun module => module.functions.all fun decl =>
    match program.types.function? ⟨module.name, decl.name⟩ with
    | some signature =>
      (trial ⟨program.types, signature⟩).passesBody ⟨program.types, signature⟩ decl.body
    | none => true

/-- Every body of the program is steady. -/
def steady (linear : Bool) (program : Program) : Bool := program.passes (Check.steadiness linear)

/-- Operands in waiting keep their loans, and loops stand again where they began. -/
def isSteady (program : Program) : Bool := program.steady false

/-- Steady, and no loop fills a binding that was empty when the loop began. -/
def isFrugal (program : Program) : Bool := program.steady true

/-- A function that the program knows is declared in one of its modules. -/
theorem declared_of_function? (found : program.function? id = some decl) :
    ∃ module ∈ program.modules, decl ∈ module.functions ∧
      (⟨module.name, decl.name⟩ : FunctionId) = id := by
  obtain ⟨module, here, inside⟩ := Option.bind_eq_some_iff.mp found
  have moduleName : module.name = id.module := by simpa using List.find?_some here
  have declName : decl.name = id.name := by simpa using List.find?_some inside
  exact ⟨module, List.mem_of_find?_eq_some here, List.mem_of_find?_eq_some inside,
    by rw [moduleName, declName]⟩

theorem passesBody_of_passes {trial : BodyContext → Check.Trial}
    (passes : program.passes trial = true) {signature : Signature}
    (found : program.function? id = some decl)
    (registered : program.types.function? id = some signature) :
    (trial ⟨program.types, signature⟩).passesBody ⟨program.types, signature⟩ decl.body = true := by
  obtain ⟨module, listed, declared, named⟩ := declared_of_function? found
  have each := List.all_eq_true.mp (List.all_eq_true.mp passes module listed) decl declared
  simpa [named, registered] using each

end Program

end Custody
