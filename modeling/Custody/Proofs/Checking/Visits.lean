import Custody.Proofs.Checking.Steady
import Custody.Proofs.Checking.Walks
/-!
# Where checking comes to

Checking comes to every statement of a body at most once. A spot says where in a block a statement
stands, and a visit puts the state beside it in which the statement is checked. Visits are found by
running the checker, so they are there for every body, whether it is accepted or not.
-/

namespace Custody

/-- A block of a statement. -/
inductive Arm where
  | onTrue
  | onFalse
  | body

/-- Where a statement stands: at the head of a block, in the rest of it, or in a block of the
statement at its head. -/
inductive Spot where
  | here
  | later (spot : Spot)
  | into (arm : Arm) (spot : Spot)

namespace Check

variable (ctx : BodyContext)

/-- A block in a scope of its own. -/
def block (statements : List Stmt) : Check Bool :=
  inScope ctx fun outer => stmts ctx outer statements

/-- The second path of a branch. -/
def otherwise : Option (List Stmt) → Check Bool
  | none => return false
  | some statements => block ctx statements

/-- A block of a statement that is checked in the given state, and the state in which checking comes
to the block. -/
def arm? : Arm → Stmt → BodyState → Option (List Stmt × BodyState)
  | .onTrue, .branch cond onTrue _, s => some (onTrue, conditioned ctx cond s)
  | .onFalse, .branch cond onTrue (some onFalse), s =>
    let before := conditioned ctx cond s
    some (onFalse, rewind (block ctx onTrue before).2 before.locals before.loans)
  | .body, .loop cond body, s => some (body, loopEntry ctx cond body s)
  | _, _, _ => none

/-- The statement at a spot of a block that is checked in the given state, and the state in which
checking comes to it. -/
def visit? (outer : List String) : Spot → List Stmt → BodyState → Option (Stmt × BodyState)
  | .here, head :: tail, s => some (head, s.facing tail outer)
  | .later spot, head :: tail, s =>
    let behind := settle (Stmt.blockNames tail ++ outer) (stmt ctx head) s
    if behind.1 then none else visit? outer spot tail behind.2
  | .into arm spot, head :: tail, s =>
    (arm? ctx arm head (s.facing tail outer)).bind
      fun (statements, entry) => visit? entry.liveAfter spot statements (entered entry)
  | _, [], _ => none

/-- The start of a body: its parameters are declared. -/
def started : BodyState := (params ctx [] ctx.signature.params {}).2

/-- The statement at a spot of a body, and the state in which checking comes to it. -/
def visited? (body : List Stmt) (spot : Spot) : Option (Stmt × BodyState) :=
  visit? ctx (started ctx).liveAfter spot body (entered (started ctx))

/-- The statement keeps a value that lapses. -/
def lapsesAt : Stmt → BodyState → Bool
  | .bind _ _ value, s | .assign _ value, s => lapses ctx value s
  | _, _ => false

/-- No statement of the block keeps a value that lapses. -/
def Calm (outer : List String) (statements : List Stmt) (s : BodyState) : Prop :=
  ∀ spot statement state, visit? ctx outer spot statements s = some (statement, state) →
    lapsesAt ctx statement state = false

section Visits

variable {ctx : BodyContext} {outer : List String} {statement : Stmt} {rest : List Stmt}
  {s : BodyState}

theorem visit?_later (spot : Spot)
    (goes : (stmt ctx statement (s.facing rest outer)).1 = false) :
    let walked := (stmt ctx statement (s.facing rest outer)).2
    visit? ctx outer (.later spot) (statement :: rest) s = visit? ctx outer spot rest
      (released { walked with locals := walked.locals.expire walked.liveAfter }) := by
  rw [visit?, settle_apply, goes]
  rfl

/-- The statement at the head, seen as a block of its own. -/
theorem Calm.head (calm : Calm ctx outer (statement :: rest) s) :
    Calm ctx (Stmt.blockNames rest ++ outer) [statement]
      (s.facing rest outer) := by
  intro spot visited state found
  cases spot with
  | later spot => cases spot <;> simp [visit?] at found
  | here => exact calm .here visited state found
  | into arm spot => exact calm (.into arm spot) visited state found

theorem Calm.tail (calm : Calm ctx outer (statement :: rest) s)
    (goes : (stmt ctx statement (s.facing rest outer)).1 = false) :
    let walked := (stmt ctx statement (s.facing rest outer)).2
    Calm ctx outer rest
      (released { walked with locals := walked.locals.expire walked.liveAfter }) :=
  fun spot visited state found => calm (.later spot) visited state
    ((visit?_later spot goes).trans found)

theorem calm_nil : Calm ctx outer [] s := by
  intro spot visited state found
  cases spot <;> cases found

/-- A statement without blocks that keeps nothing that lapses may stand in front. -/
theorem calm_cons
    (here : lapsesAt ctx statement (s.facing rest outer) = false)
    (plain : ∀ arm state, arm? ctx arm statement state = none)
    (later : Calm ctx outer rest
      (settle (Stmt.blockNames rest ++ outer) (stmt ctx statement) s).2) :
    Calm ctx outer (statement :: rest) s := by
  intro spot visited state found
  cases spot with
  | here =>
    obtain ⟨rfl, rfl⟩ := Prod.mk.inj (Option.some.inj found)
    exact here
  | later spot =>
    simp only [visit?] at found
    split at found
    · cases found
    · exact later spot visited state found
  | into arm spot => simp [visit?, plain] at found

end Visits

end Check

end Custody
