import Custody.Proofs.Execution.Still
/-!
# The account of operations grows

Where an invariant looks neither at values nor at bindings and does not mind that operations are put
on the account, it is left alone by everything but calls. Two such invariants are that an operation
is on the account, so that a run takes none off again, and which calls are active.
-/

namespace Custody

/-- The failure is not about a request. -/
@[reducible] def Failure.isRaised : Failure → Bool
  | .invalidArgument _ => false
  | _ => true

namespace Exec

/-! ## Bystanders -/

/-- To the invariant it does not matter what is bound in the running function, nor that an operation
is put on the account. -/
class Bystander (inv : Machine → Prop) : Prop where
  bindings : ∀ m bindings, inv m → inv { m with current := { m.current with bindings := bindings } }
  reached : ∀ m reach, inv m →
    inv { m with tally := { m.tally with reached := reach :: m.tally.reached } }

instance bystander_any : Bystander fun _ => True := ⟨fun _ _ _ => trivial, fun _ _ _ => trivial⟩

/-- Reasons to stop among which are all that a program may give. -/
class Lenient (fair : Stop → Prop) : Prop where
  raised : ∀ failure, failure.isRaised = true → fair (.failure failure)
  outOfFuel : fair .outOfFuel

instance lenient_any : Lenient fun _ => True := ⟨fun _ _ => trivial, trivial⟩

instance excuses_lenient {fair : Stop → Prop} [lenient : Lenient fair] : Excuses fair :=
  ⟨fun _ => lenient.raised _ rfl⟩

/-- The run maintains the invariant, whatever it stops for. -/
abbrev Leaves (inv : Machine → Prop) {α : Type} (x : Exec α) : Prop := Still inv (fun _ => True) x

/-- So do calls. -/
class LeavingCalls (inv : Machine → Prop) (invoke : Invoke) (fair : Stop → Prop := fun _ => True) :
    Prop where
  calls : ∀ id decl types args, Still inv fair (invoke id decl types args)

section Steps

variable {α : Type} {x : Exec α} {inv : Machine → Prop} {fair : Stop → Prop} {setup : Setup}
  {invoke : Invoke}

section Bystanders

variable [bystander : Bystander inv]

instance leaves_countReached (use : StructUse) (key : SlotKey) :
    Still inv fair (countReached use key) :=
  still_modify fun m => bystander.reached m _

instance leaves_bindLocal (name : String) (value : Value) : Still inv fair (bind name value) :=
  still_modify fun m => bystander.bindings m _

instance leaves_bindAll (values : List (String × Value)) : Still inv fair (bindAll values) :=
  still_forM values

instance leaves_unpack [Aloof inv fair] (binders : List (String × Binder)) (value : Value) :
    Still inv fair (unpack setup binders value) := by
  cases value <;> (unfold unpack; infer_instance)

end Bystanders

instance leaves_callFunction [Aloof inv fair] [leaving : LeavingCalls inv invoke fair]
    [∀ id, Still inv fair (fail (.unknownFunction id) : Exec Value)] (module : Option String)
    (function : String) (typeArgs : List TypeExpr) (args : List Value) :
    Still inv fair (callFunction setup invoke module function typeArgs args) := by
  unfold callFunction
  refine @still_bind _ _ _ _ _ _ inferInstance fun types => @still_bind _ _ _ _ _ _
    inferInstance fun m => ?_
  dsimp only
  split
  · exact leaving.calls _ _ types args
  · infer_instance

variable [lenient : Lenient fair]

instance leaves_fail (failure : Failure) : Leaves inv (fail failure : Exec α) :=
  ⟨maintains_fail trivial⟩

instance leaves_raised (failure : Failure) [raised : Passes failure.isRaised] :
    Still inv fair (fail failure : Exec α) :=
  ⟨maintains_fail (lenient.raised failure raised.passes)⟩

instance leaves_breach (reason : Breach) : Still inv fair (breach reason : Exec α) :=
  leaves_raised _

instance leaves_sound (result : Except Breach α) : Still inv fair (sound result) :=
  ⟨maintains_sound fun _ _ => trivial⟩

instance leaves_bindingIndex (name : String) : Still inv fair (bindingIndex name) :=
  ⟨maintains_bindingIndex⟩

instance leaves_visiting {id : FunctionId} {args : List Value} {run : Exec Value}
    [noted : ∀ visit, Still inv fair (modify (noting visit))] [runs : Still inv fair run] :
    Still inv fair (visiting id args run) :=
  ⟨maintains_visiting runs.maintains
    (fun visit m here => ((noted visit).maintains m here).1) id args⟩

instance leaves_repeatWhile {cond : Exec Bool} {body : Exec Flow} [tests : Still inv fair cond]
    [runs : Still inv fair body] (bound : Nat) : Still inv fair (repeatWhile cond body bound) := by
  have returns : Maintains inv body (Flow.Returns fun _ => True) fair :=
    runs.maintains.mono fun flow _ => by cases flow <;> trivial
  exact ⟨(maintains_repeatWhile tests.maintains returns bound lenient.outOfFuel).mono
    fun _ _ => trivial⟩

instance leaves_inScope [bystander : Bystander inv] {block : Exec Flow}
    [runs : Still inv fair block] : Still inv fair (inScope block) :=
  ⟨maintains_get.bind fun _ _ => runs.maintains.bind fun _ _ =>
    Maintains.bind (maintains_modify fun m => bystander.bindings m _) fun _ _ =>
      maintains_pure trivial⟩

end Steps

section Bodies

variable {inv : Machine → Prop} {fair : Stop → Prop} {setup : Setup} {invoke : Invoke}

mutual

theorem leaves_eval [Lenient fair] [Aloof inv fair] [Bystander inv]
    [LeavingCalls inv invoke fair] :
    (e : Expr) → Still inv fair (eval setup invoke e)
  | .unit | .bool _ | .u8 _ | .u64 _ | .u128 _ | .address _ | .var _ | .copy _ | .move _
  | .borrow _ _ => by
    rw [eval]
    infer_instance
  | .borrowField _ inner _ | .freeze inner | .deref inner | .not inner | .signerAddress inner => by
    have inside := leaves_eval inner
    rw [eval]
    infer_instance
  | .pack _ fields => by
    have inside := leaves_evalFields fields
    rw [eval]
    infer_instance
  | .call _ _ _ args | .vector _ args => by
    have inside := leaves_evalAll args
    rw [eval]
    infer_instance
  | .binary op left right => by
    have first := leaves_eval left
    have second := leaves_eval right
    cases logical : op.isLogical with
    | false =>
      rw [eval_eager logical]
      infer_instance
    | true =>
      cases op with
      | and | or =>
        rw [eval]
        infer_instance
      | _ => cases logical
  | .moveTo _ signer value => by
    have first := leaves_eval signer
    have second := leaves_eval value
    rw [eval]
    infer_instance
  | .moveFrom _ addr | .borrowGlobal _ _ addr | .existsAt _ addr => by
    have inside := leaves_eval addr
    rw [eval]
    infer_instance

theorem leaves_evalAll [Lenient fair] [Aloof inv fair] [Bystander inv]
    [LeavingCalls inv invoke fair] :
    (es : List Expr) → Still inv fair (evalAll setup invoke es)
  | [] => by
    rw [evalAll]
    infer_instance
  | e :: es => by
    have first := leaves_eval e
    have rest := leaves_evalAll es
    rw [evalAll]
    infer_instance

theorem leaves_evalFields [Lenient fair] [Aloof inv fair] [Bystander inv]
    [LeavingCalls inv invoke fair] :
    (fields : List (String × Expr)) → Still inv fair (evalFields setup invoke fields)
  | [] => by
    rw [evalFields]
    infer_instance
  | (field, e) :: fields => by
    have first := leaves_eval e
    have rest := leaves_evalFields fields
    rw [evalFields]
    infer_instance

end

attribute [instance] leaves_eval leaves_evalAll leaves_evalFields

mutual

theorem leaves_run [Lenient fair] [Aloof inv fair] [Bystander inv]
    [LeavingCalls inv invoke fair] :
    (stmt : Stmt) → Still inv fair (run setup invoke stmt)
  | .bind _ _ value | .unpack _ _ value | .assign _ value | .ret (some value) | .abort value
  | .assert value _ | .eval value | .write target value | .ret none => by
    rw [run]
    infer_instance
  | .branch cond onTrue onFalse => by
    have first := leaves_runAll onTrue
    have second := leaves_runOtherwise onFalse
    rw [run]
    infer_instance
  | .loop cond body => by
    have runs := leaves_runAll body
    rw [run]
    infer_instance

theorem leaves_runAll [Lenient fair] [Aloof inv fair] [Bystander inv]
    [LeavingCalls inv invoke fair] :
    (stmts : List Stmt) → Still inv fair (runAll setup invoke stmts)
  | [] => by
    rw [runAll]
    infer_instance
  | stmt :: stmts => by
    have first := leaves_run stmt
    have rest := leaves_runAll stmts
    rw [runAll]
    refine @still_bind _ _ _ _ _ _ first fun flow => ?_
    cases flow <;> infer_instance

theorem leaves_runOtherwise [Lenient fair] [Aloof inv fair] [Bystander inv]
    [LeavingCalls inv invoke fair] :
    (block : Option (List Stmt)) → Still inv fair (runOtherwise setup invoke block)
  | none => by
    rw [runOtherwise]
    infer_instance
  | some stmts => by
    have inside := leaves_runAll stmts
    rw [runOtherwise]
    infer_instance

end

attribute [instance] leaves_run leaves_runAll leaves_runOtherwise

instance leaves_runBody [Lenient fair] [Aloof inv fair] [Bystander inv]
    [LeavingCalls inv invoke fair] (decl : FunctionDecl) :
    Still inv fair (runBody setup invoke decl) := by
  unfold runBody
  infer_instance

end Bodies

/-! ## The account -/

/-- The run takes no operation off the account. -/
abbrev Growing {α : Type} (x : Exec α) :
    Prop := ∀ reach, Leaves (fun m => reach ∈ m.tally.reached) x

/-- Calls take no operation off the account. -/
abbrev GrowingCalls (invoke : Invoke) : Prop :=
  ∀ reach, LeavingCalls (fun m => reach ∈ m.tally.reached) invoke

section Growth

variable {α : Type} {x : Exec α} {reach : Reach}

theorem Growing.of_ok (growing : Growing x) {m m' : Machine} {value : α} (ran : x m = .ok value m')
    (here : reach ∈ m.tally.reached) : reach ∈ m'.tally.reached :=
  ((growing reach).maintains.of_ok here ran).1

theorem Growing.of_error (growing : Growing x) {m m' : Machine} {stop : Stop}
    (ran : x m = .error stop m') (here : reach ∈ m.tally.reached) : reach ∈ m'.tally.reached :=
  (((growing reach).maintains _ here).of_error ran).1

instance aloof_reached : Aloof (fun m => reach ∈ m.tally.reached) (fun _ => True) where
  setLocal _ _ _ _ here := by rwa [Machine.tally_setLocal]
  tx _ _ here := here
  host _ _ here := here
  packed _ _ here := here
  unpacked _ _ here := here
  fair _ _ := trivial

instance bystander_reached : Bystander fun m => reach ∈ m.tally.reached :=
  ⟨fun _ _ here => here, fun _ _ here => List.mem_cons_of_mem _ here⟩

theorem growing_modify {change : Machine → Machine} (same : ∀ m, (change m).tally = m.tally) :
    Growing (modify change : Exec PUnit) :=
  fun reach => still_modify fun m here =>
    (congrArg (fun tally : Tally => reach ∈ tally.reached) (same m)).mpr here

instance growing_countEntered (frame : Frame) : Growing (countEntered frame) :=
  fun _ => still_modify fun _ here => here

instance growing_noting (visit : Visit) : Growing (modify (noting visit)) :=
  fun _ => still_modify fun _ here => here

instance leaves_inFrame {frame : Frame} [body : Leaves (fun m => reach ∈ m.tally.reached) x] :
    Leaves (fun m => reach ∈ m.tally.reached) (inFrame frame x) :=
  ⟨maintains_inFrame (fun _ here => here)
    (fun m here => by
      unfold Machine.leave
      split
      · exact here
      · exact here) body.maintains⟩

/-- Calls to any depth, by induction on how many more may be active. -/
instance growing_call (setup : Setup) (depth : Nat) : GrowingCalls (call setup depth) := by
  intro reach
  induction depth with
  | zero => exact ⟨fun _ _ _ _ => leaves_fail _⟩
  | succ depth ih =>
    refine ⟨fun id decl types args => ?_⟩
    rw [call]
    infer_instance

end Growth

end Exec

end Custody
