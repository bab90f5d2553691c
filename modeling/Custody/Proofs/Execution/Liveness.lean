import Custody.Proofs.Execution.Growing
import Custody.Proofs.Execution.Scoping
/-!
# Names that are used later are live

While a statement is checked the names are known that may be used behind it: those of the rest of
its block, those of a loop around it, which may go round again, and what may be used behind the
block. A run leaves a trace of the names its frame looks up and of the statements it is through
with. Wherever a statement is done, the names in the rest of the trace are among those that checking
took for live.
-/

namespace Custody

/-! ## Live names stay the same -/

namespace Check

variable {ctx : BodyContext} {s : BodyState}

/-- The same names are live. -/
def Alike (before after : BodyState) : Prop := after.liveAfter = before.liveAfter

instance course_alike : Course Alike where
  quiet _ _ live := live
  direct _ _ := rfl
  trans first second := second.trans first

instance recording_alike (ctx : BodyContext) : Recording ctx Alike where
  report _ _ _ := rfl
  call _ {_ _} _ := rfl

theorem liveAfter_eq {α : Type} {x : Check α} [alike : Advances Alike x] (s : BodyState) :
    (x s).2.liveAfter = s.liveAfter :=
  alike.advances s

instance alike_inScope (walk : List String → Check Bool) : Advances Alike (inScope ctx walk) := by
  refine ⟨fun s => ?_⟩
  simp only [inScope, bind_apply, modify_apply, get_apply, set_apply]
  exact later_after rfl

instance alike_loopPaths (names : List String) (body : Check Bool) :
    Advances Alike (loopPaths ctx names body) := by
  refine ⟨fun s => ?_⟩
  simp only [loopPaths, bind_apply, get_apply, set_apply, modify_apply, ite_apply]
  split
  · exact later_after (later_after rfl)
  · exact later_after (later_after (liveAfter_eq (x := checkLoopMoves ctx _) _))

theorem liveAfter_stmt (statement : Stmt) (s : BodyState) :
    (stmt ctx statement s).2.liveAfter = s.liveAfter := by
  have alike : Advances Alike (stmt ctx statement) := by
    cases statement with
    | branch cond onTrue onFalse => cases onFalse <;> (unfold stmt; infer_instance)
    | ret value => cases value <;> (unfold stmt; infer_instance)
    | _ => unfold stmt; infer_instance
  exact alike.advances s

/-- What is live behind a statement is live in its blocks. -/
theorem subset_of_arm {arm : Arm} {statement : Stmt} {statements : List Stmt} {entry : BodyState}
    (found : arm? ctx arm statement s = some (statements, entry)) :
    s.liveAfter ⊆ entry.liveAfter := by
  have tested : ∀ cond, (conditioned ctx cond s).liveAfter = s.liveAfter := fun cond =>
    liveAfter_eq (x := expr ctx cond) s
  unfold arm? at found
  split at found <;> cases found
  · exact (tested _).symm ▸ List.Subset.refl _
  · exact ((liveAfter_eq (x := inScope ctx _) _).trans (tested _)).symm ▸ List.Subset.refl _
  · exact List.subset_append_of_subset_right _ ((tested _).symm ▸ List.Subset.refl _)

end Check

/-! ## Traces -/

/-- What comes to pass in a frame: a name is looked up, or the statement at a spot is done. -/
inductive Mark where
  | use (name : String)
  | done (spot : Spot)

namespace Mark

/-- The mark, with its spot seen from further out. -/
def within (place : Spot → Spot) : Mark → Mark
  | .use name => .use name
  | .done spot => .done (place spot)

/-- The names that are looked up are among the given ones. Wherever a statement is done they are
foreseen, and so are those of `later`, which may be looked up behind the trace. -/
structure Foretold (names later : List String) (sees : Spot → String → Prop) (marks : List Mark) :
    Prop where
  named : ∀ {name}, Mark.use name ∈ marks → name ∈ names
  seen : marks.Pairwise fun first second =>
    ∀ spot name, first = .done spot → second = .use name → sees spot name
  beyond : ∀ {spot name}, Mark.done spot ∈ marks → name ∈ later → sees spot name

section Foretelling

variable {names names' later later' : List String} {sees sees' : Spot → String → Prop}
  {marks more : List Mark}

theorem foretold_nil : Foretold names later sees [] := ⟨by simp, .nil, by simp⟩

theorem foretold_use {name : String} : Foretold [name] later sees [.use name] :=
  ⟨by simp, by simp, by simp⟩

namespace Foretold

theorem mono (foretold : Foretold names later sees marks) (fewer : later' ⊆ later)
    (implied : ∀ spot name, sees spot name → sees' spot name) :
    Foretold names later' sees' marks where
  named := foretold.named
  seen := foretold.seen.imp fun seen spot name done use => implied spot name
    (seen spot name done use)
  beyond listed given := implied _ _ (foretold.beyond listed (fewer given))

theorem wider (foretold : Foretold names later sees marks) (wider : names ⊆ names') :
    Foretold names' later sees marks :=
  { foretold with named := fun listed => wider (foretold.named listed) }

theorem append (first : Foretold names (names' ++ later) sees marks)
    (rest : Foretold names' later sees more) :
    Foretold (names ++ names') later sees (marks ++ more) where
  named listed := List.mem_append.mpr ((List.mem_append.mp listed).imp first.named rest.named)
  seen := by
    refine List.pairwise_append.mpr ⟨first.seen, rest.seen, ?_⟩
    rintro _ here _ there spot name rfl rfl
    exact first.beyond here (List.mem_append_left _ (rest.named there))
  beyond listed given := (List.mem_append.mp listed).elim
    (fun here => first.beyond here (List.mem_append_right _ given))
    fun there => rest.beyond there given

theorem done (foretold : Foretold names later sees marks) {spot : Spot}
    (known : ∀ name ∈ names ++ later, sees spot name) :
    Foretold names later sees (.done spot :: marks) where
  named listed := foretold.named ((List.mem_cons.mp listed).resolve_left (by simp))
  seen := by
    refine List.pairwise_cons.mpr ⟨?_, foretold.seen⟩
    rintro _ there _ name ⟨⟩ rfl
    exact known name (List.mem_append_left _ (foretold.named there))
  beyond {_ name} listed given := by
    rcases List.mem_cons.mp listed with here | there
    · exact Mark.done.inj here ▸ known name (List.mem_append_right _ given)
    · exact foretold.beyond there given

theorem outward {place : Spot → Spot}
    (foretold : Foretold names later (fun spot => sees (place spot)) marks) :
    Foretold names later sees (marks.map (within place)) where
  named listed := by
    obtain ⟨_ | _, there, same⟩ := List.mem_map.mp listed <;> cases same
    exact foretold.named there
  seen := by
    refine List.pairwise_map.mpr (foretold.seen.imp ?_)
    rintro (_ | _) (_ | _) seen _ _ done use <;> cases done <;> cases use
    exact seen _ _ rfl rfl
  beyond listed given := by
    obtain ⟨_ | _, there, same⟩ := List.mem_map.mp listed <;> cases same
    exact foretold.beyond there given

end Foretold

end Foretelling

end Mark

namespace Exec

open Mark Check

/-- What is found behind a run, if it comes to an end. -/
def behind {α : Type} (x : Exec α) (m : Machine) (rest : α → Machine → List Mark) : List Mark :=
  match x m with
  | .ok value m' => rest value m'
  | .error _ _ => []

/-- The trace of a loop. -/
def rounds (cond : Exec Bool) (body : Exec Flow) (asked inside : Machine → List Mark) :
    Nat → Machine → List Mark
  | 0, _ => []
  | bound + 1, m =>
    asked m ++ behind cond m fun holds m' =>
      if holds then inside m' ++ behind body m' fun flow m'' =>
        match flow with
        | .next => rounds cond body asked inside bound m''
        | .ret _ => []
      else []

variable (setup : Setup) (invoke : Invoke)

mutual

/-- The trace of an expression. -/
def looked : Expr → Machine → List Mark
  | .var name, _ | .move name, _ | .copy name, _ | .borrow _ name, _ => [.use name]
  | .borrowField _ inner _, m | .freeze inner, m | .deref inner, m | .not inner, m
  | .signerAddress inner, m
  | .moveFrom _ inner, m | .borrowGlobal _ _ inner, m | .existsAt _ inner, m => looked inner m
  | .pack _ fields, m => lookedFields fields m
  | .call _ _ _ args, m | .vector _ args, m => lookedAll args m
  | .moveTo _ signer value, m =>
    looked signer m ++ behind (do signerOf (← eval setup invoke signer)) m fun _ => looked value
  | .binary .and left right, m =>
    looked left m ++ behind (test setup invoke left) m fun holds m' =>
      if holds then looked right m' else []
  | .binary .or left right, m =>
    looked left m ++ behind (test setup invoke left) m fun holds m' =>
      if holds then [] else looked right m'
  | .binary _ left right, m =>
    looked left m ++ behind (eval setup invoke left) m fun _ => looked right
  | .unit, _ | .bool _, _ | .u8 _, _ | .u64 _, _ | .u128 _, _ | .address _, _ => []

/-- The trace of expressions one after another. -/
def lookedAll : List Expr → Machine → List Mark
  | [], _ => []
  | e :: es, m => looked e m ++ behind (eval setup invoke e) m fun _ => lookedAll es

/-- The trace of fields. -/
def lookedFields : List (String × Expr) → Machine → List Mark
  | [], _ => []
  | (_, e) :: fields, m => looked e m ++ behind (eval setup invoke e) m fun _ => lookedFields fields

end

mutual

/-- The trace of a statement. -/
def trace : Stmt → Machine → List Mark
  | .bind _ _ value, m | .unpack _ _ value, m | .ret (some value), m | .abort value, m
  | .assert value _, m
  | .eval value, m => looked setup invoke value m
  | .assign name value, m =>
    looked setup invoke value m ++ behind (eval setup invoke value) m fun _ _ => [.use name]
  | .write target value, m =>
    looked setup invoke value m ++ behind (eval setup invoke value) m fun _ => looked setup
      invoke target
  | .branch cond onTrue none, m =>
    looked setup invoke cond m ++ behind (test setup invoke cond) m fun holds m' =>
      if holds then (traceAll onTrue m').map (.within (.into .onTrue)) else []
  | .branch cond onTrue (some onFalse), m =>
    looked setup invoke cond m ++ behind (test setup invoke cond) m fun holds m' =>
      if holds then (traceAll onTrue m').map (.within (.into .onTrue))
      else (traceAll onFalse m').map (.within (.into .onFalse))
  | .loop cond body, m =>
    rounds (test setup invoke cond) (inScope (runAll setup invoke body)) (looked setup invoke cond)
      (fun m' => (traceAll body m').map (.within (.into .body))) setup.loopBound m
  | .ret none, _ => []

/-- The trace of a block. -/
def traceAll : List Stmt → Machine → List Mark
  | [], _ => []
  | stmt :: stmts, m =>
    trace stmt m ++ behind (run setup invoke stmt) m fun flow m' =>
      match flow with
      | .next => .done .here :: (traceAll stmts m').map (.within .later)
      | .ret _ => []

end

variable {setup invoke} {names later : List String} {sees : Spot → String → Prop}

/-! ## No look-up is left out -/

/-- If the run stops for want of a binding, it is for one of the names. -/
def Wants (names : List String) (stop : Stop) : Prop :=
  ∀ name, stop = .failure (.invariantViolation (.unknownLocal name)) → name ∈ names

instance aloof_wants : Aloof (fun _ => True) (Wants names) := aloof_any fun failure ordinary
    name same => by
  rw [Stop.failure.inj same] at ordinary
  cases ordinary

instance wants_bindingIndex (name : String) :
    Still (fun _ => True) (Wants [name]) (bindingIndex name) := by
  refine ⟨maintains_get.bind fun m _ => ?_⟩
  cases Binding.lastIndex? name m.current.bindings with
  | none => exact maintains_fail fun other same => by cases same; exact List.mem_singleton_self _
  | some index => exact maintains_pure trivial

instance wants_unknownFunction (id : FunctionId) :
    Still (fun _ => True) (Wants []) (fail (.unknownFunction id) : Exec Value) :=
  ⟨maintains_fail fun _ same => by cases same⟩

/-- If the run stops for want of a binding, its trace tells of the name. -/
def Tells {α : Type} (x : Exec α) (marks : Machine → List Mark) : Prop :=
  ∀ ⦃m m' name⦄, x m = .error (.failure (.invariantViolation (.unknownLocal name))) m' → .use
    name ∈ marks m

section Telling

variable {α β : Type} {x : Exec α} {f : α → Exec β} {marks : Machine → List Mark}

theorem tells_still (names : List String) [still : Still (fun _ => True) (Wants names) x] :
    Tells x fun _ => names.map .use :=
  fun _ _ _ stops => List.mem_map_of_mem (((still.maintains _ trivial).of_error stops).2 _ rfl)

theorem tells_pure (value : α) : Tells (pure value) fun _ => [] := tells_still []

theorem Tells.bind {rest : α → Machine → List Mark} (first : Tells x marks)
    (onward : ∀ value, Tells (f value) (rest value)) : Tells (x >>= f) fun m => marks m ++ behind x
    m rest := by
  intro m m' name stops
  rw [List.mem_append, behind]
  cases ran : x m with
  | ok value n => exact .inr (onward value (bind_of_ok ran ▸ stops))
  | error stop n =>
    cases (bind_of_error ran).symm.trans stops
    exact .inl (first ran)

theorem Tells.after [∀ value, Still (fun _ => True) (Wants []) (f value)] (first : Tells x marks) :
    Tells (x >>= f) marks := by
  intro m m' name stops
  cases ran : x m with
  | ok value n => cases tells_still [] (bind_of_ok ran ▸ stops)
  | error stop n =>
    cases (bind_of_error ran).symm.trans stops
    exact first ran

theorem Tells.within {place : Spot → Spot} (tells : Tells x marks) :
    Tells x fun m => (marks m).map (.within place) :=
  fun _ _ _ stops => List.mem_map.mpr ⟨_, tells stops, rfl⟩

theorem Tells.inScope {block : Exec Flow} (tells : Tells block marks) :
    Tells (inScope block) marks :=
  @Tells.bind _ _ _ _ (fun _ => []) (fun _ => marks) (tells_still []) fun _ => tells.after

theorem Tells.repeatWhile {cond : Exec Bool} {body : Exec Flow} {asked inside : Machine → List Mark}
    (tests : Tells cond asked) (walks : Tells body inside) (bound : Nat) :
    Tells (repeatWhile cond body bound) (rounds cond body asked inside bound) := by
  induction bound with
  | zero => exact fun _ _ _ stops => by cases stops
  | succ bound ih =>
    refine tests.bind fun holds => ?_
    cases holds with
    | false => exact tells_pure _
    | true =>
      refine walks.bind fun flow => ?_
      cases flow with
      | next => exact ih
      | ret value => exact tells_pure _

end Telling

mutual

theorem tells_eval [LeavingCalls (fun _ => True) invoke (Wants [])] :
    (e : Expr) → Tells (eval setup invoke e) (looked setup invoke e)
  | .var name | .move name | .copy name | .borrow _ name => by
    rw [eval]
    exact tells_still [name]
  | .unit | .bool _ | .u8 _ | .u64 _ | .u128 _ | .address _ => by
    rw [eval]
    exact tells_pure _
  | .borrowField _ inner _ | .freeze inner | .deref inner | .not inner | .signerAddress inner
  | .moveFrom _ inner | .borrowGlobal _ _ inner | .existsAt _ inner => by
    rw [eval]
    exact (tells_eval inner).after
  | .pack _ fields => by
    rw [eval]
    exact (tells_evalFields fields).after
  | .call _ _ _ args | .vector _ args => by
    rw [eval]
    exact (tells_evalAll args).after
  | .moveTo _ signer value => by
    rw [eval, ← bind_assoc]
    exact (tells_eval signer).after.bind fun _ => (tells_eval value).after
  | .binary op left right => by
    have second := tells_eval right
    cases op with
    | and | or =>
      rw [eval, ← bind_assoc]
      refine (tells_eval left).after.bind fun holds => ?_
      cases holds <;> first | exact tells_pure _ | exact second.after
    | _ =>
      rw [eval_eager rfl]
      exact (tells_eval left).bind fun _ => second.after

theorem tells_evalAll [LeavingCalls (fun _ => True) invoke (Wants [])] :
    (es : List Expr) → Tells (evalAll setup invoke es) (lookedAll setup invoke es)
  | [] => by
    rw [evalAll]
    exact tells_pure _
  | e :: es => by
    rw [evalAll]
    exact (tells_eval e).bind fun _ => (tells_evalAll es).after

theorem tells_evalFields [LeavingCalls (fun _ => True) invoke (Wants [])] :
    (fields : List (String × Expr)) → Tells (evalFields setup invoke fields)
    (lookedFields setup invoke fields)
  | [] => by
    rw [evalFields]
    exact tells_pure _
  | (_, e) :: fields => by
    rw [evalFields]
    exact (tells_eval e).bind fun _ => (tells_evalFields fields).after

end

mutual

theorem tells_run [LeavingCalls (fun _ => True) invoke (Wants [])] :
    (statement : Stmt) → Tells (run setup invoke statement) (trace setup invoke statement)
  | .bind _ _ value | .unpack _ _ value | .ret (some value) | .abort value | .assert value _
  | .eval value => by
    rw [run]
    exact (tells_eval value).after
  | .ret none => by
    rw [run]
    exact tells_pure _
  | .assign name value => by
    rw [run]
    exact (tells_eval value).bind fun _ => tells_still [name]
  | .write target value => by
    rw [run]
    exact (tells_eval value).bind fun _ => (tells_eval target).after
  | .branch cond onTrue onFalse => by
    rw [run, ← bind_assoc]
    cases onFalse <;> refine (tells_eval cond).after.bind fun holds => ?_
    · cases holds
      exacts [tells_pure _, (tells_runAll onTrue).inScope.within]
    · rename_i onFalse
      cases holds
      exacts [(tells_runAll onFalse).inScope.within, (tells_runAll onTrue).inScope.within]
  | .loop cond body => by
    rw [run]
    exact (tells_eval cond).after.repeatWhile (tells_runAll body).inScope.within _

theorem tells_runAll [LeavingCalls (fun _ => True) invoke (Wants [])] :
    (block : List Stmt) → Tells (runAll setup invoke block) (traceAll setup invoke block)
  | [] => by
    rw [runAll]
    exact tells_pure _
  | statement :: rest => by
    rw [runAll]
    refine (tells_run statement).bind fun flow => ?_
    cases flow with
    | ret value => exact tells_pure _
    | next => exact fun _ _ _ stops => List.mem_cons_of_mem _ ((tells_runAll rest).within stops)

end

/-! ## What is foreseen -/

theorem foretold_behind {α : Type} {x : Exec α} {m : Machine} {rest : α → Machine → List Mark}
    (onward : ∀ value m', Foretold names later sees (rest value m')) :
    Foretold names later sees (behind x m rest) := by
  unfold behind
  split
  · exact onward _ _
  · exact foretold_nil

mutual

theorem foretold_looked : (e : Expr) → ∀ {later m}, Foretold e.names later sees
    (looked setup invoke e m)
  | .var _ | .move _ | .copy _ | .borrow _ _ => foretold_use
  | .unit | .bool _ | .u8 _ | .u64 _ | .u128 _ | .address _ => foretold_nil
  | .borrowField _ inner _ | .freeze inner | .deref inner | .not inner | .signerAddress inner
  | .moveFrom _ inner | .borrowGlobal _ _ inner | .existsAt _ inner => foretold_looked inner
  | .pack _ fields => foretold_lookedFields fields
  | .call _ _ _ args | .vector _ args => foretold_lookedAll args
  | .moveTo _ signer value =>
    .append (foretold_looked signer) (foretold_behind fun _ _ => foretold_looked value)
  | .binary op left right => by
    cases op <;> refine .append (foretold_looked left) (foretold_behind fun _ _ => ?_)
    case' and | or => split
    all_goals first | exact foretold_nil | exact foretold_looked right

theorem foretold_lookedAll : (es : List Expr) → ∀ {later m},
    Foretold (Expr.allNames es) later sees (lookedAll setup invoke es m)
  | [] => foretold_nil
  | e :: es => .append (foretold_looked e) (foretold_behind fun _ _ => foretold_lookedAll es)

theorem foretold_lookedFields : (fields : List (String × Expr)) → ∀ {later m},
    Foretold (Expr.fieldNames fields) later sees (lookedFields setup invoke fields m)
  | [] => foretold_nil
  | (_, e) :: fields =>
    .append (foretold_looked e) (foretold_behind fun _ _ => foretold_lookedFields fields)

end

/-- Each round looks up names of the loop only, which each round foresees. -/
theorem foretold_rounds {cond : Exec Bool} {body : Exec Flow} {asked inside : Machine → List Mark}
    (tests : ∀ m, Foretold names (names ++ later) sees (asked m))
    (walks : ∀ m, Foretold names (names ++ later) sees (inside m)) (bound : Nat) (m : Machine) :
    Foretold names later sees (rounds cond body asked inside bound m) := by
  have same : names ++ names ⊆ names := List.append_subset.mpr
    ⟨List.Subset.refl _, List.Subset.refl _⟩
  induction bound generalizing m with
  | zero => exact foretold_nil
  | succ bound ih =>
    refine ((tests m).append (foretold_behind fun holds m' => ?_)).wider same
    split
    · refine ((walks m').append (foretold_behind fun flow m'' => ?_)).wider same
      cases flow with
      | next => exact ih m''
      | ret value => exact foretold_nil
    · exact foretold_nil

/-- Where checking comes to the spot, the name is live behind it. -/
def Sees (ctx : BodyContext) (outer : List String) (block : List Stmt) (s : BodyState) (spot : Spot)
    (name : String) : Prop :=
  ∃ visit, visit? ctx outer spot block s = some visit ∧ name ∈ visit.2.liveAfter

section Blocks

variable {ctx : BodyContext} {outer : List String} {s : BodyState} {statement : Stmt}
  {block rest : List Stmt} {spot : Spot} {name : String}

theorem sees_head (sees : Sees ctx (Stmt.blockNames rest ++ outer) [statement] s spot name) :
    Sees ctx outer (statement :: rest) s spot name := by
  obtain ⟨visit, found, live⟩ := sees
  cases spot with
  | later spot => cases spot <;> simp [visit?] at found
  | _ => exact ⟨visit, found, live⟩

theorem sees_later (goes : statement.ends = false) (sees : Sees ctx outer rest
      (settle (Stmt.blockNames rest ++ outer) (stmt ctx statement) s).2 spot name) :
    Sees ctx outer (statement :: rest) s (.later spot) name := by
  obtain ⟨visit, found, live⟩ := sees
  exact ⟨visit, (visit?_later spot ((stmt_fst statement _).trans goes)).trans found, live⟩

theorem foretold_arm {arm : Arm} {entry : BodyState} {marks : List Mark}
    (found : arm? ctx arm statement { s with liveAfter := outer } = some (block, entry))
    (more : later ⊆ entry.liveAfter)
    (walks : Foretold names entry.liveAfter (Sees ctx entry.liveAfter block (entered entry))
      marks) :
    Foretold names (later ++ outer) (Sees ctx outer [statement] s)
      (marks.map (.within (.into arm))) := by
  refine (walks.mono (List.append_subset.mpr ⟨more, subset_of_arm found⟩) ?_).outward
  rintro spot name ⟨visit, visited, live⟩
  refine ⟨visit, ?_, live⟩
  rw [visit?]
  exact (congrArg (Option.bind · _) found).trans visited

mutual

theorem foretold_trace : (statement : Stmt) → ∀ {outer s m},
    Foretold statement.names outer (Sees ctx outer [statement] s) (trace setup invoke statement m)
  | .bind _ _ value | .unpack _ _ value | .ret (some value) | .abort value | .assert value _
  | .eval value =>
    foretold_looked value
  | .assign _ value =>
    (Foretold.append (foretold_looked value) (foretold_behind fun _ _ => foretold_use)).wider
      List.perm_append_comm.subset
  | .write target value =>
    (Foretold.append (foretold_looked value)
      (foretold_behind fun _ _ => foretold_looked target)).wider List.perm_append_comm.subset
  | .branch cond onTrue none => by
    refine .append (foretold_looked cond) (foretold_behind fun holds m' => ?_)
    split
    · exact foretold_arm rfl (List.nil_subset _) (foretold_traceAll onTrue _ _ m')
    · exact foretold_nil
  | .branch cond onTrue (some onFalse) => by
    rw [Stmt.names, List.append_assoc]
    refine .append (foretold_looked cond) (foretold_behind fun holds m' => ?_)
    split
    · exact (foretold_arm rfl (List.nil_subset _) (foretold_traceAll onTrue _ _ m')).wider
        (List.subset_append_left _ _)
    · exact (foretold_arm rfl (List.nil_subset _) (foretold_traceAll onFalse _ _ m')).wider
        (List.subset_append_right _ _)
  | .loop cond body => by
    refine foretold_rounds (fun m => (foretold_looked cond).wider (List.subset_append_left _ _))
      (fun m => ?_) _ _
    exact (foretold_arm rfl (List.subset_append_left _ _) (foretold_traceAll body _ _ m)).wider
      (List.subset_append_right _ _)
  | .ret none => foretold_nil

theorem foretold_traceAll : (block : List Stmt) → ∀ outer s m,
    Foretold (Stmt.blockNames block) outer (Sees ctx outer block s) (traceAll setup invoke block m)
  | [], _, _, _ => foretold_nil
  | statement :: rest, outer, s, m => by
    refine .append ((foretold_trace statement).mono (List.Subset.refl _) fun _ _ => sees_head) ?_
    unfold behind
    split
    · rename_i flow m' ran
      cases flow with
      | ret value => exact foretold_nil
      | next =>
        exact .done (.outward ((foretold_traceAll rest _ _ m').mono (List.Subset.refl _)
          fun _ _ => sees_later (((goesOn_run statement).of_ok trivial ran).2 rfl)))
          fun name listed => ⟨_, rfl, listed⟩
    · exact foretold_nil

end

end Blocks

end Exec

/-- Whatever body is run, on any machine: if a statement is done and a name is looked up later in
the frame, behind the statement, in another round of a loop around it or behind the blocks it stands
in, the name is one that checking took for live behind the statement. So what expires there is not a
binding of that name. No look-up is left out: unless a call gave the reason, the trace has the name
for which a run finds no binding. -/
theorem later_uses_are_live (setup : Setup) (invoke : Exec.Invoke) (ctx : BodyContext)
    (body : List Stmt) (m : Machine) :
    ((Exec.traceAll setup invoke body m).Pairwise fun first second => ∀ spot name,
      first = .done spot → second = .use name → ∃ statement state,
        Check.visited? ctx body spot = some (statement, state) ∧ name ∈ state.liveAfter ∧
        let behind := (Check.stmt ctx statement state).2
        ∀ id slot, behind.locals.slot? id = some slot → slot.name = name →
          (behind.locals.expire behind.liveAfter).slot? id = some slot) ∧
      ((∀ id decl types args n stop n', invoke id decl types args n = .error stop n' →
        Exec.Finds stop) →
        ∀ name m', Exec.runAll setup invoke body m =
          .error (.failure (.invariantViolation (.unknownLocal name))) m' →
            .use name ∈ Exec.traceAll setup invoke body m) := by
  have foretold := @Exec.foretold_traceAll setup invoke ctx body (Check.started ctx).liveAfter
    (Check.entered (Check.started ctx)) m
  refine ⟨foretold.seen.imp ?_, fun finds name m' stops => ?_⟩
  · intro first second seen spot name done use
    obtain ⟨⟨statement, state⟩, visited, live⟩ := seen spot name done use
    refine ⟨statement, state, visited, live, fun id slot found same => ?_⟩
    rw [Locals.slot?_expire, found, Check.liveAfter_stmt]
    simp [Locals.expired, same, live]
  · have calls : Exec.LeavingCalls (fun _ => True) invoke (Exec.Wants []) :=
      ⟨fun id decl types args =>
        ⟨fun n _ => .intro (fun _ _ _ => ⟨trivial, trivial⟩) fun stop n' ran =>
          ⟨trivial, fun name same => absurd same (finds id decl types args n stop n' ran name)⟩⟩⟩
    exact Exec.tells_runAll body stops

end Custody
