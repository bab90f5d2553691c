import Custody.Proofs.Execution.Upholding
/-!
# Scopes of checking and of execution

The checker numbers the bindings of a body and keeps a stack of scopes, which it copies, cuts back
and merges where paths part and meet. The machine has one list of bindings in a frame and cuts it
back at the end of a block. Wherever a statement starts the two agree: the same names are in scope,
in the same order, and a name means the same binding. So the machine finds every name that the
checker has passed.
-/

namespace Custody

open Check

variable {setup : Setup} {args : List Value} {ctx : BodyContext} {access : Access}

/-! ## Where execution comes to -/

namespace Exec

/-- The truth of a condition. -/
def test (setup : Setup) (invoke : Invoke) (cond : Expr) : Exec Bool := do
  asBool (← eval setup invoke cond)

variable (setup) (invoke : Invoke)

/-- A statement that is run in one machine comes to a block of its own in another one. A loop may
have gone through its block any number of times before. -/
inductive Takes : Arm → Stmt → Machine → List Stmt → Machine → Prop where
  | onTrue {cond : Expr} {onTrue : List Stmt} {onFalse : Option (List Stmt)} {m m' : Machine}
      (holds : test setup invoke cond m = .ok true m') :
      Takes .onTrue (.branch cond onTrue onFalse) m onTrue m'
  | onFalse {cond : Expr} {onTrue onFalse : List Stmt} {m m' : Machine}
      (fails : test setup invoke cond m = .ok false m') :
      Takes .onFalse (.branch cond onTrue (some onFalse)) m onFalse m'
  | body {cond : Expr} {body : List Stmt} {m m' : Machine}
      (holds : test setup invoke cond m = .ok true m') :
      Takes .body (.loop cond body) m body m'
  | again {cond : Expr} {body : List Stmt} {m m' m'' n : Machine}
      (holds : test setup invoke cond m = .ok true m')
      (round : inScope (runAll setup invoke body) m' = .ok .next m'')
      (takes : Takes .body (.loop cond body) m'' body n) :
      Takes .body (.loop cond body) m body n

/-- A block that is run in one machine starts the statement at a spot in another one. -/
inductive Starts : Spot → List Stmt → Machine → Stmt → Machine → Prop where
  | here {statement : Stmt} {rest : List Stmt} {m : Machine} :
      Starts .here (statement :: rest) m statement m
  | later {spot : Spot} {first statement : Stmt} {rest : List Stmt} {m m' n : Machine}
      (ran : run setup invoke first m = .ok .next m')
      (starts : Starts spot rest m' statement n) :
      Starts (.later spot) (first :: rest) m statement n
  | into {arm : Arm} {spot : Spot} {first statement : Stmt} {block rest : List Stmt}
      {m m' n : Machine} (takes : Takes setup invoke arm first m block m')
      (starts : Starts spot block m' statement n) :
      Starts (.into arm spot) (first :: rest) m statement n

variable {setup} {invoke}

section Starting

variable {inv : List String → Machine → Prop} {fair : Stop → Prop}
  {denotes : StructExpr → StructTag → Prop} [∀ scope, Aloof (inv scope) fair] {arm : Arm}
  {statement : Stmt} {block : List Stmt} {m n : Machine}

theorem Takes.upholds {scope : List String} (takes : Takes setup invoke arm statement m block n)
    (rules : Upholds setup invoke ctx access inv fair denotes)
    (recorded : RecordedStmt ctx access scope statement) (stands : inv scope m) :
    inv scope n ∧ RecordedBlock ctx access scope block := by
  have tests : ∀ {cond flag m m'}, Recorded ctx access scope cond → inv scope m →
      test setup invoke cond m = .ok flag m' → inv scope m' := by
    intro cond flag m m' known stands ran
    have inside := rules.eval cond known
    have tested : Still (inv scope) fair (test setup invoke cond) := by
      unfold test
      infer_instance
    exact (tested.maintains.of_ok stands ran).1
  induction takes with
  | @onTrue _ _ onFalse _ _ holds =>
    cases onFalse with
    | none => exact ⟨tests recorded.1 stands holds, recorded.2⟩
    | some onFalse => exact ⟨tests recorded.1 stands holds, recorded.2.1⟩
  | onFalse fails => exact ⟨tests recorded.1 stands fails, recorded.2.2⟩
  | body holds => exact ⟨tests recorded.1 stands holds, recorded.2⟩
  | again holds round _ ih =>
    have behind := rules.inScope (rules.runAll _ recorded.2) _ (tests recorded.1 stands holds)
    obtain ⟨_, stands', rfl⟩ := behind.of_ok round
    exact ih recorded (List.append_nil scope ▸ stands')

theorem Takes.exists_arm (takes : Takes setup invoke arm statement m block n) (s : BodyState) :
    ∃ entry, arm? ctx arm statement s = some (block, entry) := by
  cases takes <;> exact ⟨_, rfl⟩

/-- Where the machine starts a statement the checker comes to it, and they have the same names. -/
theorem Starts.visited {spot : Spot} (starts : Starts setup invoke spot block m statement n)
    (rules : Upholds setup invoke ctx access inv fair denotes) (declared : ctx.types.Accepted)
    {outer : List String} {s : BodyState} (formed : Formed ctx s)
    (clean : (stmts ctx outer block s).2.problems = [])
    (recorded : RecordedBlock ctx access s.locals.names block) (stands : inv s.locals.names m) :
    ∃ state, visit? ctx outer spot block s = some (statement, state) ∧ Formed ctx state ∧
      inv state.locals.names n := by
  induction starts generalizing outer s with
  | here => exact ⟨_, rfl, formed.reading _, stands⟩
  | @later spot first _ rest _ _ _ ran _ ih =>
    obtain ⟨headClean, _, whenNot⟩ := stmts_cons_accepted clean
    have ⟨head, _⟩ := walks_stmt declared first _ (formed.reading _) headClean
    have settled := stepped_settle head.formed
    obtain ⟨_, stands', adds⟩ := (rules.run first recorded.1 _ stands).of_ok ran
    obtain rfl := adds rfl
    have goes := ((goesOn_run first).of_ok trivial ran).2 rfl
    have open' : (stmt ctx first (s.facing rest outer)).1 = false :=
      (stmt_fst first _).trans goes
    have names := settled.names.trans head.names
    rw [visit?_later spot open']
    exact ih (settled.formed head.formed) (whenNot open').1
      (names ▸ recorded.2 goes) (names ▸ stands')
  | into takes _ ih =>
    obtain ⟨headClean, _⟩ := stmts_cons_accepted clean
    obtain ⟨stands', recorded'⟩ := takes.upholds rules recorded.1 stands
    obtain ⟨entry, found⟩ := takes.exists_arm _
    obtain ⟨formed', names, _, blockClean⟩ :=
      arm_accepted declared (formed.reading _) headClean found
    have same : (entered entry).locals.names = s.locals.names := names
    rw [visit?, found]
    exact ih (formed_entered formed') (inScope_accepted blockClean).1
      (same ▸ recorded') (same ▸ stands')

end Starting

end Exec

/-! ## Names along a run -/

/-- The function of a call and the names of its bindings. -/
def Frame.scope (frame : Frame) : FunctionId × List String :=
  (frame.function, frame.bindings.map (·.name))

/-- The scopes of the active calls, newest first. -/
def Machine.scopes (m : Machine) : List (FunctionId × List String) :=
  (m.current :: m.callers).map Frame.scope

/-- A call that begins with one binding for every parameter. -/
def Program.Fills (program : Program) (frame : Frame) : Prop :=
  ∃ decl, program.function? frame.function = some decl ∧
    frame.bindings.map (·.name) = decl.params.map (·.name)

namespace Exec

/-- The active calls have the given scopes, and the calls that were begun are known. -/
structure Lies (known : Frame → Prop) (scopes : List (FunctionId × List String)) (m : Machine) :
    Prop where
  scopes : m.scopes = scopes
  entered : ∀ frame ∈ m.tally.entered, known frame

/-- The run does not stop for want of a binding. -/
def Finds (stop : Stop) : Prop := ∀ name, stop ≠ .failure (.invariantViolation (.unknownLocal name))

section Scoping

variable {known : Frame → Prop} {rest : List (FunctionId × List String)}
  {decl : FunctionDecl} {id : FunctionId}

instance aloof_lies (scopes : List (FunctionId × List String)) :
    Aloof (Lies known scopes) Finds where
  setLocal m frame index value lies := by
    have same : ∀ frame : Frame, (frame.put index value).scope = frame.scope := fun frame =>
      congrArg (Prod.mk frame.function) (frame.names_put index value)
    refine ⟨(Machine.map_modifyFrame same m frame).trans lies.scopes, ?_⟩
    rw [Machine.tally_setLocal]
    exact lies.entered
  tx _ _ lies := { lies with }
  host _ _ lies := { lies with }
  packed _ _ lies := { lies with }
  unpacked _ _ lies := { lies with }
  fair := by
    rintro failure ordinary name same
    obtain rfl := Stop.failure.inj same
    cases ordinary

/-- Calls with an argument for every parameter leave the scopes as they are. -/
def Encloses (setup : Setup) (known : Frame → Prop) (invoke : Invoke) : Prop :=
  ∀ ⦃id decl⦄ (typeArgs : List Ty) ⦃args : List Value⦄ (top : FunctionId × List String)
    (rest : List (FunctionId × List String)), setup.program.function? id = some decl →
    args.length = decl.params.length →
    Maintains (Lies known (top :: rest)) (invoke id decl typeArgs args) (fun _ => True) Finds

theorem exists_lastIndex? {name : String} {bindings : List Binding}
    (member : name ∈ bindings.map (·.name)) :
    ∃ index, Binding.lastIndex? name bindings = some index := by
  induction bindings with
  | nil => cases member
  | cons binding rest ih =>
    rw [Binding.lastIndex?]
    cases later : Binding.lastIndex? name rest with
    | some index => exact ⟨index + 1, rfl⟩
    | none =>
      rcases List.mem_cons.mp member with rfl | listed
      · exact ⟨0, if_pos rfl⟩
      · obtain ⟨index, found⟩ := ih listed
        cases later.symm.trans found

theorem names_current {m : Machine} {scope : List String}
    (lies : Lies known ((id, scope) :: rest) m) : m.current.bindings.map (·.name) = scope :=
  congrArg Prod.snd (List.cons.inj lies.scopes).1

theorem upholds_lies (accepted : setup.program.Accepted) (types : setup.program.types = ctx.types)
    (encloses : Encloses setup known invoke) (rest : List (FunctionId × List String)) :
    Upholds setup invoke ctx access (fun scope => Lies known ((ctx.signature.id, scope) :: rest))
    Finds
      fun _ _ => True where
  outOfFuel := by
    intro name same
    cases same
  named := by
    intro scope name member
    refine ⟨maintains_get.bind fun m lies => ?_⟩
    rw [← names_current lies] at member
    obtain ⟨index, found⟩ := exists_lastIndex? member
    rw [found]
    exact maintains_pure trivial
  bound := by
    intro scope m name value lies
    refine ⟨?_, lies.entered⟩
    have same := lies.scopes
    simp only [Machine.scopes, Frame.scope, binding, List.map_cons, List.cons.injEq,
      Prod.mk.injEq] at same ⊢
    simp [same]
  left := by
    intro scope more m m' lies lies'
    refine ⟨?_, lies'.entered⟩
    have count : m.current.bindings.length = scope.length := by
      rw [← names_current lies, List.length_map]
    have same := lies'.scopes
    simp only [Machine.scopes, Frame.scope, shrinking, List.map_cons, List.cons.injEq,
      Prod.mk.injEq] at same ⊢
    simp [same, count]
  calls := by
    intro scope module function typeArgs args site
    obtain ⟨callee, types', declared, _, _, _, count⟩ := site.declared
    refine Maintains.bind Still.maintains fun types'' _ => maintains_get.bind fun m lies => ?_
    have own : m.current.function = ctx.signature.id := congrArg Prod.fst
      (List.cons.inj lies.scopes).1
    rw [own]
    dsimp only
    split
    · rename_i decl found
      obtain ⟨signature, checked⟩ := accepted.function found
      rw [← types] at declared
      obtain rfl : callee = signature := Option.mem_unique declared checked.registered
      refine encloses types'' _ rest found ?_
      rw [← count, ← List.length_map, checked.params, List.length_map]
    · refine maintains_fail fun name same => ?_
      cases same
  resolves _ := Still.maintains
  reaches _ _ := maintains_modify fun _ lies => { lies with }

/-- A body, run in a frame with a binding for every parameter. -/
theorem steps_runBody (accepted : setup.program.Accepted) (encloses : Encloses setup known invoke)
    (found : setup.program.function? id = some decl) (rest : List (FunctionId × List String)) :
    Steps (fun scope => Lies known ((id, scope) :: rest)) Finds (decl.params.map (·.name))
      (runBody setup invoke decl) fun _ names => names = [] := by
  obtain ⟨signature, access, checked, _, recorded⟩ := accepted.recorded found
  obtain rfl := accepted.types.function_id checked.registered
  exact (upholds_lies accepted rfl encloses rest).runBody recorded

theorem scope_callFrame (count : args.length = decl.params.length) (typeArgs : List Ty) :
    (callFrame id decl typeArgs args).scope = (id, decl.params.map (·.name)) := by
  refine congrArg (Prod.mk id) (List.ext_getElem ?_ fun index _ _ => ?_)
  · simp [callFrame, count]
  · simp [callFrame]

theorem encloses_call (accepted : setup.program.Accepted)
    (fills : ∀ frame, setup.program.Fills frame → known frame) (depth : Nat) :
    Encloses setup known (call setup depth) := by
  induction depth with
  | zero =>
    intro _ _ _ _ _ _ _ _
    refine maintains_fail fun name same => ?_
    cases same
  | succ depth ih =>
    intro id decl typeArgs args top rest found count
    have scope : (callFrame id decl typeArgs args).scope = _ := scope_callFrame count typeArgs
    refine (steps_runBody accepted ih found (top :: rest)).called (callFrame id decl typeArgs args)
      (fun m lies => ?_) (fun m names lies => ?_) (fun _ _ lies => { lies with }) id args
    · refine ⟨?_, List.forall_mem_cons.mpr
        ⟨fills _ ⟨decl, found, congrArg Prod.snd scope⟩, lies.entered⟩⟩
      exact congrArg₂ List.cons scope lies.scopes
    · have waiting : m.callers.map Frame.scope = top :: rest := (List.cons.inj lies.scopes).2
      obtain ⟨caller, callers, same, _⟩ := List.map_eq_cons_iff.mp waiting
      rw [same] at waiting
      rw [Machine.leave_eq same]
      exact ⟨waiting, lies.entered⟩

end Scoping

end Exec

/-! ## Executions -/

open Exec

section Executing

variable {store : Store} {function : FunctionId} {typeArgs : List Ty}

/-- A run that a request starts finds its bindings, and begins calls with one for every
parameter. -/
theorem lies_launch (accepted : setup.program.Accepted) {result : EStateM.Result Stop Machine Value}
    (launched : setup.launch store function typeArgs args = .ok result) :
    (∀ value m, result = .ok value m → ∀ frame ∈ m.tally.entered, setup.program.Fills frame) ∧
      ∀ stop m, result = .error stop m →
        (∀ frame ∈ m.tally.entered, setup.program.Fills frame) ∧ Finds stop := by
  obtain ⟨⟨decl, signature, values, host, depth, found, registered, passed⟩, rfl⟩ :=
    run_of_launch launched
  have given := (acceptCall_eq_ok passed).2.length_eq
  have checked := accepted.checked found registered
  have count : values.length = decl.params.length := by
    rw [given, ← List.length_map, checked.params, List.length_map]
  have scope : (callFrame function decl typeArgs values).scope = _ :=
    scope_callFrame count typeArgs
  have start : Lies setup.program.Fills [(function, decl.params.map (·.name))]
      (.start (callFrame function decl typeArgs values) host store) :=
    ⟨congrArg (fun scope => [scope]) scope,
      List.forall_mem_singleton.mpr ⟨decl, found, congrArg Prod.snd scope⟩⟩
  have encloses := encloses_call accepted (fun _ fills => fills) depth
  have ended := ((steps_runBody accepted encloses found []).visiting
    (fun _ _ lies => { lies with }) function values).ended _ start
  refine ⟨fun value m ran => ?_, fun stop m ran => ?_⟩
  · exact (ended.of_ok ran).1.elim fun _ lies => lies.entered
  · exact (ended.of_error ran).imp_left fun ⟨_, lies⟩ => lies.entered

theorem fills_entered (accepted : setup.program.Accepted) :
    ∀ frame ∈ (setup.tally store function typeArgs args).entered, setup.program.Fills frame := by
  unfold Setup.tally
  cases launched : setup.launch store function typeArgs args with
  | error stop => exact List.forall_mem_nil _
  | ok result =>
    obtain ⟨returned, stopped⟩ := lies_launch accepted launched
    cases result with
    | ok value m => exact returned value m rfl
    | error stop m => exact (stopped stop m rfl).1

theorem execute_finds_locals (accepted : setup.program.Accepted) (name : String) :
    setup.execute store function typeArgs args ≠
      .error (.failure (.invariantViolation (.unknownLocal name))) := by
  intro ended
  rcases launch_of_execute ended with refused | ⟨m, stopped⟩ | ⟨key, conflict⟩
  · cases (refusal_of_launch refused).fair
  · exact ((lies_launch accepted stopped).2 _ m rfl).2 name rfl
  · cases conflict

end Executing

/-- The checker and the machine have the same names, and mean the same binding by each of them. -/
structure SameScope (locals : Locals) (frame : Frame) : Prop where
  names : locals.visible.map (fun id => (locals.slot? id).map (·.name)) =
    frame.bindings.map fun binding => some binding.name
  lookup : ∀ name, locals.lookup name = Binding.lastIndex? name frame.bindings

theorem sameScope_of_names {locals : Locals} {frame : Frame}
    (dense : locals.visible = List.range locals.size)
    (names : frame.bindings.map (·.name) = locals.names) : SameScope locals frame := by
  have same : frame.bindings.map (·.name) = locals.slots.map (·.name) := by
    rw [names, Locals.names, Locals.shapes, List.map_map]
    rfl
  refine ⟨?_, lookup_eq_lastIndex? dense same⟩
  have optional := congrArg (List.map some) same
  rw [List.map_map, List.map_map] at optional
  rw [dense]
  refine Eq.trans (List.ext_getElem (by simp [Locals.size]) fun index _ within => ?_) optional.symm
  rw [List.length_map] at within
  simp [Locals.slot?, within]

/-- Whenever an execution of an accepted program starts a statement, the bindings of the running
call have the names that are in scope where the checker comes to the statement, and names are looked
up alike. So no execution stops because a binding is missing. -/
theorem scopes_agree {modules : List Module} {program : Program}
    (accepted : check modules = .ok program) (maxCallDepth loopBound : Nat) (store : Store)
    (function : FunctionId) (typeArgs : List Ty) (args : List Value) :
    let setup : Setup := ⟨program, maxCallDepth, loopBound⟩
    (∀ frame ∈ (setup.tally store function typeArgs args).entered, ∃ decl signature,
      program.function? frame.function = some decl ∧
      program.types.function? frame.function = some signature ∧
      ∀ depth m spot statement n, m.current = frame →
        Starts setup (call setup depth) spot decl.body m statement n →
        ∃ state, Check.visited? ⟨program.types, signature⟩ decl.body spot = some
        (statement, state) ∧
          SameScope state.locals n.current) ∧
    ∀ name, setup.execute store function typeArgs args ≠
      .error (.failure (.invariantViolation (.unknownLocal name))) := by
  intro setup
  have sound : setup.program.Accepted := accepted_of_check accepted
  refine ⟨fun frame begun => ?_, execute_finds_locals sound⟩
  obtain ⟨decl, found, names⟩ := fills_entered sound frame begun
  obtain ⟨signature, access, checked, _, recorded⟩ := sound.recorded found
  refine ⟨decl, signature, found, checked.registered, ?_⟩
  rintro depth m spot statement n rfl starts
  have same := sound.types.function_id checked.registered
  obtain ⟨startClean, blockClean, _⟩ := Check.body_accepted checked.body
  have start := Check.proceeds_started sound.types (same.symm ▸ checked.registered) startClean
  have params : (Check.started ⟨program.types, signature⟩).locals.names =
      decl.params.map (·.name) :=
    start.names.trans checked.params
  have encloses : Encloses setup (fun _ => True) (call setup depth) :=
    encloses_call sound (fun _ _ => trivial) depth
  obtain ⟨state, visited, formed, lies⟩ := starts.visited
    (upholds_lies sound rfl encloses (m.callers.map Frame.scope)) sound.types
    (Check.formed_entered start.formed) (Check.inScope_accepted blockClean).1 (params ▸ recorded)
    ⟨congrArg (· :: m.callers.map Frame.scope) (Prod.ext same.symm (names.trans params.symm)),
      fun _ _ => trivial⟩
  exact ⟨state, visited, sameScope_of_names formed.dense (names_current lies)⟩

/-- Counts up in a loop whose block binds the names of the count and of its limit once more. -/
def countingUp : FunctionDecl where
  name := "main"
  params := [⟨"n", .u64⟩]
  ret := some .u64
  body := [
    .bind "x" none (.u64 0),
    .loop (.binary .lt (.var "x") (.var "n")) [
      .assign "x" (.binary .add (.var "x") (.u64 1)),
      .unpack { name := "Pair" } [("left", .bind "n"), ("right", .bind "x")]
        (.pack { name := "Pair" } [("left", .var "x"), ("right", .var "n")]),
      .eval (.var "x")],
    .ret (some (.var "x"))]

/-- Its module. -/
def shadowing : List Module := [
  { name := "Nest"
    structs := [{ name := "Pair", fields := [⟨"left", .u64⟩, ⟨"right", .u64⟩] }]
    functions := [countingUp] }]

/-- The module, checked. -/
def shadowingSetup : Setup := ⟨programOf shadowing, 16, 16⟩

/-- A call that goes round twice. -/
def shadowingStart : Machine := .start (callFrame ⟨"Nest", "main"⟩ countingUp [] [.u64 2]) [] ∅

/-- The last statement of the loop. -/
def shadowedSpot : Spot := .later (.into .body (.later (.later .here)))

/-- In the second round of the loop, too, the inner bindings are found. -/
theorem shadowing_scopes_agree :
    check shadowing = .ok (programOf shadowing) ∧
      ∃ signature statement state n,
        Starts shadowingSetup (call shadowingSetup 15) shadowedSpot countingUp.body shadowingStart
          statement n ∧
        n.current.bindings.map (·.name) = ["n", "x", "n", "x"] ∧
        Check.visited? ⟨(programOf shadowing).types, signature⟩ countingUp.body shadowedSpot =
          some (statement, state) ∧
        SameScope state.locals n.current ∧ state.locals.lookup "x" = some 3 ∧
        shadowingSetup.execute ∅ ⟨"Nest", "main"⟩ [] [.u64 2] ≠
          .error (.failure (.invariantViolation (.unknownLocal "x"))) := by
  have accepted : check shadowing = .ok (programOf shadowing) := check_of_clean (by decide +kernel)
  obtain ⟨agree, finds⟩ := scopes_agree accepted 16 16 ∅ ⟨"Nest", "main"⟩ [] [.u64 2]
  have begun : shadowingStart.current ∈
      (shadowingSetup.tally ∅ ⟨"Nest", "main"⟩ [] [.u64 2]).entered :=
    List.mem_singleton_self shadowingStart.current
  obtain ⟨decl, signature, found, _, agree⟩ := agree _ begun
  obtain rfl : countingUp = decl := Option.some.inj found
  have starts : Starts shadowingSetup (call shadowingSetup 15) shadowedSpot countingUp.body
      shadowingStart _ _ :=
    .later rfl (.into (.again rfl rfl (.body rfl)) (.later rfl (.later rfl .here)))
  obtain ⟨state, visited, same⟩ := agree 15 _ _ _ _ rfl starts
  exact ⟨accepted, signature, _, state, _, starts, rfl, visited, same, same.lookup "x", finds "x"⟩

end Custody
