import Custody.Proofs.Execution.Entry
import Custody.Proofs.Execution.Still
/-!
# Running what is on record

Code that is on record keeps up an invariant if its names, its calls and its operations on storage
do, and the invariant does not look at values otherwise. It may look at the names in scope, which
statements add to and blocks give back. The rules of such an invariant are listed once; what has
them stands along every expression, every statement and every body that is on record.
-/

namespace Custody.Exec

variable {inv : List String → Machine → Prop} {denotes : StructExpr → StructTag → Prop}
  {fair : Stop → Prop} {scope : List String} {ctx : BodyContext} {invoke : Invoke} {access : Access}
  {setup : Setup}

/-- The machine with one more binding. -/
def binding (name : String) (value : Value) (m : Machine) : Machine :=
  { m with
    current := { m.current with
      bindings := m.current.bindings ++ [{ name := name, value := some value }] } }

/-- The machine with the first so many bindings only. -/
def shrinking (mark : Nat) (m : Machine) : Machine :=
  { m with current := { m.current with bindings := m.current.bindings.take mark } }

/-! ## Where control goes on -/

/-- Control goes on only where a path does. -/
def GoesOn (ends : Bool) (flow : Flow) : Prop := flow = .next → ends = false

theorem maintains_any {α : Type} (x : Exec α) : Maintains (fun _ => True) x fun _ => True :=
  fun _ _ => .intro (fun _ _ _ => ⟨trivial, trivial⟩) fun _ _ _ => ⟨trivial, trivial⟩

theorem goesOn_inScope {ends : Bool} {block : Exec Flow}
    (runs : Maintains (fun _ => True) block (GoesOn ends)) :
    Maintains (fun _ => True) (inScope block) (GoesOn ends) :=
  (maintains_any _).bind fun _ _ => runs.bind fun _ goes => (maintains_any _).bind fun _ _ =>
    maintains_pure goes

mutual

theorem goesOn_run : (stmt : Stmt) → Maintains (fun _ => True) (run setup invoke stmt)
    (GoesOn stmt.ends)
  | .bind _ _ _ | .unpack _ _ _ | .assign _ _ | .write _ _ | .loop _ _ | .assert _ _ | .eval _
  | .branch _ _ none => (maintains_any _).mono fun _ _ _ => rfl
  | .branch cond onTrue (some onFalse) => by
    rw [run]
    refine (maintains_any _).bind fun _ _ => (maintains_any _).bind fun flag _ => ?_
    cases flag with
    | true =>
      exact (goesOn_inScope (goesOn_runAll onTrue)).mono fun _ goes next => by
        rw [Stmt.ends, goes next, Bool.false_and]
    | false =>
      rw [runOtherwise]
      exact (goesOn_inScope (goesOn_runAll onFalse)).mono fun _ goes next => by
        rw [Stmt.ends, goes next, Bool.and_false]
  | .ret none => by
    rw [run]
    exact maintains_pure (by simp [GoesOn])
  | .ret (some value) => by
    rw [run]
    exact (maintains_any _).bind fun _ _ => maintains_pure (by simp [GoesOn])
  | .abort code => by
    rw [run]
    refine (maintains_any _).bind fun value _ => ?_
    cases value with
    | u64 number => exact maintains_get.bind fun _ _ => maintains_fail trivial
    | _ => exact maintains_breach

theorem goesOn_runAll : (stmts : List Stmt) →
    Maintains (fun _ => True) (runAll setup invoke stmts) (GoesOn (Stmt.blockEnds stmts))
  | [] => (maintains_any _).mono fun _ _ _ => rfl
  | stmt :: stmts => by
    rw [runAll]
    refine (goesOn_run stmt).bind fun flow goes => ?_
    cases flow with
    | ret value => exact maintains_pure (by simp [GoesOn])
    | next =>
      rw [Stmt.blockEnds, goes rfl, Bool.false_or]
      exact goesOn_runAll stmts

end

/-! ## Rules -/

/-- The rules of an invariant that depends on the names in scope. `denotes` tells what a written
struct may turn out to be. -/
structure Upholds (setup : Setup) (invoke : Invoke) (ctx : BodyContext) (access : Access)
    (inv : List String → Machine → Prop) (fair : Stop → Prop)
    (denotes : StructExpr → StructTag → Prop) : Prop where
  outOfFuel : fair .outOfFuel
  named : ∀ {scope name}, name ∈ scope → Still (inv scope) fair (bindingIndex name)
  bound : ∀ {scope m} name value, inv scope m → inv (scope ++ [name]) (binding name value m)
  left : ∀ {scope more m m'}, inv scope m → inv (scope ++ more) m' →
    inv scope (shrinking m.current.bindings.length m')
  calls : ∀ {scope module function typeArgs args},
    Check.CallSite ctx access module function typeArgs args.length →
    Maintains (inv scope) (callFunction setup invoke module function typeArgs args)
    (fun _ => True) fair
  resolves : ∀ {scope use struct}, Check.StorageSite ctx access use struct →
    Maintains (inv scope) (resolveStruct setup struct) (denotes struct) fair
  reaches : ∀ {scope use struct key}, Check.StorageSite ctx access use struct →
    denotes struct key.tag → Maintains (inv scope) (countReached use key) (fun _ => True) fair

namespace Upholds

/-! ## Expressions -/

/-- An operation on a slot named by an address, followed by a step on that slot. -/
theorem atSlot [Aloof (inv scope) fair] (rules : Upholds setup invoke ctx access inv fair denotes)
    {use : StructUse} {struct : StructExpr} {addr : Expr} {α : Type} {step : SlotKey → Exec α}
    [∀ key, Still (inv scope) fair (step key)] (site : Check.StorageSite ctx access use struct)
    (evaluates : Maintains (inv scope) (Exec.eval setup invoke addr) (fun _ => True) fair) :
    Maintains (inv scope) (do
        let key ← slotKey setup struct (← Exec.eval setup invoke addr)
        countReached use key
        step key) (fun _ => True) fair := by
  refine evaluates.bind fun address _ => ?_
  have key : Maintains (inv scope) (slotKey setup struct address)
      (fun key => denotes struct key.tag) fair :=
    (still_asAddress address).maintains.bind fun _ _ => (rules.resolves site).bind fun _ here =>
      maintains_pure here
  exact key.bind fun key here => (rules.reaches site here).bind fun _ _ => Still.maintains

theorem logical [Aloof (inv scope) fair] {op : BinOp} {left right : Expr}
    (logical : op.isLogical = true)
    (leftRuns : Still (inv scope) fair (Exec.eval setup invoke left))
    (rightRuns : Still (inv scope) fair (Exec.eval setup invoke right)) :
    Still (inv scope) fair (Exec.eval setup invoke (.binary op left right)) := by
  cases op with
  | and | or =>
    rw [Exec.eval]
    infer_instance
  | _ => cases logical

mutual

/-- An expression that is on record. -/
theorem eval [∀ scope, Aloof (inv scope) fair]
    (rules : Upholds setup invoke ctx access inv fair denotes) : (e : Expr) →
    Check.Recorded ctx access scope e → Still (inv scope) fair (Exec.eval setup invoke e)
  | .unit, _ | .bool _, _ | .u8 _, _ | .u64 _, _ | .u128 _, _ | .address _, _ => by
    rw [Exec.eval]
    infer_instance
  | .var _, known | .copy _, known | .move _, known | .borrow _ _, known => by
    have found := rules.named known
    rw [Exec.eval]
    infer_instance
  | .borrowField _ inner _, recorded | .freeze inner, recorded | .deref inner, recorded
  | .not inner, recorded | .signerAddress inner, recorded => by
    have inside := rules.eval inner recorded
    rw [Exec.eval]
    infer_instance
  | .pack _ fields, recorded => by
    have inside := rules.evalFields fields recorded
    rw [Exec.eval]
    infer_instance
  | .call module function typeArgs args, recorded => by
    rw [Exec.eval]
    exact ⟨(rules.evalAll args recorded.1).bind fun values count =>
      rules.calls (count.symm ▸ recorded.2)⟩
  | .binary op left right, recorded => by
    have first := rules.eval left recorded.1
    have second := rules.eval right recorded.2
    cases eager : op.isLogical with
    | true => exact logical eager first second
    | false =>
      rw [eval_eager eager]
      infer_instance
  | .vector _ items, recorded => by
    rw [Exec.eval]
    exact ⟨(rules.evalAll items recorded).bind fun _ _ => maintains_pure trivial⟩
  | .moveTo struct signer value, recorded => by
    have first := rules.eval signer recorded.1
    have second := rules.eval value recorded.2.1
    rw [Exec.eval]
    refine ⟨first.maintains.bind fun owner _ =>
      (still_signerOf owner).maintains.bind fun address _ =>
        second.maintains.bind fun stored _ => (rules.resolves recorded.2.2).bind fun tag here => ?_⟩
    exact Maintains.bind (rules.reaches recorded.2.2 here) fun _ _ => Still.maintains
  | .moveFrom _ addr, recorded | .borrowGlobal _ _ addr, recorded | .existsAt _ addr, recorded => by
    rw [Exec.eval]
    exact ⟨rules.atSlot recorded.2 (rules.eval addr recorded.1).maintains⟩

theorem evalAll [∀ scope, Aloof (inv scope) fair]
    (rules : Upholds setup invoke ctx access inv fair denotes) :
    (es : List Expr) → Check.RecordedAll ctx access scope es →
    Maintains (inv scope) (Exec.evalAll setup invoke es) (fun values => values.length = es.length)
    fair
  | [], _ => by
    rw [Exec.evalAll]
    exact maintains_pure rfl
  | e :: es, recorded => by
    rw [Exec.evalAll]
    exact (rules.eval e recorded.1).maintains.bind fun _ _ => (rules.evalAll es recorded.2).bind
      fun _ count => maintains_pure (congrArg Nat.succ count)

theorem evalFields [∀ scope, Aloof (inv scope) fair]
    (rules : Upholds setup invoke ctx access inv fair denotes) : (fields : List (String × Expr)) →
    Check.RecordedFields ctx access scope fields → Still (inv scope) fair
    (Exec.evalFields setup invoke fields)
  | [], _ => by
    rw [Exec.evalFields]
    infer_instance
  | (field, e) :: fields, recorded => by
    have first := rules.eval e recorded.1
    have rest := rules.evalFields fields recorded.2
    rw [Exec.evalFields]
    infer_instance

end

/-! ## Statements -/

end Upholds

/-- A run that may add names to those in scope; `good` ties them to its value. -/
def Steps (inv : List String → Machine → Prop) (fair : Stop → Prop) (scope : List String) {α : Type}
    (x : Exec α) (good : α → List String → Prop) : Prop :=
  ∀ m, inv scope m → Ends x m (fun value m' => ∃ names, inv (scope ++ names) m' ∧ good value names)
    fun stop m' => (∃ names, inv (scope ++ names) m') ∧ fair stop

section Steps

variable {α β : Type} {x : Exec α} {good : α → List String → Prop}

theorem steps_of {here : α → Prop} (runs : Maintains (inv scope) x here fair)
    (known : ∀ value, here value → good value []) : Steps inv fair scope x good := by
  intro m start
  have same := List.append_nil scope
  refine (runs m start).mono (fun value m' went => ?_) fun stop m' went => ?_
  · exact ⟨[], same.symm ▸ went.1, known value went.2⟩
  · exact ⟨⟨[], same.symm ▸ went.1⟩, went.2⟩

/-- What follows finds the names that were added. -/
theorem Steps.bind {f : α → Exec β} {good' : β → List String → Prop}
    (first : Steps inv fair scope x good) (rest : ∀ value names, good value names →
      Steps inv fair (scope ++ names) (f value) fun value more => good' value (names ++ more)) :
    Steps inv fair scope (x >>= f) good' := by
  refine fun m start => (first m start).bind ?_
  rintro value m' ⟨names, stands, known⟩
  refine (rest value names known m' stands).mono ?_ ?_
  · rintro value' m'' ⟨more, stands', known'⟩
    exact ⟨names ++ more, List.append_assoc scope names more ▸ stands', known'⟩
  · rintro stop m'' ⟨⟨more, stands'⟩, reason⟩
    exact ⟨⟨names ++ more, List.append_assoc scope names more ▸ stands'⟩, reason⟩

theorem Steps.mono {good' : α → List String → Prop} (steps : Steps inv fair scope x good)
    (implied : ∀ value names, good value names → good' value names) :
    Steps inv fair scope x good' := fun m start =>
  (steps m start).mono (fun value _ => .imp fun names => .imp_right (implied value names))
    fun _ _ went => went

/-- What is known of the value of any run is known of this one. -/
theorem Steps.and {here : α → Prop} (steps : Steps inv fair scope x good)
    (known : Maintains (fun _ => True) x here) :
    Steps inv fair scope x fun value names => good value names ∧ here value := by
  refine fun m start => .intro (fun value m' ran => ?_) fun stop m' ran =>
    (steps m start).of_error ran
  obtain ⟨names, stands, fits⟩ := (steps m start).of_ok ran
  exact ⟨names, stands, fits, (known.of_ok trivial ran).2⟩

/-- An expression adds no name. -/
theorem Steps.after {f : α → Exec β} {here : α → Prop} {good' : β → List String → Prop}
    (first : Maintains (inv scope) x here fair)
    (rest : ∀ value, here value → Steps inv fair scope (f value) good') :
    Steps inv fair scope (x >>= f) good' := by
  have began : Steps inv fair scope x fun value names => names = [] ∧ here value :=
    steps_of first fun _ known => ⟨rfl, known⟩
  refine began.bind ?_
  rintro value _ ⟨rfl, known⟩
  rw [List.append_nil]
  exact rest value known

/-- Control does not go on after a value is returned. -/
theorem steps_ret {good : Flow → List String → Prop} (value : Value)
    (known : ∀ flow, flow ≠ .next → good flow []) :
    Steps inv fair scope (pure (.ret value)) good := by
  refine steps_of (maintains_pure ?_) known
  intro next
  cases next

theorem Steps.ended (steps : Steps inv fair scope x good) (m : Machine) (start : inv scope m) :
    Ends x m (fun _ m' => (∃ names, inv (scope ++ names) m') ∧ True)
      fun stop m' => (∃ names, inv (scope ++ names) m') ∧ fair stop :=
  (steps m start).mono (fun _ _ ⟨names, stands, _⟩ => ⟨⟨names, stands⟩, trivial⟩) fun _ _
    went => went

/-- A run that is noted when it returns. -/
theorem Steps.visiting {run : Exec Value} {good : Value → List String → Prop}
    (steps : Steps inv fair scope run good)
    (noted : ∀ {scope} visit m, inv scope m → inv scope (noting visit m)) (id : FunctionId)
    (args : List Value) : Steps inv fair scope (visiting id args run) good := by
  refine Steps.after maintains_get fun began _ => steps.bind fun value names known => ?_
  refine Steps.after (maintains_modify fun m here => noted _ m here) fun _ _ =>
    steps_of (maintains_pure rfl) ?_
  rintro _ rfl
  exact (List.append_nil names).symm ▸ known

/-- A call runs in a frame of its own, and may leave any names in it. -/
theorem Steps.called {run : Exec Value} {good : Value → List String → Prop} {outer : Machine → Prop}
    (steps : Steps inv fair scope run good) (frame : Frame)
    (enter : ∀ m, outer m →
      inv scope (Machine.enter { m with tally.entered := frame :: m.tally.entered } frame))
    (leave : ∀ m names, inv (scope ++ names) m → outer m.leave)
    (noted : ∀ visit m, outer m → outer (noting visit m)) (id : FunctionId) (args : List Value) :
    Maintains outer (countEntered frame >>= fun _ => Exec.visiting id args (inFrame frame run))
      (fun _ => True) fair :=
  (maintains_modify_inFrame enter (fun m ⟨names, here⟩ => leave m names here)
    steps.ended).visiting noted id args

variable [aloof : Aloof (inv scope) fair]

theorem steps_stop {failure : Failure} (ordinary : failure.isOrdinary = true) :
    Steps inv fair scope (fail failure : Exec α) good :=
  steps_of (maintains_fail (aloof.fair failure ordinary) : Maintains _ _ (fun _ => False) _)
    fun _ never => never.elim

end Steps

/-- The names that a struct taken apart is bound to. -/
theorem names_unpack {struct : StructDef} {binders : List (String × Binder)}
    {places : List (Option Value)} {bound : List (String × Value)}
    (done : struct.unpack binders places = .ok bound) :
    bound.map (·.1) = binders.filterMap (·.2.name?) := by
  induction binders generalizing places bound with
  | nil =>
    cases done
    rfl
  | cons entry rest ih =>
    obtain ⟨field, binder⟩ := entry
    rw [StructDef.unpack] at done
    cases position : struct.fieldIndex? field with
    | none => simp [position, Bind.bind, Except.bind] at done
    | some index =>
      simp only [position, Option.elim_some, Bind.bind, Except.bind] at done
      split at done
      · cases later : struct.unpack rest (places.set index none) with
        | error reason => simp [later] at done
        | ok others =>
          have same := ih later
          simp only [later] at done
          cases binder with
          | ignore => exact Except.ok.inj done ▸ same
          | bind name =>
            obtain rfl := Except.ok.inj done
            exact congrArg (name :: ·) same
      · cases done

/-- Where control goes on, the statement has added its names. -/
def Adds (stmt : Stmt) (flow : Flow) (names : List String) :
    Prop := flow = .next → names = stmt.binds

namespace Upholds

section Bindings

variable (rules : Upholds setup invoke ctx access inv fair denotes)

include rules

theorem bind (name : String) (value : Value) :
    Steps inv fair scope (Exec.bind name value) fun _ names => names = [name] :=
  fun _ start => ⟨[name], rules.bound name value start, rfl⟩

theorem bindAll (values : List (String × Value)) :
    Steps inv fair scope (bindAll values) fun _ names => names = values.map (·.1) := by
  induction values generalizing scope with
  | nil => exact steps_of (maintains_pure trivial) fun _ (_ : True) => rfl
  | cons entry rest ih =>
    refine (rules.bind entry.1 entry.2).bind ?_
    rintro _ _ rfl
    exact ih.mono fun _ _ same => congrArg (entry.1 :: ·) same

theorem inScope {block : Exec Flow} {good : Flow → List String → Prop}
    (runs : Steps inv fair scope block good) :
    Steps inv fair scope (inScope block) fun _ names => names = [] := by
  intro m start
  refine Ends.bind (f := fun flow => do
    modify (shrinking m.current.bindings.length)
    return flow) (runs m start) ?_
  rintro flow m' ⟨more, stands, _⟩
  exact ⟨[], (List.append_nil scope).symm ▸ rules.left start stands, rfl⟩

theorem repeatWhile {cond : Exec Bool} {body : Exec Flow}
    (tests : Maintains (inv scope) cond (fun _ => True) fair)
    (runs : Steps inv fair scope body fun _ names => names = []) (bound : Nat) :
    Steps inv fair scope (repeatWhile cond body bound) fun _ names => names = [] := by
  induction bound with
  | zero =>
    exact steps_of (maintains_throw rules.outOfFuel : Maintains _ _ (fun _ => False) _) (by simp)
  | succ bound ih =>
    refine Steps.after tests fun holds _ => ?_
    cases holds with
    | false => exact steps_of (maintains_pure trivial) fun _ (_ : True) => rfl
    | true =>
      refine runs.bind ?_
      rintro flow _ rfl
      rw [List.append_nil]
      cases flow with
      | next => exact ih
      | ret value => exact steps_of (maintains_pure trivial) fun _ (_ : True) => rfl

theorem unpack [∀ scope, Aloof (inv scope) fair] (binders : List (String × Binder))
    (value : Value) : Steps inv fair scope (unpack setup binders value)
      fun _ names => names = binders.filterMap (·.2.name?) := by
  cases value with
  | struct tag values =>
    refine Steps.after (still_structDef tag).maintains fun struct _ => ?_
    refine Steps.after (maintains_ordinary fun _ done => names_unpack done) fun bound same =>
      Steps.after Still.maintains fun _ _ => ?_
    exact same ▸ rules.bindAll bound
  | _ => exact steps_stop rfl

end Bindings

mutual

/-- A statement that is on record. -/
theorem run [∀ scope, Aloof (inv scope) fair]
    (rules : Upholds setup invoke ctx access inv fair denotes) :
    (stmt : Stmt) → ∀ {scope}, Check.RecordedStmt ctx access scope stmt →
    Steps inv fair scope (run setup invoke stmt) (Adds stmt)
  | .bind name _ value, _, recorded => by
    rw [Exec.run]
    refine Steps.after (rules.eval value recorded).maintains fun found _ =>
      (rules.bind name found).bind ?_
    rintro _ _ rfl
    exact steps_of (maintains_pure trivial) fun _ (_ : True) _ => rfl
  | .unpack _ fields value, _, recorded => by
    rw [Exec.run]
    refine Steps.after (rules.eval value recorded).maintains fun found _ =>
      (rules.unpack fields found).bind ?_
    rintro _ _ rfl
    exact steps_of (maintains_pure trivial) fun _ (_ : True) _ => List.append_nil _
  | .assign name value, _, recorded => by
    have found := rules.named recorded.2
    have inside := rules.eval value recorded.1
    rw [Exec.run]
    exact steps_of Still.maintains fun _ _ _ => rfl
  | .write target value, _, recorded => by
    have first := rules.eval value recorded.1
    have second := rules.eval target recorded.2
    rw [Exec.run]
    exact steps_of Still.maintains fun _ _ _ => rfl
  | .assert value _, _, recorded | .eval value, _, recorded => by
    have inside := rules.eval value recorded
    rw [Exec.run]
    exact steps_of Still.maintains fun _ _ _ => rfl
  | .branch cond onTrue none, _, recorded => by
    have test := rules.eval cond recorded.1
    rw [Exec.run]
    refine Steps.after test.maintains fun found _ => Steps.after (still_asBool found).maintains
      fun flag _ => ?_
    cases flag with
    | true => exact (rules.inScope (rules.runAll onTrue recorded.2)).mono fun _ _ none _ => none
    | false =>
      rw [Exec.runOtherwise]
      exact steps_of (maintains_pure trivial) fun _ (_ : True) _ => rfl
  | .branch cond onTrue (some onFalse), _, recorded => by
    have test := rules.eval cond recorded.1
    rw [Exec.run]
    refine Steps.after test.maintains fun found _ => Steps.after (still_asBool found).maintains
      fun flag _ => ?_
    cases flag with
    | true => exact (rules.inScope (rules.runAll onTrue recorded.2.1)).mono fun _ _ none _ => none
    | false =>
      rw [Exec.runOtherwise]
      exact (rules.inScope (rules.runAll onFalse recorded.2.2)).mono fun _ _ none _ => none
  | .loop cond body, _, recorded => by
    have test := rules.eval cond recorded.1
    have round := rules.inScope (rules.runAll body recorded.2)
    rw [Exec.run]
    exact (rules.repeatWhile Still.maintains round setup.loopBound).mono fun _ _ none _ => none
  | .ret none, _, _ => by
    rw [Exec.run]
    exact steps_ret .unit fun _ away next => absurd next away
  | .ret (some value), _, recorded => by
    rw [Exec.run]
    exact Steps.after (rules.eval value recorded).maintains fun found _ =>
      steps_ret found fun _ away next => absurd next away
  | .abort code, _, recorded => by
    rw [Exec.run]
    refine Steps.after (rules.eval code recorded).maintains fun found _ => ?_
    cases found with
    | u64 number => exact Steps.after maintains_get fun _ _ => steps_stop rfl
    | _ => exact steps_stop rfl

theorem runAll [∀ scope, Aloof (inv scope) fair]
    (rules : Upholds setup invoke ctx access inv fair denotes) :
    (stmts : List Stmt) → ∀ {scope}, Check.RecordedBlock ctx access scope stmts →
    Steps inv fair scope (runAll setup invoke stmts) fun _ _ => True
  | [], _, _ => by
    rw [Exec.runAll]
    exact steps_of (maintains_pure trivial) fun _ (_ : True) => trivial
  | stmt :: stmts, _, recorded => by
    rw [Exec.runAll]
    refine ((rules.run stmt recorded.1).and (goesOn_run stmt)).bind fun flow names
      ⟨adds, goes⟩ => ?_
    cases flow with
    | ret value => exact steps_of (maintains_pure trivial) fun _ (_ : True) => trivial
    | next => exact adds rfl ▸ rules.runAll stmts (recorded.2 (goes rfl))

end

/-- A whole body gives back the names with which it is entered. -/
theorem runBody [∀ scope, Aloof (inv scope) fair]
    (rules : Upholds setup invoke ctx access inv fair denotes) {decl : FunctionDecl}
    (recorded : Check.RecordedBlock ctx access scope decl.body) :
    Steps inv fair scope (runBody setup invoke decl) fun _ names => names = [] := by
  refine (rules.inScope (rules.runAll decl.body recorded)).bind ?_
  rintro flow _ rfl
  exact steps_of (maintains_pure trivial) fun _ (_ : True) => rfl

end Upholds

end Custody.Exec
