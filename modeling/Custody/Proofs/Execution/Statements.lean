import Custody.Proofs.Execution.Bindings
/-!
# Accepted statements

A statement that the checker accepts, run on a machine that agrees with the checker, either returns
what the call owes, or goes on with a machine that agrees with the state the checker left; where the
checker says that every path through the statement ends, it does not go on. Paths that meet agree
with what both say, and a loop that comes round agrees with what was known at its head, which is
what makes a body steady. A guarded statement writes to nothing outside but what the call was given
to write to, and the reference that it may return leads to a part of what an argument leads to.
-/

namespace Custody

open Exec Check

variable {binders : List (String × Binder)} {definition : StructDef} {values : List Value}
  {struct : String} {ended : Bool} {flow : Flow}

attribute [local simp] run runAll runOtherwise Trial.passes Trial.passesAll Stmt.names
  Stmt.blockNames

/-! ## What is claimed of a statement -/

/-- Where a stretch of statements leads: on to a machine that agrees with the checker, unless the
checker says that the path ends, or out of the call. -/
def Ran (a : Activation) (m : Machine) (sum : Int) (ended : Bool) (live : List String)
    (s' : BodyState) : Flow → Machine → Prop
  | .next, m' => ended = false ∧ Agrees a live s' sum m' ∧ a.Leaves m m'
  | .ret value, m' => Returned a m sum value m'

/-- A call that may be run: types and calls are as they should be, and values left in loops are
accounted for or do not count. -/
structure Running (setup : Setup) (invoke : Invoke) (a : Activation) (linear : Bool) : Prop
    extends Evaluating setup invoke a where
  frugal : linear = true ∨ ∀ id, a.weight id = 0
  returns : a.ctx.Bindable a.ctx.signature.ret

/-- What the body of a call is put to: it is steady and, if the terms are held, guarded. -/
structure Tried (a : Activation) (linear : Bool) (test : Trial → Bool) : Prop where
  steady : test (steadiness linear a.ctx) = true
  guarded : a.held → test (guardedness a.guard a.ctx) = true

/-- A statement is run where it was accepted. -/
structure Poised (a : Activation) (linear : Bool) (statement : Stmt) (s : BodyState) (sum : Int)
    (m : Machine) : Prop where
  formed : Formed a.ctx s
  clean : (stmt a.ctx statement s).2.problems = []
  tried : Tried a linear (·.passes a.ctx statement s)
  agrees : Agrees a (statement.names ++ s.liveAfter) s sum m

/-- Wherever the statement is accepted, it is run without a breach. -/
def SoundStmt (setup : Setup) (invoke : Invoke) (a : Activation) (linear : Bool)
    (statement : Stmt) : Prop :=
  ∀ s sum m, Poised a linear statement s sum m → Ensures a.toTerms (run setup invoke statement) m
    (Ran a m sum (stmt a.ctx statement s).1 s.liveAfter (stmt a.ctx statement s).2)

section Simple

variable {setup : Setup} {invoke : Invoke} {a : Activation} {linear : Bool}
  {read live : List String} {s s' : BodyState} {sum sum' : Int} {m m' m'' : Machine}

theorem Tried.imp {test part : Trial → Bool} (tried : Tried a linear test)
    (implies : ∀ trial, test trial = true → part trial = true) : Tried a linear part :=
  ⟨implies _ tried.steady, fun held => implies _ (tried.guarded held)⟩

theorem Ran.of_agrees {names : List String} (agrees : Agrees a (names ++ live) s' sum m')
    (leaves : a.Leaves m m') : Ran a m sum false live s' .next m' :=
  ⟨rfl, agrees.mono fun _ inside => List.mem_append_right _ inside, leaves⟩

theorem Ran.fewer {read live : List String} (ran : Ran a m sum ended live s' flow m')
    (fewer : ∀ name ∈ read, name ∈ live) : Ran a m sum ended read s' flow m' := by
  cases flow with
  | next => exact ⟨ran.1, ran.2.1.mono fewer, ran.2.2⟩
  | ret value => exact ran

/-- What ran from a later machine ran from an earlier one. -/
theorem Ran.after (leaves : a.Leaves m m') (ran : Ran a m' sum ended live s' flow m'') :
    Ran a m sum ended live s' flow m'' := by
  cases flow with
  | next => exact ⟨ran.1, ran.2.1, leaves.trans ran.2.2⟩
  | ret value =>
    have returned : Returned a m' sum value m'' := ran
    exact ({ returned with leaves := leaves.trans returned.leaves } : Returned a m sum value m'')

variable (running : Running setup invoke a linear)

include running

/-- An accepted expression of a statement. -/
theorem Running.eval {e : Expr} {operand : Operand} (accepted : Accepted a.ctx s e operand s')
    (formed : Formed a.ctx s) (tried : Tried a linear (·.evaluates e s)) (names : e.names ⊆ read)
    (agrees : Agrees a read s sum m) :
    Ensures a.toTerms (eval setup invoke e) m fun value m' =>
      After a read s m s' (sum - value.weigh a.weight) m' ∧
        Holds a s' operand.loans m' operand.ty value :=
  (sound_expr running.toEvaluating e).ensures accepted formed tried.steady tried.guarded
    names agrees

/-- Statements that evaluate one expression and go on with its value. -/
theorem sound_single {statement : Stmt} {e : Expr} (next : Option Operand → Check Unit)
    [∀ operand, Honest (next operand)] (ends : Bool) {goesOn : Value → Exec Flow}
    (form : stmt a.ctx statement = (do
      next (← expr a.ctx e)
      return ends))
    (runs : run setup invoke statement = Exec.eval setup invoke e >>= goesOn)
    (tests : ∀ {trial : Trial} {s}, trial.passes a.ctx statement s = trial.evaluates e s)
    (names : e.names ⊆ statement.names)
    (after : ∀ {s s' sum m m' operand value}, Formed a.ctx s' → Accepted a.ctx s e operand s' →
      (next (some operand) s').2.problems = [] →
      After a (statement.names ++ s.liveAfter) s m s' (sum - value.weigh a.weight) m' →
      Holds a s' operand.loans m' operand.ty value →
      Ensures a.toTerms (goesOn value) m'
      (Ran a m sum ends s.liveAfter (next (some operand) s').2)) :
    SoundStmt setup invoke a linear statement := by
  intro s sum m poised
  obtain ⟨operand, s', accepted, rest, same⟩ :=
    single_accepted running.valid.declared next ends form poised.formed poised.clean
  rw [runs, same]
  refine (running.eval accepted poised.formed (poised.tried.imp fun _ passes => tests ▸ passes)
    (List.Subset.trans names (List.subset_append_left _ _)) poised.agrees).bind ?_
  rintro value m' ⟨evaluated, holds⟩
  exact after (accepted.walked.formed poised.formed) accepted rest evaluated holds

/-! ## Binding -/

theorem sound_bind (name : String) (type : Option TypeExpr) (value : Expr) :
    SoundStmt setup invoke a linear (.bind name type value) := by
  refine sound_single running (bindStmt a.ctx name type) false rfl rfl rfl
    (List.Subset.refl _) fun formed' accepted rest after holds => ?_
  obtain ⟨ty, flow, _, step⟩ := bindStmt_accepted accepted.bindable rest
  rw [step] at rest ⊢
  refine (ensures_bind name _).bind ?_
  rintro _ _ rfl
  have bound := agrees_bind running.valid formed' after.agrees rest (holds.flows flow)
  rw [Int.sub_add_cancel] at bound
  exact ensures_pure
    (.of_agrees bound (after.leaves.trans (leaves_rebound after.agrees.frame.height)))

theorem sound_assign (name : String) (value : Expr) :
    SoundStmt setup invoke a linear (.assign name value) := by
  refine sound_single running (assignStmt a.ctx name) false rfl rfl rfl
    (fun _ inside => by simp [inside]) fun formed' _ rest after holds => ?_
  obtain ⟨id, slot, found, present, flow, unowed, _, step⟩ :=
    assignStmt_accepted formed'.unpoisoned rest
  rw [step]
  refine Ensures.bind ((ensures_bindingIndex formed' after.agrees.frame found).bind ?_)
    fun _ _ here => ensures_pure here
  rintro _ _ ⟨rfl, rfl⟩
  refine ensures_modify (by simp) ?_
  rw [Machine.top, after.agrees.frame.height]
  have assigned := agrees_assign running.valid formed' after.agrees present unowed
    (holds.flows flow)
  rw [Int.sub_add_cancel] at assigned
  exact .of_agrees assigned (after.leaves.trans (leaves_setLocal_own id _))

theorem sound_write (target value : Expr) :
    SoundStmt setup invoke a linear (.write target value) := by
  intro s sum m poised
  obtain ⟨valueOperand, s', targetOperand, s'', inner, acceptedValue, acceptedTarget, form,
    flow, drops, same⟩ := write_accepted running.valid.declared poised.formed poised.clean
  have formed' := acceptedValue.walked.formed poised.formed
  have both (trial : Trial) (passes : trial.passes a.ctx (.write target value) s = true) :
      trial.evaluates value s = true ∧ trial.evaluates target s' = true := by
    simpa [acceptedValue.result] using passes
  have plain := acceptedTarget.plain form
  have light : ∀ held : Value, held.conformsTo a.ctx.types (inner.subst a.types) = true →
      held.weigh a.weight = 0 := fun held conforms =>
    running.valid.weigh_eq_zero (Universe.isBindable_of_isPlain plain) .drop rfl drops conforms
  rw [run, same]
  refine (running.eval acceptedValue poised.formed (poised.tried.imp fun trial passes =>
    (both trial passes).1) (fun _ inside => by simp [inside]) poised.agrees).bind ?_
  rintro held m' ⟨after, holds⟩
  refine (running.eval acceptedTarget formed' (poised.tried.imp fun trial passes =>
    (both trial passes).2) (fun _ inside => by simp [inside]) after.agrees).bind ?_
  rintro reached m'' ⟨after', holds'⟩
  have fits := (holds.flows flow).conforms
  rw [form] at holds'
  obtain ⟨reference, rfl, refers⟩ := holds'.eq_ref
  have written := ensures_writePlace running.valid after'.agrees refers fits light
    (Universe.isRef_of_isPlain (running.valid.isPlain_subst plain))
  simp only [writeThrough, refers.kept rfl, if_true]
  refine written.bind fun _ n after'' => ensures_pure ?_
  have whole := ((after.trans after').trans after'').of_sum
    (show _ = sum by simp [light held fits, Value.weigh])
  exact .of_agrees whole.agrees whole.leaves

theorem sound_evalStmt (value : Expr) : SoundStmt setup invoke a linear (.eval value) := by
  refine sound_single running (discardStmt a.ctx) false rfl rfl rfl
    (List.Subset.refl _) fun {_ _ sum _ _ _ _} _ accepted rest after holds => ?_
  obtain ⟨drops, step⟩ := discardStmt_accepted rest
  rw [step]
  have light := running.valid.weigh_eq_zero accepted.bindable .drop rfl drops holds.conforms
  have whole := after.of_sum (show _ = sum by simp [light])
  exact ensures_pure (.of_agrees whole.agrees whole.leaves)

/-! ## Leaving the call -/

theorem sound_abort (code : Expr) : SoundStmt setup invoke a linear (.abort code) := by
  refine sound_single running (expectOperand a.ctx .abortCode · .u64) true rfl rfl rfl
    (List.Subset.refl _) fun _ _ rest _ holds => ?_
  obtain ⟨flow, _⟩ := expectOperand_accepted rest
  obtain ⟨number, rfl⟩ := Value.eq_u64_of_conformsTo (holds.flows flow).conforms
  exact ensures_get (ensures_fail rfl)

theorem sound_assert (cond : Expr) (code : BitVec 64) :
    SoundStmt setup invoke a linear (.assert cond code) := by
  refine sound_single running (expectOperand a.ctx .assertCondition · .bool) false rfl rfl rfl
    (List.Subset.refl _) fun {_ _ sum _ _ _ _} _ _ rest after holds => ?_
  obtain ⟨flow, step⟩ := expectOperand_accepted rest
  rw [step]
  refine (ensures_asBool holds flow).bind ?_
  rintro flag _ ⟨rfl, rfl⟩
  cases flag with
  | true =>
    have whole := after.of_sum (show _ = sum by simp [weigh_bool])
    exact ensures_pure (.of_agrees whole.agrees whole.leaves)
  | false => exact ensures_get (ensures_fail rfl)

/-- A value that is returned leads to nothing of the frame that goes away: whatever it borrows is
what reference parameters point at. -/
theorem foreign_returned {ids : LoanSet} {value : Value}
    (holds : Holds a s ids m a.ctx.signature.ret value)
    (outlives : a.ctx.signature.ret.isRef = true → ∀ id ∈ ids, ∀ loan, s.loans.get? id = some loan →
      ∃ param, loan.place.root = .param param) : Foreign a a.ctx.signature.ret value := by
  refine holds.foreign ?_
  rintro reference index rfl rooted
  have isReference : a.ctx.signature.ret.isRef = true := by
    have reference := Value.isRef_of_conformsTo_ref holds.conforms
    rwa [Universe.isRef_subst running.valid.enough running.valid.instantiates.plain running.returns]
      at reference
  cases form : a.ctx.signature.ret with
  | ref mutable inner =>
    obtain ⟨_, borrowed⟩ := (holds.refers form rfl).anchored index rooted
    obtain ⟨id, member, loan, granted, root⟩ := Loans.mem_borrowed.mp borrowed
    obtain ⟨param, other⟩ := outlives isReference id member loan granted
    cases root.symm.trans other
  | _ => simp [form, Ty.isRef] at isReference

omit running

/-- What is returned comes from a parameter, if it is a reference. -/
theorem Holds.repays {ids : LoanSet} {value : Value}
    (holds : Holds a s ids m a.ctx.signature.ret value)
    (outlives : a.ctx.signature.ret.isRef = true → ∀ id ∈ ids, ∀ loan, s.loans.get? id = some loan →
      ∃ param, loan.place.root = .param param) (held : a.held) : a.Repays value := by
  intro mutable inner reference form same
  obtain ⟨origin, known, exclusive, leads⟩ := (holds.refers form same).traced held
  obtain ⟨id, member, loan, granted, rfl⟩ := Loans.mem_origins.mp known
  obtain ⟨param, rooted⟩ := outlives (by rw [form]; rfl) id member loan granted
  obtain ⟨place, mode, vouched⟩ := loan
  simp only [Loan.origin] at leads exclusive
  cases leads with
  | param given within writes =>
    exact ⟨_, _, given, within, fun wanted => writes (exclusive wanted)⟩
  | _ => cases rooted

include running

theorem sound_ret (value : Expr) : SoundStmt setup invoke a linear (.ret (some value)) := by
  refine sound_single running (returnStmt a.ctx) true rfl rfl rfl
    (List.Subset.refl _) fun {_ _ sum m m' _ held} formed' _ rest after holds => ?_
  obtain ⟨flow, outlives, unowed, _⟩ := returnStmt_accepted formed'.unpoisoned rest
  have worth := worth_of_unowed running.valid formed' after.agrees fun id slot found =>
    unowed id (formed'.mem_visible found) slot found
  refine ensures_pure (show Returned a m sum held m' from
    ⟨?_, after.agrees.surroundings, after.leaves, ?_, (holds.flows flow).repays outlives⟩)
  · exact foreign_returned running (holds.flows flow) outlives
  · rw [worth, Int.sub_add_cancel]

omit running

theorem foreign_unit {ty : Ty} (unit : ty = .unit) : Foreign a ty .unit := by
  subst unit
  exact ⟨rfl, fun form => by cases form⟩

theorem repays_unit : a.Repays .unit := by
  intro mutable inner reference _ same
  cases same

theorem sound_ret_none (running : Running setup invoke a linear) :
    SoundStmt setup invoke a linear (.ret none) := by
  intro s sum m poised
  have clean := poised.clean
  rw [stmt] at clean
  obtain ⟨flow, _, unowed, _⟩ := returnStmt_accepted poised.formed.unpoisoned
    (clean_first clean)
  have worth := worth_of_unowed running.valid poised.formed poised.agrees fun id slot found =>
    unowed id (poised.formed.mem_visible found) slot found
  rw [run]
  refine ensures_pure (show Returned a m sum .unit m from
    ⟨?_, poised.agrees.surroundings, .refl _ _, ?_, fun _ => repays_unit⟩)
  · exact foreign_unit (eq_of_flowsInto flow (isRef_of_flowsInto flow).symm).symm
  · simp [worth, Value.weigh]

/-! ## Unpacking -/

/-- The fields of a struct taken apart are bound one after another; those left out weigh nothing. -/
theorem ensures_bindFields (valid : a.Valid) {fields : List (String × Ty)}
    (plain : ∀ entry ∈ fields, a.ctx.Plain entry.2)
    (conforms : ∀ name ty, fields.lookup name = some ty →
      (definition.valueOf values name).conformsTo a.ctx.types (ty.subst a.types) = true)
    (known : ∀ name ∈ binders.map (·.1), name ∈ fields.map (·.1)) (formed : Formed a.ctx s)
    (clean : (bindFields a.ctx struct fields binders s).2.problems = [])
    (agrees : Agrees a read s sum m) :
    Ensures a.toTerms (bindAll (definition.bound values binders)) m fun _ m' =>
      Agrees a read (bindFields a.ctx struct fields binders s).2
        (sum + (binders.map fun entry => (definition.valueOf values entry.1).weigh a.weight).sum)
        m' ∧
      a.Leaves m m' := by
  induction binders generalizing s sum m with
  | nil =>
    refine ensures_pure ⟨?_, .refl _ _⟩
    rw [List.map_nil, List.sum_nil, Int.ofNat_zero, Int.add_zero]
    exact agrees
  | cons entry rest ih =>
    obtain ⟨field, binder⟩ := entry
    obtain ⟨here, others⟩ := List.forall_mem_cons.mp known
    obtain ⟨ty, found⟩ := lookup_fields_of_mem here
    have fieldPlain := plain _ (StructDef.mem_of_lookup found)
    have fits := conforms field ty found
    have step := bindFields_accepted found clean
    cases binder with
    | bind name =>
      obtain ⟨bound, same⟩ := step
      rw [same] at clean ⊢
      have holds : Holds a s ∅ m ty (definition.valueOf values field) :=
        .of_value (Universe.isRef_of_isPlain fieldPlain) fits
      have agrees' := agrees_bind valid formed agrees bound holds
      have continues := proceeds_bind formed bound
        (Universe.isBindable_of_isPlain fieldPlain) fun (_ : True) => nothing_live
      refine (ensures_bind name (definition.valueOf values field)).bind ?_
      rintro _ _ rfl
      refine (ih others continues.formed clean agrees').mono ?_
      rintro _ m' ⟨agrees'', leaves⟩
      refine ⟨?_, .trans (leaves_rebound agrees.frame.height) leaves⟩
      rw [List.map_cons, List.sum_cons, Nat.cast_add, ← Int.add_assoc]
      exact agrees''
    | ignore =>
      obtain ⟨drops, same⟩ := step
      rw [same] at clean ⊢
      have light := valid.weigh_eq_zero (Universe.isBindable_of_isPlain fieldPlain) .drop
        rfl drops fits
      refine (ih others formed clean agrees).mono ?_
      rintro _ m' ⟨agrees', leaves⟩
      exact ⟨by simpa [light] using agrees', leaves⟩

/-- A struct is taken apart: its weight comes back to the books with the weights of its fields. -/
theorem ensures_unpack (declarations : setup.program.types = a.ctx.types) (valid : a.Valid)
    (formed : Formed a.ctx s) (agrees : Agrees a read s sum m) {tag : StructTag}
    (plain : a.ctx.Plain tag.ty)
    (found : a.ctx.types.struct? tag.id = some definition)
    (conform : Value.ConformAll a.ctx.types values
      ((definition.fieldsAt (Ty.substAll a.types tag.args)).map (·.2)))
    (covers : (binders.map (·.1)).Perm definition.names)
    (clean : (bindFields a.ctx struct (definition.fieldsAt tag.args) binders s).2.problems = []) :
    Ensures a.toTerms (Exec.unpack setup binders (.struct (tag.subst a.types) values)) m fun _ m' =>
      Agrees a read (bindFields a.ctx struct (definition.fieldsAt tag.args) binders s).2
        (sum + (Value.struct (tag.subst a.types) values).weigh a.weight) m' ∧
      a.Leaves m m' := by
  obtain ⟨⟨definition', found', arity⟩, _⟩ := Universe.isPlain_struct_iff.mp plain
  obtain rfl : definition = definition' := Option.mem_unique found found'
  have distinct : definition.names.Nodup := valid.declared.fields_nodup found
  have length : values.length = definition.names.length := by
    simpa [StructDef.fieldsAt, StructDef.names] using conform.length_eq
  have fits : ∀ name ty, (definition.fieldsAt tag.args).lookup name = some ty →
      (definition.valueOf values name).conformsTo a.ctx.types (ty.subst a.types) = true := by
    intro name ty listed
    refine StructDef.conformsTo_valueOf conform ?_
    rw [Universe.fieldsAt_substAll (valid.declared.fields_plain found) (Nat.le_of_eq arity),
      lookup_map_snd, listed]
    rfl
  have found'' : a.ctx.types.struct? (tag.subst a.types).id = some definition := found
  refine (ensures_structDef declarations found'').bind ?_
  rintro _ _ ⟨rfl, rfl⟩
  refine ensures_bind_sound (StructDef.unpack_eq_ok distinct length covers) ?_
  refine (ensures_countUnpacked valid agrees tag.id).bind ?_
  intro _ m' counted
  refine (ensures_bindFields valid (fun entry member => isPlain_fieldsAt valid.declared plain found
    member) fits (fun name member => ?_) formed clean counted.agrees).mono ?_
  · rw [StructDef.names_fieldsAt]
    exact covers.mem_iff.mp member
  · rintro _ m'' ⟨agrees', leaves⟩
    refine ⟨?_, counted.leaves.trans leaves⟩
    rw [StructDef.sum_valueOf distinct length covers] at agrees'
    rw [Value.weigh, Nat.cast_add, ← Int.add_assoc]
    exact agrees'

theorem sound_unpack (running : Running setup invoke a linear) (struct : StructExpr)
    (binders : List (String × Binder)) (value : Expr) :
    SoundStmt setup invoke a linear (.unpack struct binders value) := by
  refine sound_single running (unpackStmt a.ctx struct binders) false rfl rfl rfl
    (List.Subset.refl _) fun {_ _ sum _ _ _ _} formed' _ rest after holds => ?_
  obtain ⟨tag, fields, resolved, flow, instantiated, coverage, step⟩ := unpackStmt_accepted rest
  rw [step] at rest ⊢
  obtain ⟨definition, found, rfl⟩ := Option.map_eq_some_iff.mp instantiated
  have covers := StructDef.perm_of_faultless (running.valid.declared.fields_nodup found) coverage
  obtain ⟨values, declared, rfl, instantiated', conform⟩ :=
    Value.conformsTo_struct_iff.mp (holds.flows flow).conforms
  obtain rfl : definition.fieldsAt (Ty.substAll a.types tag.args) = declared := by
    simpa [Universe.instantiateFields?, found] using instantiated'
  refine (ensures_unpack running.declarations running.valid formed' after.agrees
    (Universe.isPlain_resolveStruct resolved) found conform covers rest).bind ?_
  rintro _ m'' ⟨agrees', leaves⟩
  have balanced : sum - (Value.struct ⟨tag.id, Ty.substAll a.types tag.args⟩ values).weigh
    a.weight +
      (Value.struct (tag.subst a.types) values).weigh a.weight = sum := Int.sub_add_cancel _ _
  rw [balanced] at agrees'
  exact ensures_pure (.of_agrees agrees' (after.leaves.trans leaves))

end Simple

end Custody
