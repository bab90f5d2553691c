import Custody.Proofs.Execution.Upholding
/-!
# Calls and operations of an execution

An execution of an accepted program makes no call and no operation on storage that the checker has
not put on record. This is an invariant of the machine: the active calls are linked, each one being
on the record of its caller; every call that was begun fits its function; and every operation on
storage is justified by what the functions that were active are known to reach. Values do not come
into it, so it holds however the program treats references and loops.
-/

namespace Custody

open Exec

variable {rest : List Frame} {m : Machine} {program : Program} {top : Frame} {setup : Setup}
  {typeArgs : List TypeExpr} {struct : StructExpr} {decl : FunctionDecl} {args : List Value}
  {access : Access} {frame : Frame}

/-! ## Outlines -/

/-- A call without its bindings. -/
def Frame.header (frame : Frame) : Frame := { frame with bindings := [] }

/-- The active calls and the account, apart from all values. -/
structure Outline where
  /-- The active calls, newest first. -/
  calls : List Frame
  entered : List Frame
  reached : List Reach

namespace Machine

/-- What the machine says of its calls. -/
def outline (m : Machine) : Outline where
  calls := (m.current :: m.callers).map Frame.header
  entered := m.tally.entered
  reached := m.tally.reached

@[simp] theorem outline_setLocal (m : Machine) (frame index : Nat) (value : Option Value) :
    (m.setLocal frame index value).outline = m.outline := by
  unfold outline
  rw [tally_setLocal]
  have same : ∀ frame : Frame, (frame.put index value).header = frame.header := fun _ => rfl
  congr 1
  exact map_modifyFrame same m frame

end Machine

/-! ## Calls in order -/

namespace Program

/-- A call of a function that is found where executions look for it, with type arguments that
fit. -/
def Admits (program : Program) (frame : Frame) : Prop :=
  ∃ decl signature, program.function? frame.function = some decl ∧
    program.Checked frame.function decl signature ∧ frame.typeParams = signature.typeParams ∧
    program.types.Instantiates signature.typeParams frame.typeArgs

/-- The call is on the record of the caller. -/
def Calls (program : Program) (callee caller : Frame) : Prop :=
  ∃ access, program.accesses.get? caller.function = some access ∧ callee.function ∈ access.calls

/-- Calls that fit their functions and wait for each other, newest first. -/
def Linked (program : Program) : List Frame → Prop
  | [] => True
  | [first] => program.Admits first
  | callee :: caller :: rest =>
    program.Admits callee ∧ program.Calls callee caller ∧ program.Linked (caller :: rest)

/-- An operation on a slot whose type is in order and has `key`. What the operation acquires, every
active function is known to reach. -/
structure Justifies (program : Program) (reach : Reach) : Prop where
  plain : program.types.isPlain 0 reach.key.tag.ty = true
  key : (program.types.abilities [] reach.key.tag.ty).key = true
  active : ∀ frame ∈ reach.calls, program.Admits frame
  known : reach.use.acquires = true → ∀ frame ∈ reach.calls,
    Access.knows reach.key.tag.id program.reach frame.function = true

theorem Linked.admits :
    ∀ {top : Frame}, program.Linked (top :: rest) →
    ∀ frame ∈ top :: rest, program.Admits frame := by
  induction rest with
  | nil =>
    intro top admits frame member
    rw [List.mem_singleton.mp member]
    exact admits
  | cons caller rest ih =>
    rintro top ⟨admits, _, linked⟩ frame member
    rcases List.mem_cons.mp member with rfl | waiting
    · exact admits
    · exact ih linked frame waiting

/-- What the newest of linked calls reaches, all of them reach. -/
theorem Linked.knows {struct : StructId} :
    ∀ {top : Frame}, program.Linked (top :: rest) →
      Access.knows struct program.reach top.function = true →
      ∀ frame ∈ top :: rest, Access.knows struct program.reach frame.function = true := by
  induction rest with
  | nil =>
    intro top _ known frame member
    rw [List.mem_singleton.mp member]
    exact known
  | cons caller rest ih =>
    rintro top ⟨_, ⟨access, account, called⟩, linked⟩ known frame member
    rcases List.mem_cons.mp member with rfl | waiting
    · exact known
    · exact ih linked (Access.knows_closure_of_call account called known) frame waiting

end Program

/-- The active calls are the given ones, and the account of the execution is in order. -/
structure Orderly (program : Program) (calls : List Frame) (outline : Outline) : Prop where
  calls : outline.calls = calls
  /-- Active calls were begun. -/
  begun : ∀ call ∈ outline.calls, ∃ frame ∈ outline.entered, frame.function = call.function
  entered : ∀ frame ∈ outline.entered, program.Admits frame
  reached : ∀ reach ∈ outline.reached, program.Justifies reach
  /-- Operations belong to a module of which a function was called. -/
  owned : ∀ reach ∈ outline.reached,
    ∃ frame ∈ outline.entered, frame.function.module = reach.key.tag.id.module

namespace Exec

/-- Whoever stops for want of a function called one that is declared, and that is not where
executions look for it. -/
def Accountable (program : Program) (stop : Stop) : Prop :=
  ∀ id, stop = .failure (.unknownFunction id) →
    (program.types.function? id).isSome = true ∧ program.function? id = none

/-- The machine is in order where the given calls are active. -/
abbrev InOrder (program : Program) (calls : List Frame) (m : Machine) : Prop :=
  Orderly program calls m.outline

instance aloof_inOrder (program : Program) (calls : List Frame) :
    Aloof (InOrder program calls) (Accountable program) where
  setLocal m frame index value inOrder := by
    rw [InOrder, Machine.outline_setLocal]
    exact inOrder
  tx _ _ inOrder := inOrder
  host _ _ inOrder := inOrder
  packed _ _ inOrder := inOrder
  unpacked _ _ inOrder := inOrder
  fair := by
    rintro failure ordinary id same
    obtain rfl := Stop.failure.inj same
    cases ordinary

/-- Calls of what the account lists keep the machine in order. -/
abbrev KeepsOrder (setup : Setup) (invoke : Invoke) (access : Access) (calls : List Frame) : Prop :=
  ∀ {id : FunctionId} {decl : FunctionDecl} (typeArgs : List Ty) (args : List Value),
    setup.program.function? id = some decl → id ∈ access.calls →
    setup.program.Admits { function := id, typeParams := decl.typeParams, typeArgs } →
    Maintains (InOrder setup.program calls) (invoke id decl typeArgs args) (fun _ => True)
      (Accountable setup.program)

/-- Code that runs in the newest of the active calls, and what its own calls keep in order. -/
structure Accounted (setup : Setup) (invoke : Invoke) (ctx : BodyContext) (access : Access)
    (top : Frame) (rest : List Frame) : Prop where
  accepted : setup.program.Accepted
  types : setup.program.types = ctx.types
  function : top.function = ctx.signature.id
  typeParams : top.typeParams = ctx.signature.typeParams
  instantiates : ctx.types.Instantiates ctx.signature.typeParams top.typeArgs
  account : setup.program.accesses.get? top.function = some access
  linked : setup.program.Linked (top :: rest)
  invokes : KeepsOrder setup invoke access (top :: rest)

section Accounting

variable {invoke : Invoke} {ctx : BodyContext} {rest : List Frame}

/-! ## Names -/

theorem header_current (inOrder : InOrder setup.program (top :: rest) m) : m.current.header = top :=
  (List.cons.inj inOrder.calls).1

theorem typeArgs_current (inOrder : InOrder setup.program (top :: rest) m) :
    m.current.typeArgs = top.typeArgs := by
  have same : m.current.header.typeArgs = top.typeArgs := by rw [header_current inOrder]
  exact same

namespace Accounted

variable (running : Accounted setup invoke ctx access top rest)

include running

theorem module_eq (inOrder : InOrder setup.program (top :: rest) m) :
    m.current.function.module = ctx.module := by
  have same : m.current.header.function = ctx.signature.id := by
    rw [header_current inOrder, running.function]
  exact congrArg QualifiedName.module same

theorem typeParams_eq (inOrder : InOrder setup.program (top :: rest) m) :
    m.current.typeParams = ctx.signature.typeParams := by
  have same : m.current.header.typeParams = ctx.signature.typeParams := by
    rw [header_current inOrder, running.typeParams]
  exact same

theorem maintains_resolveStruct {tag : StructTag}
    (known : ctx.Names struct tag) :
    Maintains (InOrder setup.program (top :: rest)) (resolveStruct setup struct)
      (· = tag.subst top.typeArgs) (Accountable setup.program) := by
  refine maintains_get.bind fun m inOrder => ?_
  dsimp only
  rw [running.types, running.module_eq inOrder, running.typeParams_eq inOrder,
    typeArgs_current inOrder, known]
  exact maintains_pure rfl

theorem maintains_resolveType {type : TypeExpr} {ty : Ty}
    (known : ctx.Means type ty) :
    Maintains (InOrder setup.program (top :: rest)) (resolveType setup type)
      (· = ty.subst top.typeArgs) (Accountable setup.program) := by
  refine maintains_get.bind fun m inOrder => ?_
  dsimp only
  rw [running.types, running.module_eq inOrder, running.typeParams_eq inOrder,
    typeArgs_current inOrder, Universe.resolve_of_resolveAt known]
  exact maintains_pure rfl

theorem maintains_resolveTypes {types : List Ty} (known : List.Forall₂ ctx.Means typeArgs types) :
    Maintains (InOrder setup.program (top :: rest)) (typeArgs.mapM (resolveType setup))
      (· = types.map (·.subst top.typeArgs)) (Accountable setup.program) := by
  induction known with
  | nil => exact maintains_pure rfl
  | cons here _ ih =>
    rw [List.mapM_cons]
    refine (running.maintains_resolveType here).bind ?_
    rintro _ rfl
    refine ih.bind ?_
    rintro _ rfl
    exact maintains_pure rfl

/-! ## Calls and operations -/

theorem maintains_callFunction {module : Option String} {function : String}
    (site : Check.CallSite ctx access module function typeArgs args.length) :
    Maintains (InOrder setup.program (top :: rest))
      (callFunction setup invoke module function typeArgs args) (fun _ => True)
      (Accountable setup.program) := by
  obtain ⟨callee, types, declared, count, known, faultless, _⟩ := site.declared
  refine (running.maintains_resolveTypes known).bind ?_
  rintro _ rfl
  refine maintains_get.bind fun m inOrder => ?_
  rw [running.module_eq inOrder]
  dsimp only
  rw [← running.types] at declared
  split
  · rename_i decl found
    obtain ⟨signature, checked⟩ := running.accepted.function found
    obtain rfl : callee = signature := Option.mem_unique declared checked.registered
    refine running.invokes _ args found site.recorded ⟨decl, callee, found, checked, ?_, ?_⟩
    · exact checked.typeParams.symm
    · rw [running.types]
      exact running.instantiates.call
        (count.trans known.length_eq) (Check.arePlain_of_resolved known)
        faultless
  · rename_i missing
    refine maintains_fail fun id same => ?_
    obtain rfl := Failure.unknownFunction.inj (Stop.failure.inj same)
    exact ⟨Option.isSome_of_eq_some declared, missing⟩

/-- An operation is put on the account while its calls are active. -/
theorem maintains_countReached {use : StructUse} (site : Check.StorageSite ctx access use struct)
    {key : SlotKey}
    (denotes : ∀ tag, ctx.Names struct tag → key.tag = tag.subst top.typeArgs) :
    Maintains (InOrder setup.program (top :: rest)) (countReached use key) (fun _ => True)
      (Accountable setup.program) := by
  obtain ⟨tag, known, own, hasKey, recorded⟩ := site
  have same := denotes tag known
  refine maintains_modify fun m inOrder => ⟨inOrder.calls, inOrder.begun, inOrder.entered, ?_,
    List.forall_mem_cons.mpr ⟨?_, inOrder.owned⟩⟩
  rotate_left
  · obtain ⟨frame, entered, begun⟩ := inOrder.begun top
      (by rw [inOrder.calls]; exact List.mem_cons_self)
    refine ⟨frame, entered, ?_⟩
    rw [begun, running.function, same]
    exact own.symm
  have listed : ∀ frame ∈ m.current :: m.callers, frame.header ∈ top :: rest := by
    intro frame member
    rw [← inOrder.calls]
    exact List.mem_map_of_mem member
  refine List.forall_mem_cons.mpr
    ⟨⟨?_, ?_, fun frame member => ?_, fun acquires frame member => ?_⟩, inOrder.reached⟩
  · rw [same, StructTag.ty_subst, running.types]
    exact Universe.isPlain_subst (Nat.le_of_eq running.instantiates.length.symm)
      running.instantiates.plain _ (Universe.isPlain_resolveStruct known)
  · rw [same, StructTag.ty_subst, running.types]
    have carries : (ctx.abilities tag.ty).has .key = true := hasKey
    exact running.instantiates.has_abilities carries
  · exact running.linked.admits frame.header (listed frame member)
  · have reaches : Access.knows key.tag.id setup.program.reach top.function = true := by
      rw [same]
      exact Access.knows_closure_of_direct running.account (recorded acquires)
    exact running.linked.knows reaches frame.header (listed frame member)

/-- The account is kept by all code on record. -/
theorem upholds : Upholds setup invoke ctx access (fun _ => InOrder setup.program (top :: rest))
    (Accountable setup.program) (fun struct found => ∀ tag, ctx.Names struct tag →
        found = tag.subst top.typeArgs) where
  outOfFuel := by
    intro id same
    cases same
  named _ := by
    refine ⟨maintains_get.bind fun m _ => ?_⟩
    cases Binding.lastIndex? _ m.current.bindings with
    | some index => exact maintains_pure trivial
    | none =>
      refine maintains_fail fun id same => ?_
      cases same
  bound _ _ inOrder := inOrder
  left _ inOrder := inOrder
  calls site := running.maintains_callFunction site
  resolves := by
    rintro _ use struct ⟨tag, known, _⟩
    refine (running.maintains_resolveStruct known).mono ?_
    rintro _ rfl other also
    rw [Except.ok.inj (known.symm.trans also)]
  reaches site denotes := running.maintains_countReached site denotes

end Accounted

end Accounting

/-! ## Calls -/

section Calling

/-- A call that fits its function is put on the account and begins. -/
theorem orderly_enter {calls : List Frame} (admits : program.Admits frame)
    (inOrder : InOrder program calls m) :
    InOrder program (frame.header :: calls)
      (Machine.enter { m with tally.entered := frame :: m.tally.entered } frame) where
  calls := congrArg (frame.header :: ·) inOrder.calls
  begun := by
    refine List.forall_mem_cons.mpr ⟨⟨frame, List.mem_cons_self, rfl⟩, fun call waiting => ?_⟩
    obtain ⟨other, listed, same⟩ := inOrder.begun call waiting
    exact ⟨other, List.mem_cons_of_mem _ listed, same⟩
  entered := List.forall_mem_cons.mpr ⟨admits, inOrder.entered⟩
  reached := inOrder.reached
  owned := by
    intro reach happened
    obtain ⟨other, listed, same⟩ := inOrder.owned reach happened
    exact ⟨other, List.mem_cons_of_mem _ listed, same⟩

theorem orderly_leave (inOrder : InOrder program (frame :: top :: rest) m) :
    InOrder program (top :: rest) m.leave := by
  have calls : m.callers.map Frame.header = top :: rest := (List.cons.inj inOrder.calls).2
  obtain ⟨caller, callers, waiting, _⟩ := List.map_eq_cons_iff.mp calls
  rw [waiting] at calls
  rw [Machine.leave_eq waiting]
  refine ⟨calls, fun call listed => inOrder.begun call ?_, inOrder.entered, inOrder.reached,
    inOrder.owned⟩
  rw [inOrder.calls]
  exact List.mem_cons_of_mem _ (calls ▸ listed)

/-- The body of a function in a frame that fits it. -/
theorem orderly_body (accepted : setup.program.Accepted) (invoke : Invoke)
    (admits : setup.program.Admits top) (found : setup.program.function? top.function = some decl)
    (linked : setup.program.Linked (top :: rest))
    (invokes : ∀ access, setup.program.accesses.get? top.function = some access →
      KeepsOrder setup invoke access (top :: rest)) :
    Steps (fun _ => InOrder setup.program (top :: rest)) (Accountable setup.program)
      (decl.params.map (·.name)) (runBody setup invoke decl) fun _ names => names = [] := by
  obtain ⟨signature, access, checked, account, recorded⟩ := accepted.recorded found
  obtain ⟨_, signature', _, checked', typeParams, instantiates⟩ := admits
  obtain rfl : signature = signature' :=
    Option.mem_unique checked.registered checked'.registered
  have running : Accounted setup invoke ⟨setup.program.types, signature⟩ access top rest := {
    accepted := accepted
    types := rfl
    function := (accepted.types.function_id checked.registered).symm
    typeParams := typeParams
    instantiates := instantiates
    account := account
    linked := linked
    invokes := invokes access account }
  exact running.upholds.runBody recorded

/-- Calls to any depth keep the machine in order, by induction on how many more may be active. -/
theorem orderly_call (accepted : setup.program.Accepted) (depth : Nat)
    (linked : setup.program.Linked (top :: rest))
    (account : setup.program.accesses.get? top.function = some access) :
    KeepsOrder setup (call setup depth) access (top :: rest) := by
  intro id decl typeArgs args found called admits
  induction depth generalizing top rest access id decl typeArgs args with
  | zero =>
    refine maintains_fail fun other same => ?_
    cases same
  | succ depth ih =>
    have linked' : setup.program.Linked
        ((callFrame id decl typeArgs args).header :: top :: rest) :=
      ⟨admits, ⟨access, account, called⟩, linked⟩
    have body := orderly_body accepted (call setup depth) admits found linked'
      fun access account _ _ typeArgs args => ih linked' account typeArgs args
    have admitted : setup.program.Admits (callFrame id decl typeArgs args) := admits
    exact body.called (callFrame id decl typeArgs args)
      (fun _ inOrder => orderly_enter admitted inOrder) (fun _ _ inOrder => orderly_leave inOrder)
      (fun _ _ inOrder => inOrder) id args

end Calling

end Exec

/-! ## Executions -/

section Executing

variable {store : Store} {function : FunctionId} {typeArgs : List Ty}

/-- A run that a request starts keeps the machine in order, however it ends. -/
theorem orderly_launch (accepted : setup.program.Accepted)
    {result : EStateM.Result Stop Machine Value}
    (launched : setup.launch store function typeArgs args = .ok result) :
    ∃ top, (∀ value m, result = .ok value m → InOrder setup.program [top] m) ∧
      ∀ stop m, result = .error stop m →
        InOrder setup.program [top] m ∧ Accountable setup.program stop := by
  obtain ⟨⟨decl, signature, values, host, depth, found, registered, passed⟩, rfl⟩ :=
    run_of_launch launched
  obtain ⟨instantiates, _⟩ := acceptCall_eq_ok passed
  have checked := accepted.checked found registered
  have admits : setup.program.Admits (callFrame function decl typeArgs values).header :=
    ⟨decl, signature, found, checked, checked.typeParams.symm, instantiates⟩
  have start : InOrder setup.program [(callFrame function decl typeArgs values).header]
      (.start (callFrame function decl typeArgs values) host store) :=
    ⟨rfl, List.forall_mem_singleton.mpr ⟨_, List.mem_cons_self, rfl⟩,
      List.forall_mem_singleton.mpr admits, fun _ none => (by cases none),
      fun _ none => by cases none⟩
  have linked : setup.program.Linked [(callFrame function decl typeArgs values).header] := admits
  have body := orderly_body accepted _ admits found linked
    fun access account => orderly_call accepted depth linked account
  have runs := body.visiting (fun _ _ inOrder => inOrder) function values
  have ended := runs.ended _ start
  refine ⟨(callFrame function decl typeArgs values).header, fun value m ran => ?_,
    fun stop m ran => ?_⟩
  · exact (ended.of_ok ran).1.elim fun _ inOrder => inOrder
  · exact (ended.of_error ran).imp_left fun ⟨_, inOrder⟩ => inOrder

/-- The account of an execution of an accepted program is in order, whichever calls are left
active. -/
theorem tally_orderly (setup : Setup) (store : Store) (function : FunctionId) (typeArgs : List Ty)
    (args : List Value) (accepted : setup.program.Accepted) :
    ∃ calls, Orderly setup.program calls {
      calls
      entered := (setup.tally store function typeArgs args).entered
      reached := (setup.tally store function typeArgs args).reached } := by
  unfold Setup.tally
  cases launched : setup.launch store function typeArgs args with
  | error stop => exact ⟨[], rfl, fun _ none => (by cases none), fun _ none => (by cases none),
      fun _ none => (by cases none), fun _ none => (by cases none)⟩
  | ok result =>
    obtain ⟨top, ended⟩ := orderly_launch accepted launched
    cases result with
    | ok value m =>
      have inOrder := ended.1 value m rfl
      exact ⟨[top], rfl, inOrder.calls ▸ inOrder.begun, inOrder.entered, inOrder.reached,
        inOrder.owned⟩
    | error stop m =>
      have inOrder := (ended.2 stop m rfl).1
      exact ⟨[top], rfl, inOrder.calls ▸ inOrder.begun, inOrder.entered, inOrder.reached,
        inOrder.owned⟩

end Executing

end Custody
