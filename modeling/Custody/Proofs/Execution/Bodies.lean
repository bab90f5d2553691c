import Custody.Proofs.Execution.Blocks
/-!
# Bodies and calls

A call begins with its arguments bound to its parameters, which is what the checker assumes where it
begins to walk the body; it takes a reference parameter to come from itself. So the body keeps the
contract of the call, provided that the calls it makes keep theirs; with a bound on how deep calls
may nest, every call does. If arguments are kept apart besides, a call that returns leaves what its
shared references lead to as it was.
-/

namespace Custody

open Exec Machine
open Check (Formed Leaves)

variable {good : Value → Machine → Prop} {value : Value} {frame : Frame} {a : Activation}
  {m : Machine} {decl : FunctionDecl} {setup : Setup} {linear : Bool} {m' : Machine} {sum : Int}

/-! ## The start of a call -/

section Starting

variable {read : List String} {s : BodyState}

/-- A parameter is bound to its argument. -/
theorem agrees_declareParam (valid : a.Valid) (formed : Formed a.ctx s)
    (agrees : Agrees a read s sum m) {name : String} {ty : Ty}
    (bindable : a.ctx.Bindable ty)
    (foreign : Foreign a ty value) (given : a.args[s.locals.size]? = some value)
    (declared : a.ctx.signature.params[s.locals.size]? = some (name, ty)) :
    Formed a.ctx (Check.declareParam a.ctx name ty s).2 ∧
      Agrees a read (Check.declareParam a.ctx name ty s).2 (sum + value.weigh a.weight)
        (m.bound name value) ∧
      (Check.declareParam a.ctx name ty s).2.locals.size = s.locals.size + 1 := by
  obtain ⟨slot, shape, live, same⟩ := Check.declareParam_eq a.ctx name ty s
  obtain rfl : slot.name = name := congrArg (·.1) shape
  obtain rfl : slot.ty = ty := congrArg (·.2.1) shape
  have abilities : slot.abilities = a.ctx.abilities slot.ty := congrArg (·.2.2) shape
  rcases same with ⟨isValue, same⟩ | ⟨loan, listed, about, same⟩
  · rw [same]
    refine ⟨(Check.continues_declare formed bindable abilities).formed,
      agrees_declare valid agrees slot live (foreign.holds valid fun _ _ _ _ form _ => ?_), by simp⟩
    rw [form] at isValue
    cases isValue
  · rw [same]
    have granted := (Check.Walked.grant formed loan s.access).formed formed
    have agrees' := agrees.forget valid formed (forgets_grant formed loan s.access)
      fun _ here => here
    refine ⟨(Check.continues_declare granted bindable abilities).formed,
      agrees_declare valid agrees' slot live (foreign.holds valid ?_), by simp⟩
    rintro held mutable inner reference form rfl
    obtain ⟨place, mode⟩ := about mutable inner form
    -- The loan is of what the parameter itself leads to.
    have origin : loan.origin = ({ root := .param s.locals.size }, .ofMutable mutable) := by
      rw [Loan.origin, place, mode]
    refine ⟨⟨_, Loans.mem_origins.mpr ⟨s.loans.next, listed, loan, by simp, origin⟩, ?_,
      .param given (.refl reference) ?_⟩, agrees.lent held (List.mem_of_getElem? given)⟩
    · rintro rfl
      rfl
    · intro exclusive
      cases mutable with
      | true => exact ⟨slot.name, inner, form ▸ declared⟩
      | false => cases exclusive

/-- Parameters are bound to their arguments, one after the other. -/
theorem agrees_params (valid : a.Valid) {params : List (String × Ty)} {args : List Value}
    (bindable : ∀ param ∈ params, a.ctx.Bindable param.2)
    (foreign : ForeignAll a args params)
    (given : ∀ index, a.args[s.locals.size + index]? = args[index]?)
    (declared : ∀ index, a.ctx.signature.params[s.locals.size + index]? = params[index]?)
    (seen : List String) (formed : Formed a.ctx s) (agrees : Agrees a read s sum m)
    (clean : (Check.params a.ctx seen params s).2.problems = []) :
    Formed a.ctx (Check.params a.ctx seen params s).2 ∧
      Agrees a read (Check.params a.ctx seen params s).2 (sum + Value.weighAll a.weight args)
        (m.rebound (m.current.bindings ++
          (params.map (·.1)).zipWith (fun name value => ⟨name, some value⟩) args)) := by
  induction foreign generalizing seen s sum m with
  | nil =>
    refine ⟨formed, ?_⟩
    simpa [rebound, Check.params, Value.weighAll] using agrees
  | @cons value param args params first _ ih =>
    obtain ⟨restClean, same⟩ := Check.params_cons_accepted clean
    obtain ⟨formed', agrees', size⟩ := agrees_declareParam valid formed agrees
      (bindable _ List.mem_cons_self) first (given 0) (declared 0)
    have given' : ∀ index, a.args[s.locals.size + 1 + index]? = args[index]? := fun index => by
      rw [Nat.add_assoc, Nat.add_comm 1, given]
      rfl
    have declared' : ∀ index, a.ctx.signature.params[s.locals.size + 1 + index]? = params[index]? :=
      fun index => by
        rw [Nat.add_assoc, Nat.add_comm 1, declared]
        rfl
    rw [← size] at given' declared'
    obtain ⟨formed'', agrees''⟩ := ih
      (fun other member => bindable other (List.mem_cons_of_mem _ member)) given'
      declared' _ formed' agrees' restClean
    rw [same]
    refine ⟨formed'', ?_⟩
    have total : sum + (value.weigh a.weight : Int) + Value.weighAll a.weight args =
        sum + Value.weighAll a.weight (value :: args) := by
      rw [Value.weighAll, Nat.cast_add, Int.add_assoc]
    rw [total] at agrees''
    simpa [rebound, bound] using agrees''

theorem Surroundings.of_frames (surroundings : Surroundings a m) (valid : a.Valid)
    (frames : ∀ n < a.depth, m'.frame? n = m.frame? n) (tx : m'.tx = m.tx)
    (store : m'.store = m.store) (host : m'.host = m.host) : Surroundings a m' where
  below reached := by
    obtain ⟨value, found, conforms⟩ := surroundings.below reached
    refine ⟨value, ?_, conforms⟩
    rw [local?_eq, frames _ (valid.below_lt reached)]
    exact found
  stored seen := by
    rw [tx, store] at seen
    exact surroundings.stored seen
  faithful := by
    rw [tx, store]
    exact surroundings.faithful
  hosts := by rw [host, surroundings.hosts]
  signers := by
    rw [host]
    exact surroundings.signers

/-- Where a call begins, before its parameters are bound. -/
theorem agrees_empty (surroundings : Surroundings a m) (height : m.callers.length = a.depth)
    (function : m.current.function = a.ctx.signature.id)
    (typeParams : m.current.typeParams = a.ctx.signature.typeParams)
    (typeArgs : m.current.typeArgs = a.types) (none : m.current.bindings = [])
    (lent : a.held → ∀ {reference}, .ref reference ∈ a.args → reference.Stands m) :
    Agrees a read {} (m.worth a.weight) m where
  frame := ⟨function, typeParams, typeArgs, height, by rw [none]; rfl⟩
  conforms found := by cases found
  live found := by cases found
  surroundings := surroundings
  balanced := by
    refine ⟨fun _ => false, ⟨fun found => (by cases found), fun found => (by cases found)⟩, ?_⟩
    simp [Frame.owed]
  lent := lent

end Starting

/-! ## Bodies -/

section Bodies

variable {invoke : Invoke}
  (foreign : ForeignAll a a.args a.ctx.signature.params) (surroundings : Surroundings a m)
  (lent : a.held → ∀ {reference}, .ref reference ∈ a.args → reference.Stands m)
  (height : m.callers.length = a.depth)
  (current : m.current = callFrame a.ctx.signature.id decl a.types a.args)

include foreign surroundings lent height current

/-- A machine at the start of a call agrees with the checker at the start of the body. -/
theorem agrees_started (valid : a.Valid)
    (registered : a.ctx.types.function? a.ctx.signature.id = some a.ctx.signature)
    (typeParams : a.ctx.signature.typeParams = decl.typeParams)
    (params : a.ctx.signature.params.map (·.1) = decl.params.map (·.name))
    (clean : (Check.started a.ctx).problems = []) (read : List String) :
    Formed a.ctx (Check.started a.ctx) ∧ Agrees a read (Check.started a.ctx)
      (m.worth a.weight + Value.weighAll a.weight a.args) m := by
  have empty : Agrees a read {} ((m.rebound []).worth a.weight) (m.rebound []) :=
    agrees_empty (surroundings.rebound valid height) height (by simp [rebound, current, callFrame])
      (by simp [rebound, current, callFrame, typeParams])
      (by simp [rebound, current, callFrame]) rfl lent
  have start : ({} : BodyState).locals.size = 0 := rfl
  obtain ⟨formed, agrees⟩ := agrees_params valid (valid.declared.params_bindable registered) foreign
    (fun index => by rw [start, Nat.zero_add]) (fun index => by rw [start, Nat.zero_add]) []
    Check.formed_empty empty clean
  refine ⟨formed, ?_⟩
  have same : (m.rebound []).rebound ((m.rebound []).current.bindings ++
      (a.ctx.signature.params.map (·.1)).zipWith (fun name value => ⟨name, some value⟩)
      a.args) = m := by
    have bindings : m.current.bindings =
        (a.ctx.signature.params.map (·.1)).zipWith (fun name value => ⟨name, some value⟩)
        a.args := by
      rw [current, params, List.zipWith_map_left]
      rfl
    simp only [rebound, List.nil_append, ← bindings]
  rw [same] at agrees
  exact agrees

/-- A body that is accepted and steady does what its call owes. -/
theorem sound_body (running : Running setup invoke a linear)
    (checked : setup.program.Checked a.ctx.signature.id decl a.ctx.signature)
    (tried : Tried a linear (·.passesBody a.ctx decl.body)) :
    Ensures a.toTerms (runBody setup invoke decl) m
      (Returned a m (m.worth a.weight + Value.weighAll a.weight a.args)) := by
  have valid := running.valid
  have ctx : (⟨setup.program.types, a.ctx.signature⟩ : BodyContext) = a.ctx := by
    rw [running.declarations]
  have registered : a.ctx.types.function? a.ctx.signature.id = some a.ctx.signature := by
    rw [← running.declarations]
    exact checked.registered
  obtain ⟨startClean, blockClean, ending⟩ := Check.body_accepted (ctx ▸ checked.body)
  obtain ⟨formed, agrees⟩ := agrees_started foreign surroundings lent height current
    valid registered checked.typeParams checked.params startClean
    (Stmt.blockNames decl.body ++ (Check.started a.ctx).liveAfter)
  have leaves :=
    (Check.walks_block (Check.walks_stmts valid.declared decl.body) formed blockClean).leaves
  rw [runBody]
  refine (soundBlock_of_stmts running (sound_stmts running decl.body) _ _ m formed blockClean tried
    agrees).bind ?_
  intro flow m' ran
  refine ensures_pure ?_
  cases flow with
  | ret value => exact ran
  | next =>
    obtain ⟨goes, agrees', left⟩ := ran
    obtain ⟨unit, unowed⟩ := ending goes leaves.unpoisoned
    have worth := worth_of_unowed valid (formed_cut_of_leaves formed leaves) agrees' ?_
    · refine ⟨foreign_unit unit, agrees'.surroundings, left, ?_, fun _ => repays_unit⟩
      simpa [Flow.result, Value.weigh] using worth
    · intro id slot found
      obtain ⟨inside, found⟩ := Locals.slot?_of_truncate found
      refine unowed id ?_ slot found
      rw [leaves.visible, formed.dense]
      exact List.mem_range.mpr inside

end Bodies

/-! ## Calls in good order -/

/-- What the shared references among the arguments of a call led to was the same when it returned as
when it was entered. -/
def Visit.Undisturbed (visit : Visit) (u : Universe) : Prop :=
  ∀ (signature : Signature) (index : Nat) (name : String) (inner : Ty),
    u.function? visit.function = some signature →
    signature.params[index]? = some (name, .ref false inner) →
    ∃ value, visit.began[index]? = some (some value) ∧ visit.ended[index]? = some (some value)

/-- The regime is one under which the program may be run. -/
structure Regime.Governs (regime : Regime) (program : Program) (linear : Bool) : Prop where
  accepted : program.Accepted
  steady : program.steady linear = true
  guarded : regime.held → program.guarded regime.guard = true
  frugal : linear = true ∨ ∀ id, regime.weight id = 0
  inOrder : ∀ visit : Visit,
    (regime.held → regime.guard.apart = true → visit.Undisturbed program.types) → regime.fair visit

section Calls

/-- An argument that is a reference leads to a value. -/
theorem at?_of_foreign (surroundings : Surroundings a m) {mutable : Bool} {inner : Ty}
    {reference : Reference} (foreign : Foreign a (.ref mutable inner) (.ref reference))
    (stands : reference.Stands m) : ∃ value, m.at? reference = some value := by
  obtain ⟨_, whole, typed, reached⟩ := foreign.refers rfl rfl
  have rooted : ∃ value, m.root? reference.root = some value ∧
      value.conformsTo a.ctx.types whole = true := by
    cases root : reference.root with
    | «local» frame index =>
      rw [root] at typed
      exact surroundings.below typed
    | global key =>
      rw [root] at typed
      obtain rfl := Option.some.inj typed
      obtain ⟨value, seen⟩ := Option.isSome_iff_exists.mp (stands key root)
      exact ⟨value, seen, surroundings.stored seen⟩
    | host index =>
      rw [root] at typed
      simp only [Activation.outerType] at typed
      split at typed
      · rename_i within
        obtain rfl := Option.some.inj typed
        have inside : index < m.host.length := by rw [surroundings.hosts]; exact within
        exact ⟨_, List.getElem?_eq_getElem inside, surroundings.signers _ (List.getElem_mem inside)⟩
      · cases typed
  obtain ⟨value, present, conforms⟩ := rooted
  obtain ⟨part, found, _⟩ := Value.descend_conformsTo conforms reached
  exact ⟨part, by rw [at?, present, Option.bind_some, found]; rfl⟩

/-- A call whose arguments are apart does not disturb its shared references. -/
theorem Activation.Spares.undisturbed (spares : a.Spares m m') (valid : a.Valid) (held : a.held)
    (strict : a.guard.apart = true)
    (registered : a.ctx.types.function? a.ctx.signature.id = some a.ctx.signature)
    (surroundings : Surroundings a m)
    (foreign : ForeignAll a a.args a.ctx.signature.params)
    (lent : ∀ {reference}, .ref reference ∈ a.args → reference.Stands m) :
    (Visit.mk a.ctx.signature.id a.args (a.args.map m.behind?)
      (a.args.map m'.behind?)).Undisturbed a.ctx.types := by
  intro signature index name inner found declared
  obtain rfl := Option.mem_unique registered found
  obtain ⟨value, given, argument⟩ := exists_of_forall₂_getElem? foreign declared
  obtain ⟨reference, rfl⟩ : ∃ reference, value = .ref reference := by
    have conforms := argument.conforms
    cases value <;> simp [Ty.subst, Value.conformsTo] at conforms
    exact ⟨_, rfl⟩
  have listed : .ref reference ∈ a.args := List.mem_of_getElem? given
  obtain ⟨before, led⟩ := at?_of_foreign surroundings argument (lent listed)
  have same : m'.at? reference = m.at? reference := by
    refine spares.same (valid.outside held listed) (lent listed) ?_
    rintro other ⟨index', mutable, given'⟩
    refine valid.apart held strict ?_ mutable given' given
    -- The parameter itself is declared as a shared reference.
    rintro rfl
    obtain ⟨name', inner', declared'⟩ := mutable
    cases declared.symm.trans declared'
  refine ⟨before, ?_, ?_⟩
  · rw [List.getElem?_map, given, Option.map_some]
    exact congrArg some led
  · rw [List.getElem?_map, given, Option.map_some]
    exact congrArg some (same.trans led)

theorem at?_of_outside {reference : Reference} (outside : a.Outside reference)
    (frames : ∀ n < a.depth, m'.frame? n = m.frame? n) (tx : m'.tx = m.tx)
    (store : m'.store = m.store) (host : m'.host = m.host) :
    m'.at? reference = m.at? reference := by
  refine at?_congr ?_
  cases root : reference.root with
  | «local» n index =>
    rw [Activation.Outside, root] at outside
    rw [root?, root?, local?_eq, local?_eq, frames n outside]
  | global key => rw [root?, root?, tx, store]
  | host cell => rw [root?, root?, host]

/-- What a body owes in its frame, its call owes when the frame is gone. -/
theorem Returned.called (returned : Returned a (m.enter frame) sum value m') (valid : a.Valid)
    (height : m.callers.length + 1 = a.depth) : Returned a m sum value m'.leave := by
  have keeps := returned.leaves.keeps
  have height' : m'.callers.length = m.callers.length + 1 := keeps.height
  obtain ⟨caller, callers, waiting⟩ := List.exists_cons_of_length_eq_add_one height'
  have fewer : callers.length = m.callers.length := by
    rw [waiting] at height'
    exact Nat.succ.inj height'
  have leave : m'.leave = { m' with current := caller, callers := callers } := by
    rw [leave, waiting]
  have entered : ∀ n < a.depth, (m.enter frame).frame? n = m.frame? n := fun n lower =>
    frame?_enter (by omega)
  have left : ∀ n < a.depth, m'.leave.frame? n = m'.frame? n := fun n lower =>
    frame?_leave waiting (by omega)
  refine ⟨returned.result, ?_, ⟨⟨?_, ?_, ?_⟩, fun held => ⟨?_, ?_⟩⟩, ?_, returned.repays⟩
  · exact returned.surroundings.of_frames valid left (by rw [leave]) (by rw [leave]) (by rw [leave])
  · rw [leave]
    exact fewer
  · rw [leave]
    exact keeps.store
  · intro n lower frame' found
    obtain ⟨frame'', found'', like⟩ := keeps.frames lower ((entered n lower).trans found)
    exact ⟨frame'', (left n lower).trans found'', like⟩
  · intro key apart filled
    rw [leave]
    exact (returned.leaves.spares held).fills apart filled
  · intro reference outside stands missed
    rw [at?_of_outside outside left (by rw [leave]) (by rw [leave]) (by rw [leave]),
      ← at?_of_outside outside entered rfl rfl rfl]
    exact (returned.leaves.spares held).same outside stands missed
  · have worth : m'.leave.worth a.weight = m'.worth a.weight :=
      worth_congr _ (by rw [leave]) (by rw [leave]) (by rw [leave])
    rw [worth]
    exact returned.worth

/-- The machine behind a call that was counted. -/
def Machine.counting (m : Machine) (frame : Frame) : Machine :=
  { m with tally := { m.tally with entered := frame :: m.tally.entered } }

theorem ensures_countEntered {t : Terms} {f : Unit → Exec Value}
    (rest : Ensures t (f ()) (m.counting frame) good) :
    Ensures t (countEntered frame >>= f) m good :=
  fun clear => rest (clear.congr rfl)

/-- Nothing that a call owes looks at the record of calls that returned. -/
theorem Returned.noting (returned : Returned a m sum value m') (visit : Visit) :
    Returned a m sum value (noting visit m') :=
  { returned with
    surroundings := { returned.surroundings with }
    leaves := ⟨{ returned.leaves.keeps with }, fun held => { returned.leaves.spares held with }⟩ }

/-- Nothing that a call owes looks at the count of calls. -/
theorem Returned.of_counting (returned : Returned a (m.counting frame) sum value m') :
    Returned a m sum value m' :=
  { returned with
    leaves := ⟨{ returned.leaves.keeps with }, fun held => { returned.leaves.spares held with }⟩ }

/-- Every call keeps the contract, however deep calls may nest, and if arguments are kept apart
every call that returned is on record in good order. -/
theorem invokes_call {regime : Regime} (governs : regime.Governs setup.program linear)
    (depth : Nat) : Invokes setup regime (call setup depth) := by
  induction depth with
  | zero =>
    intro a decl m _ _ _ _ _ _ _ _ _
    exact ensures_fail rfl
  | succ depth ih =>
    intro a decl m valid under declarations registered found height surroundings foreign lent
    subst under
    have running : Running setup (call setup depth) a linear :=
      ⟨⟨declarations, valid, ih⟩, governs.frugal, valid.declared.ret_bindable registered⟩
    obtain ⟨signature, checked⟩ := governs.accepted.function found
    obtain rfl : signature = a.ctx.signature := by
      have same := checked.registered
      rw [declarations, registered] at same
      exact (Option.some.inj same).symm
    have tried : Tried a linear (·.passesBody a.ctx decl.body) := by
      have steady := Program.passesBody_of_passes governs.steady found checked.registered
      have guarded := fun held =>
        Program.passesBody_of_passes (governs.guarded held) found checked.registered
      rw [declarations] at steady guarded
      exact ⟨steady, guarded⟩
    let frame := callFrame a.ctx.signature.id decl a.types a.args
    have entered : Surroundings a ((m.counting frame).enter frame) := surroundings.of_frames valid
      (fun n lower => frame?_enter (show n ≤ m.callers.length by omega)) rfl rfl rfl
    refine ensures_countEntered (ensures_visiting (ensures_inFrame
      ((sound_body foreign entered lent height rfl running checked tried).mono ?_)))
    intro value m' returned
    have called := returned.called (m := m.counting frame) valid height
    refine ⟨governs.inOrder _ fun held strict => ?_, fun visit => (called.noting visit).of_counting⟩
    rw [declarations]
    exact (called.leaves.spares held).undisturbed valid held strict registered
      { surroundings with } foreign (lent held)

end Calls

end Custody
