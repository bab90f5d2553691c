import Custody.Proofs.Execution.Bodies
/-!
# Executions

A call from the host. What is checked of the request is what the body relies on: the type arguments
fit the type parameters, arguments conform to their types, and references lead to cells that hold
signers. From there an execution is a call like any other, and what it committed is what its
transaction saw.
-/

namespace Custody

open Exec

variable {values host : List Value} {signature : Signature} {u : Universe} {function : FunctionId}
  {decl : FunctionDecl} {typeArgs : List Ty} {receipt : Receipt} {a : Activation} {store : Store}
  {value : Value} {stop : Stop}

/-! ## Requests -/

namespace Universe

section Requests

variable {signature : Signature} {types : List Ty}

theorem ok_of_forM {α ε : Type} {f : α → Except ε Unit} {items : List α}
    (passed : items.forM f = .ok ()) : ∀ item ∈ items, f item = .ok () := by
  induction items with
  | nil => exact fun _ member => nomatch member
  | cons item items ih =>
    obtain ⟨_, first, rest⟩ := Universe.bind_eq_ok passed
    rintro other (_ | ⟨_, member⟩)
    · exact first
    · exact ih rest other member

theorem checkTypeArgument_spec {param : TypeParam} {arg : Ty}
    (passed : u.checkTypeArgument function param arg = .ok ()) :
    u.isPlain 0 arg = true ∧ param.constraints.subset (u.abilities [] arg) = true := by
  unfold checkTypeArgument at passed
  simp only [Bool.not_eq_eq_eq_not, Bool.not_true] at passed
  split at passed
  · cases passed
  · rename_i isValue
    split at passed
    · cases passed
    · rename_i constrained
      rw [isValueType_eq] at isValue
      exact ⟨by simpa using isValue, by simpa using constrained⟩

/-- Type arguments that pass fit the type parameters. -/
theorem instantiates_of_checked (passed : u.checkTypeArguments signature types = .ok ()) :
    u.Instantiates signature.typeParams types := by
  unfold checkTypeArguments at passed
  split at passed
  · cases passed
  · rename_i count
    have length : types.length = signature.typeParams.length := by simpa using count
    have each := ok_of_forM passed
    refine ⟨length, ?_, fun entry member => (checkTypeArgument_spec (each entry member)).2⟩
    refine arePlain_iff.mpr fun ty member => ?_
    obtain ⟨index, within, rfl⟩ := List.getElem_of_mem member
    have paired : (signature.typeParams[index], types[index]) ∈ signature.typeParams.zip types :=
      List.mem_of_getElem? (i := index) (by simp [List.getElem?_zip_eq_some])
    exact (checkTypeArgument_spec (each _ paired)).1

end Requests

end Universe

section Arguments

/-- Arguments from the host that pass, and the cells they take: a signer becomes a reference to a
cell of its own, and every other argument conforms to a type of values. -/
inductive Supplied (u : Universe) (typeArgs : List Ty) :
    List (String × Ty) → List Value → List Value → List Value → List Value → Prop where
  | nil {host : List Value} : Supplied u typeArgs [] [] host [] host
  | signer {param : String × Ty} {params : List (String × Ty)} {owner : Address} {mutable : Bool}
      {args host values cells : List Value} (form : param.2.subst typeArgs = .ref mutable .signer)
      (rest : Supplied u typeArgs params args (host ++ [.signer owner]) values cells) :
      Supplied u typeArgs (param :: params) (.signer owner :: args) host
        (.ref { root := .host host.length, mutable } :: values) cells
  | value {param : String × Ty} {params : List (String × Ty)} {arg : Value}
      {args host values cells : List Value} (plain : (param.2.subst typeArgs).isRef = false)
      (conforms : arg.conformsTo u (param.2.subst typeArgs) = true)
      (rest : Supplied u typeArgs params args host values cells) :
      Supplied u typeArgs (param :: params) (arg :: args) host (arg :: values) cells

variable {params : List (String × Ty)} {args host values cells : List Value}

theorem supplied_of_entryArguments (count : args.length = params.length)
    (passed : u.entryArguments typeArgs params args host = .ok (values, cells)) :
    Supplied u typeArgs params args host values cells := by
  induction params generalizing args host values with
  | nil =>
    obtain rfl := List.eq_nil_of_length_eq_zero count
    obtain ⟨rfl, rfl⟩ := Prod.mk.inj (Except.ok.inj passed)
    exact .nil
  | cons param params ih =>
    obtain ⟨arg, args, rfl⟩ := List.exists_cons_of_length_eq_add_one count
    rw [Universe.entryArguments] at passed
    obtain ⟨⟨value, between⟩, first, passed⟩ := Universe.bind_eq_ok passed
    obtain ⟨⟨others, after⟩, passedRest, passed⟩ := Universe.bind_eq_ok passed
    obtain ⟨rfl, rfl⟩ := Prod.mk.inj (Except.ok.inj passed)
    have rest := ih (Nat.succ.inj count) passedRest
    unfold Universe.entryArgument at first
    split at first
    · rename_i form
      split at first
      · obtain ⟨rfl, rfl⟩ := Prod.mk.inj (Except.ok.inj first)
        exact .signer form rest
      · cases first
    · cases first
    · rename_i noReference
      split at first
      · rename_i conforms
        obtain ⟨rfl, rfl⟩ := Prod.mk.inj (Except.ok.inj first)
        refine .value ?_ conforms rest
        cases form : param.2.subst typeArgs with
        | ref mutable inner => exact absurd form (noReference mutable inner)
        | _ => rfl
      · cases first

theorem Supplied.length_eq (taken : Supplied u typeArgs params args host values cells) :
    values.length = params.length := by
  induction taken with
  | nil => rfl
  | signer _ _ ih | value _ _ _ ih =>
    exact congrArg Nat.succ ih

/-- Cells of the host hold signers. -/
def Signers (u : Universe) (cells : List Value) : Prop :=
  ∀ cell ∈ cells, cell.conformsTo u .signer = true

theorem Supplied.foreign (taken : Supplied a.ctx.types a.types params args host values cells)
    (signers : Signers a.ctx.types host) :
    host.length ≤ cells.length ∧ Signers a.ctx.types cells ∧
      Value.weighAll a.weight values = Value.weighAll a.weight args ∧
      (cells.length ≤ a.hosts → ForeignAll a values params) := by
  induction taken with
  | nil => exact ⟨Nat.le_refl _, signers, rfl, fun _ => .nil⟩
  | @signer param _ owner mutable _ host _ cells form _ ih =>
    obtain ⟨longer, signers', weigh, foreign⟩ := ih
      (List.forall_mem_append.mpr ⟨signers, List.forall_mem_singleton.mpr rfl⟩)
    rw [List.length_append, List.length_singleton] at longer
    refine ⟨by omega, signers', by simp [Value.weighAll, Value.weigh, weigh], fun enough =>
      .cons ⟨by rw [form]; rfl, ?_⟩ (foreign enough)⟩
    intro wanted inner reference shape same
    obtain rfl := Value.ref.inj same
    rw [shape, Ty.subst] at form
    obtain ⟨rfl, signs⟩ := Ty.ref.inj form
    have within : host.length < a.hosts := by omega
    refine ⟨id, .signer, by simp [Activation.outerType, within], ?_⟩
    rw [signs]
    rfl
  | value plain conforms _ ih =>
    obtain ⟨longer, signers', weigh, foreign⟩ := ih signers
    refine ⟨longer, signers', by simp only [Value.weighAll, weigh], fun enough =>
      .cons ⟨conforms, ?_⟩ (foreign enough)⟩
    intro mutable inner reference shape _
    rw [shape] at plain
    cases plain

/-- References from the host lead to cells, each to one of its own. -/
theorem Supplied.roots (taken : Supplied u typeArgs params args host values cells) :
    (∀ reference, .ref reference ∈ values →
      ∃ cell, reference.root = .host cell ∧ host.length ≤ cell) ∧
      values.Pairwise fun first second =>
        ∀ left right, first = .ref left → second = .ref right → left.root ≠ right.root := by
  induction taken with
  | nil => exact ⟨by simp, .nil⟩
  | @signer _ _ _ mutable _ host values _ _ _ ih =>
    obtain ⟨later, apart⟩ := ih
    simp only [List.length_append, List.length_singleton] at later
    refine ⟨fun reference member => ?_, .cons ?_ apart⟩
    · rcases List.mem_cons.mp member with same | member
      · exact ⟨host.length, congrArg Reference.root (Value.ref.inj same), Nat.le_refl _⟩
      · obtain ⟨cell, rooted, beyond⟩ := later reference member
        exact ⟨cell, rooted, by omega⟩
    · rintro _ member left right first rfl
      obtain ⟨cell, rooted, beyond⟩ := later right member
      rw [rooted, ← Value.ref.inj first]
      intro equal
      have here : host.length = cell := RefRoot.host.inj equal
      omega
  | @value param _ arg _ _ _ _ plain conforms _ ih =>
    obtain ⟨later, apart⟩ := ih
    have noReference : ∀ reference, arg ≠ .ref reference := by
      rintro reference rfl
      cases plain.symm.trans (Value.isRef_of_conformsTo_ref conforms)
    refine ⟨fun reference member =>
      ?_, .cons (fun _ _ left _ same => absurd same (noReference left)) apart⟩
    rcases List.mem_cons.mp member with same | member
    · exact absurd same.symm (noReference reference)
    · exact later reference member

/-- A property that signers and references to the cells of the host have, and every argument that
conforms to a type of values, is one of what a call from the host is given. -/
theorem Supplied.holds {p : Value → Prop}
    (taken : Supplied u typeArgs params args host values cells)
    (hosted : ∀ index mutable, p (.ref { root := .host index, mutable }))
    (given : ∀ entry ∈ params.zip args,
      (∃ owner, entry.2 = .signer owner) ∨ ((entry.1.2.subst typeArgs).isRef = false ∧
        entry.2.conformsTo u (entry.1.2.subst typeArgs) = true) → p entry.2)
    (before : ∀ cell ∈ host, p cell) : (∀ value ∈ values, p value) ∧ ∀ cell ∈ cells, p cell := by
  induction taken with
  | nil => exact ⟨List.forall_mem_nil _, before⟩
  | signer _ _ ih =>
    obtain ⟨first, others⟩ := List.forall_mem_cons.mp given
    obtain ⟨held, cells⟩ := ih others
      (List.forall_mem_append.mpr ⟨before, List.forall_mem_singleton.mpr (first (.inl ⟨_, rfl⟩))⟩)
    exact ⟨List.forall_mem_cons.mpr ⟨hosted _ _, held⟩, cells⟩
  | value plain conforms _ ih =>
    obtain ⟨first, others⟩ := List.forall_mem_cons.mp given
    obtain ⟨held, cells⟩ := ih others before
    exact ⟨List.forall_mem_cons.mpr ⟨first (.inr ⟨plain, conforms⟩), held⟩, cells⟩

end Arguments

/-! ## From request to receipt -/

/-- Every slot holds a value of the type its key names. -/
def Store.Conforms (u : Universe) (store : Store) : Prop :=
  ∀ key value, store.get? key = some value → value.conformsTo u key.tag.ty = true

/-- The call that the host makes. -/
def hostCall (regime : Regime) (u : Universe) (signature : Signature) (types : List Ty)
    (values host : List Value) : Activation where
  toRegime := regime
  ctx := ⟨u, signature⟩
  types := types
  depth := 0
  below _ _ := none
  hosts := host.length
  args := values

/-- Nothing is asked of the calls on record, and of references only that they lead to values. -/
def Regime.lax (weight : StructId → Nat) : Regime where
  fair _ := True
  held := False
  guard := ⟨∅, false⟩
  weight := weight

theorem Regime.governs_lax {program : Program} {linear : Bool} {weight : StructId → Nat}
    (accepted : program.Accepted) (steady : program.steady linear = true)
    (frugal : linear = true ∨ ∀ id, weight id = 0) : (lax weight).Governs program linear :=
  ⟨accepted, steady, False.elim, frugal, fun _ _ => trivial⟩

/-- What an execution that returned owes the host. -/
structure Executed (program : Program) (weight : StructId → Nat) (store : Store)
    (function : FunctionId) (typeArgs : List Ty) (args : List Value) (receipt : Receipt) :
    Prop where
  value : ∃ signature, program.types.function? function = some signature ∧
    receipt.value.conformsTo program.types (signature.ret.subst typeArgs) = true
  stored : receipt.store.Conforms program.types
  balanced : store.weigh weight + Value.weighAll weight args +
    (receipt.tally.packed.map weight).sum = receipt.store.weigh weight + receipt.value.weigh
    weight + (receipt.tally.unpacked.map weight).sum

/-- Nothing need weigh anything. -/
theorem weighs_zero (u : Universe) : u.Weighs fun _ => 0 := fun _ _ _ _ => rfl

section Executing

variable {setup : Setup} {linear : Bool} {weight : StructId → Nat} {args : List Value}

/-- What the host gets from the end of a run. -/
def settleAccount (store : Store) : EStateM.Result Stop Machine Value → Except Stop Receipt
  | .error stop _ => .error stop
  | .ok value machine => do
    let (writes, store) ← (machine.tx.commit store).mapError .failure
    return ⟨value, writes, store, machine.tally⟩

/-- The host gets a receipt of a run that ended with a value and whose transaction was committed. -/
theorem settleAccount_eq_ok {result : EStateM.Result Stop Machine Value}
    (settled : settleAccount store result = .ok receipt) :
    ∃ m, result = .ok receipt.value m ∧ m.tx.commit store = .ok
    (receipt.writes, receipt.store) := by
  cases result with
  | error stop m => cases settled
  | ok value m =>
    cases committed : m.tx.commit store with
    | error failure =>
      simp only [settleAccount, committed] at settled
      cases settled
    | ok published =>
      simp only [settleAccount, committed] at settled
      obtain rfl := Except.ok.inj settled
      exact ⟨m, rfl, committed⟩

theorem acceptCall_eq_ok (passed : u.acceptCall signature typeArgs args = .ok (values, host)) :
    u.Instantiates signature.typeParams typeArgs ∧
      Supplied u typeArgs signature.params args [] values host := by
  obtain ⟨_, checked, passed⟩ := Universe.bind_eq_ok passed
  split at passed
  · cases passed
  · split at passed
    · cases passed
    · rename_i count
      exact ⟨Universe.instantiates_of_checked checked,
        supplied_of_entryArguments (by simpa using count) passed⟩

/-- An execution is a run that is settled. -/
theorem execute_eq (setup : Setup) (store : Store) (function : FunctionId) (typeArgs : List Ty)
    (args : List Value) :
    setup.execute store function typeArgs args =
      (setup.launch store function typeArgs args).bind (settleAccount store) := by
  cases launched : setup.launch store function typeArgs args with
  | error stop =>
    simp only [Setup.execute, launched]
    rfl
  | ok result =>
    simp only [Setup.execute, launched]
    cases result <;> rfl

/-- A request may be refused for this reason. -/
structure Refusal (setup : Setup) (function : FunctionId) (typeArgs : List Ty) (args : List Value)
    (failure : Failure) : Prop where
  fair : failure.isBreach = false
  present : ∀ absence, failure ≠ .missing absence
  blamed : ∀ fault, failure = .invalidArgument fault →
    ∃ signature, setup.program.types.function? function = some signature ∧
      setup.program.types.acceptCall signature typeArgs args = .error fault
  unknown : ∀ id, failure = .unknownFunction id →
    setup.program.function? function = none ∨ setup.program.types.function? function = none

/-- A request that is not refused: the function it calls, what its arguments become, and how many
calls may be active behind its own. -/
structure Admitted (setup : Setup) (function : FunctionId) (typeArgs : List Ty)
    (args : List Value) where
  decl : FunctionDecl
  signature : Signature
  values : List Value
  host : List Value
  depth : Nat
  found : setup.program.function? function = some decl
  registered : setup.program.types.function? function = some signature
  passed : setup.program.types.acceptCall signature typeArgs args = .ok (values, host)

namespace Admitted

variable (admitted : Admitted setup function typeArgs args)

/-- The frame of its call. -/
abbrev frame : Frame := callFrame function admitted.decl typeArgs admitted.values

/-- The machine it starts. -/
abbrev start (store : Store) : Machine := .start admitted.frame admitted.host store

/-- What it runs. -/
abbrev body : Exec Value :=
  visiting function admitted.values (runBody setup (call setup admitted.depth) admitted.decl)

end Admitted

/-- A request is refused, or it runs a body with what it supplied, whatever is stored. -/
theorem launch_cases (setup : Setup) (function : FunctionId) (typeArgs : List Ty)
    (args : List Value) :
    (∃ failure : Failure, Refusal setup function typeArgs args failure ∧
        ∀ store, setup.launch store function typeArgs args = .error (.failure failure)) ∨
      ∃ admitted : Admitted setup function typeArgs args, ∀ store,
        setup.launch store function typeArgs args = .ok (admitted.body (admitted.start store)) := by
  cases found : setup.program.function? function with
  | none =>
    refine .inl ⟨.unknownFunction function, ⟨rfl, by simp, by simp, fun _ _ => .inl found⟩,
      fun _ => ?_⟩
    simp [Setup.launch, found]
  | some decl =>
    cases registered : setup.program.types.function? function with
    | none =>
      refine .inl ⟨.unknownFunction function, ⟨rfl, by simp, by simp, fun _ _ => .inr registered⟩,
        fun _ => ?_⟩
      simp [Setup.launch, found, registered]
    | some signature =>
      cases passed : setup.program.types.acceptCall signature typeArgs args with
      | error fault =>
        refine .inl ⟨.invalidArgument fault, ⟨rfl, by simp, fun _ same => ?_, by simp⟩, fun _ => ?_⟩
        · exact ⟨signature, registered, Failure.invalidArgument.inj same ▸ passed⟩
        · simp only [Setup.launch, found, registered, passed]
          rfl
      | ok taken =>
        cases limit : setup.maxCallDepth with
        | zero =>
          refine .inl ⟨.callDepthExceeded 0, ⟨rfl, by simp, by simp, by simp⟩, fun _ => ?_⟩
          simp only [Setup.launch, found, registered, passed, limit]
          rfl
        | succ depth =>
          refine .inr ⟨⟨decl, signature, taken.1, taken.2, depth, found, registered, passed⟩,
            fun _ => ?_⟩
          simp only [Setup.launch, found, registered, passed, limit, Except.mapError, Bind.bind,
            Except.bind, pure, Except.pure]

theorem refusal_of_launch {failure : Failure}
    (refused : setup.launch store function typeArgs args = .error (.failure failure)) :
    Refusal setup function typeArgs args failure := by
  rcases launch_cases setup function typeArgs args with
    ⟨other, refusal, refused'⟩ | ⟨_, ran⟩
  · obtain rfl := Stop.failure.inj (Except.error.inj ((refused' store).symm.trans refused))
    exact refusal
  · cases refused.symm.trans (ran store)

theorem run_of_launch {result : EStateM.Result Stop Machine Value}
    (launched : setup.launch store function typeArgs args = .ok result) :
    ∃ admitted : Admitted setup function typeArgs args,
      result = admitted.body (admitted.start store) := by
  rcases launch_cases setup function typeArgs args with ⟨failure, _, refused⟩ | ⟨admitted, ran⟩
  · cases (refused store).symm.trans launched
  · exact ⟨admitted, Except.ok.inj (launched.symm.trans (ran store))⟩

/-- An execution stops because the request is refused, the run stops or the commit fails. -/
theorem launch_of_execute (stopped : setup.execute store function typeArgs args = .error stop) :
    setup.launch store function typeArgs args = .error stop ∨
      (∃ m, setup.launch store function typeArgs args = .ok (.error stop m)) ∨
      ∃ key, stop = .failure (.conflict key) := by
  rw [execute_eq] at stopped
  cases launched : setup.launch store function typeArgs args with
  | error other =>
    rw [launched] at stopped
    exact .inl (congrArg Except.error (Except.error.inj stopped))
  | ok result =>
    rw [launched] at stopped
    cases result with
    | error other m =>
      obtain rfl := Except.error.inj stopped
      exact .inr (.inl ⟨m, rfl⟩)
    | ok value m =>
      cases stale : m.tx.stale? store <;>
        simp [Except.bind, settleAccount, Transaction.commit, stale, Except.mapError] at stopped
      exact .inr (.inr ⟨_, stopped.symm⟩)

/-- An execution is refused, or it runs a body with what the request supplied. -/
theorem execute_cases (setup : Setup) (store : Store) (function : FunctionId) (typeArgs : List Ty)
    (args : List Value) :
    (∃ stop : Stop, setup.execute store function typeArgs args = .error stop ∧
        stop.isBreach = false) ∨
      ∃ admitted : Admitted setup function typeArgs args,
        setup.execute store function typeArgs args =
          settleAccount store (admitted.body (admitted.start store)) := by
  rw [execute_eq]
  rcases launch_cases setup function typeArgs args with
    ⟨failure, refusal, refused⟩ | ⟨admitted, ran⟩
  · rw [refused]
    exact .inl ⟨.failure failure, rfl, (Stop.isBreach_failure failure).trans refusal.fair⟩
  · rw [ran]
    exact .inr ⟨admitted, rfl⟩

/-- What the host hands over leads to cells of its own. -/
theorem valid_hostCall {regime : Regime} (accepted : u.Accepted) (weighs : u.Weighs regime.weight)
    (passed : u.acceptCall signature typeArgs args = .ok (values, host)) :
    (hostCall regime u signature typeArgs values host).Valid := by
  obtain ⟨instantiates, taken⟩ := acceptCall_eq_ok passed
  obtain ⟨hosted, apart⟩ := taken.roots
  have differ : ∀ {index other : Nat} {left right : Reference}, index < other →
      values[index]? = some (.ref left) → values[other]? = some (.ref right) →
      left.root ≠ right.root := by
    intro index other left right before first second
    obtain ⟨_, here⟩ := List.getElem?_eq_some_iff.mp first
    obtain ⟨_, there⟩ := List.getElem?_eq_some_iff.mp second
    exact List.pairwise_iff_getElem.mp apart _ _ _ _ before _ _ here there
  refine ⟨accepted,
    instantiates, weighs, fun none => (by cases none), fun _ reference given => ?_, ?_⟩
  · obtain ⟨cell, here, _⟩ := hosted reference given
    rw [Activation.Outside, here]
    trivial
  · intro _ _ index other left right differs _ first second meets
    rcases Nat.lt_or_gt_of_ne differs with before | behind
    · exact differ before first second meets.root
    · exact differ behind second first meets.root.symm

/-- The body that an execution runs does what its call owes. -/
theorem ensures_hostCall {regime : Regime} (governs : regime.Governs setup.program linear)
    (weighs : setup.program.types.Weighs regime.weight)
    (conforms : store.Conforms setup.program.types)
    (admitted : Admitted setup function typeArgs args) :
    let start := admitted.start store
    let a := hostCall regime setup.program.types admitted.signature typeArgs admitted.values
      admitted.host
    Ensures regime.toTerms admitted.body start
      (Returned a start (start.worth regime.weight + Value.weighAll regime.weight args)) := by
  obtain ⟨decl, signature, values, host, depth, found, registered, passed⟩ := admitted
  intro start a
  have accepted := governs.accepted
  have valid : a.Valid := valid_hostCall accepted.types weighs passed
  have given : Supplied a.ctx.types a.types signature.params args [] values host :=
    (acceptCall_eq_ok passed).2
  obtain ⟨_, signers, weigh, each⟩ := given.foreign (List.forall_mem_nil _)
  have foreign : ForeignAll a a.args a.ctx.signature.params := each (Nat.le_refl _)
  have checked := accepted.checked found registered
  obtain rfl : signature.id = function := accepted.types.function_id registered
  have surroundings : Surroundings a start :=
    ⟨fun none => (by cases none), fun seen => conforms _ _ seen, Transaction.faithful_begin store,
      rfl, signers⟩
  have lent : a.held → ∀ {reference}, .ref reference ∈ a.args → reference.Stands start := by
    intro _ reference here key global
    obtain ⟨cell, rooted, _⟩ := given.roots.1 reference here
    cases rooted.symm.trans global
  have running : Running setup (call setup depth) a linear :=
    ⟨⟨rfl, valid, invokes_call governs depth⟩, governs.frugal,
      accepted.types.ret_bindable registered⟩
  have body := sound_body foreign surroundings lent rfl rfl running checked
    ⟨Program.passesBody_of_passes governs.steady found checked.registered,
      fun held => Program.passesBody_of_passes (governs.guarded held) found checked.registered⟩
  have weigh' : Value.weighAll regime.weight values = Value.weighAll regime.weight args := weigh
  rw [← weigh']
  refine ensures_visiting (body.mono fun _ _ returned => ⟨governs.inOrder _ fun held strict => ?_,
    returned.noting⟩)
  exact (returned.leaves.spares held).undisturbed valid held strict registered surroundings foreign
    (lent held)

/-- What a transaction saw is what its commit leaves, and what the books say of it is what storage
weighs. -/
theorem Returned.executed {m : Machine} {writes : Nat} {after : Store}
    (returned : Returned (hostCall (.lax weight) setup.program.types signature typeArgs values host)
      (.start (callFrame function decl typeArgs values) host store)
      (Machine.worth weight (.start (callFrame function decl typeArgs values) host store) +
        Value.weighAll weight args) value m)
    (registered : setup.program.types.function? function = some signature)
    (committed : m.tx.commit store = .ok (writes, after)) :
    Executed setup.program weight store function typeArgs args ⟨value, writes, after, m.tally⟩ := by
  have behind : m.store = store := returned.leaves.keeps.store
  have faithful := returned.surroundings.faithful
  have worth := returned.worth
  obtain ⟨_, _, rfl⟩ := Transaction.commit_eq_ok committed
  rw [behind] at faithful
  refine ⟨⟨signature, registered, returned.result.conforms⟩, ?_, ?_⟩
  · intro key held found
    rw [faithful.get?_writeAll, ← behind] at found
    exact returned.surroundings.stored found
  · have before : (Transaction.begin.sight weight store : Nat) = store.weigh weight :=
      (Store.weigh_eq_finsum weight store).symm
    have left : m.tx.sight weight store = (store.writeAll m.tx.writes).weigh weight := by
      rw [Store.weigh_eq_finsum]
      exact finsum_congr fun key => by rw [faithful.get?_writeAll]
    simp only [hostCall, Regime.lax, Machine.worth, Machine.start, behind, left, before] at worth
    simp only [List.map_nil, List.sum_nil] at worth
    dsimp only
    omega

/-- An execution of an accepted and steady program stops fairly, or owes nothing more. -/
theorem execute_sound (accepted : setup.program.Accepted)
    (steady : setup.program.steady linear = true) (frugal : linear = true ∨ ∀ id, weight id = 0)
    (weighs : setup.program.types.Weighs weight) (conforms : store.Conforms setup.program.types) :
    (∃ stop : Stop, setup.execute store function typeArgs args = .error stop ∧
      stop.isBreach = false) ∨
      ∃ receipt, setup.execute store function typeArgs args = .ok receipt ∧
        Executed setup.program weight store function typeArgs args receipt := by
  obtain refused | ⟨admitted, same⟩ := execute_cases setup store function typeArgs args
  · exact .inl refused
  have body := ensures_hostCall (Regime.governs_lax accepted steady frugal) weighs conforms admitted
    fun _ none => by cases none
  rw [same]
  dsimp only [Ends] at body
  split at body
  · rename_i value m ended
    rw [ended]
    cases committed : m.tx.commit store with
    | error failure =>
      refine .inl ⟨.failure failure, by simp only [settleAccount, committed]; rfl, ?_⟩
      unfold Transaction.commit at committed
      split at committed
      · obtain rfl := Except.error.inj committed
        rfl
      · cases committed
    | ok published =>
      exact .inr ⟨_,
        by simp only [settleAccount, committed]; rfl,
        body.2.executed admitted.registered committed⟩
  · rename_i stop m ended
    rw [ended]
    exact .inl ⟨stop, rfl, body.2.noBreach⟩

theorem executed_of_ok (done : setup.execute store function typeArgs args = .ok receipt)
    (accepted : setup.program.Accepted) (steady : setup.program.steady linear = true)
    (frugal : linear = true ∨ ∀ id, weight id = 0) (weighs : setup.program.types.Weighs weight)
    (conforms : store.Conforms setup.program.types) :
    Executed setup.program weight store function typeArgs args receipt := by
  obtain ⟨stop, stopped, _⟩ | ⟨receipt', done', executed⟩ :=
    execute_sound accepted steady frugal weighs conforms
  · cases stopped.symm.trans done
  · obtain rfl := Except.ok.inj (done'.symm.trans done)
    exact executed

theorem fair_of_error (stopped : setup.execute store function typeArgs args = .error stop)
    (accepted : setup.program.Accepted) (steady : setup.program.steady false = true)
    (conforms : store.Conforms setup.program.types) : stop.isBreach = false := by
  obtain ⟨stop', stopped', fair⟩ | ⟨receipt, done, _⟩ :=
    execute_sound accepted steady (.inr fun _ => rfl) (weighs_zero _) conforms
  · obtain rfl := Except.error.inj (stopped'.symm.trans stopped)
    exact fair
  · cases stopped.symm.trans done

end Executing

end Custody
