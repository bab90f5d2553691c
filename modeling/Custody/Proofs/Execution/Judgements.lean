import Custody.Proofs.Execution.Growing
import Custody.Proofs.Execution.Holdings
/-!
# Judgements about programs

Many facts about runs have one shape. They are proved by going through a body, they say of every
value that comes up that it has some property, and all they need to know is how the primitives of
the machine behave. Such a fact is a judgement on runs; its rules are listed once, and what has them
holds of every expression, every statement and every body.

A judgement may have to look ahead: what it says of the beginning of a run can depend on the
operations on storage that are on the account at its end. So the rule for sequences lets it assume
that the account grows.
-/

namespace Custody.Exec

variable {value : Value} {α : Type} {reference : Reference}

/-- What may be said of a run, given what is to hold of its value. -/
abbrev Judgement := (α : Type) → Exec α → (α → Prop) → Prop

/-- The property passes to parts of values and to references with the same root. Addresses taken
from signers have another one. -/
structure Inherited (p : Value → Prop) (signed : Address → Prop) : Prop where
  hereditary : Value.Hereditary p
  reference : ∀ {outer inner : Reference}, p (.ref outer) → inner.root = outer.root → p (.ref inner)
  signer : ∀ {address}, p (.signer address) → signed address

/-- The rules of a judgement under which values have a property, and addresses taken from signers
another one. They are about the steps that touch the machine; what is made of values follows. -/
structure Judges (setup : Setup) (invoke : Invoke) (p : Value → Prop) (signed : Address → Prop)
    (J : Judgement) : Prop extends Inherited p signed where
  pure : ∀ {α : Type} {good : α → Prop} {value : α}, good value → J α (pure value) good
  bind : ∀ {α β : Type} {x : Exec α} {f : α → Exec β} {good : α → Prop} {good' : β → Prop},
    (∀ value, Growing (f value)) → J α x good → (∀ value, good value → J β (f value) good') →
      J β (x >>= f) good'
  stop : ∀ {α : Type} {good : α → Prop} (stop : Stop), J α (throw stop) good
  raise : ∀ {α : Type} {good : α → Prop} (failure : FunctionId → Failure),
    J α (do fail (failure (← get).current.function)) good
  resolveStruct : ∀ struct, J _ (resolveStruct setup struct) fun _ => True
  countPacked : ∀ id, J _ (countPacked id) fun _ => True
  countUnpacked : ∀ id, J _ (countUnpacked id) fun _ => True
  -- bindings
  readLocal : ∀ name, J _ (readLocal name) p
  takeLocal : ∀ name, J _ (takeLocal name) p
  borrowLocal : ∀ mutable name, J _ (borrowLocal mutable name) p
  bindLocal : ∀ name {value}, p value → J _ (Exec.bind name value) fun _ => True
  assign : ∀ name {value}, p value → J _ (assign name value) fun _ => True
  inScope : ∀ {block good}, J Flow block good → J _ (inScope block) good
  -- places
  readRoot : ∀ {reference}, p (.ref reference) → J _ (readRoot reference.root) p
  setLocal : ∀ {reference frame index value}, p (.ref reference) →
    reference.root = .local frame index → p value →
    J PUnit (modify fun m => m.setLocal frame index (some value)) fun _ => True
  setHost : ∀ index {value}, p value →
    J PUnit (modify fun m => { m with host := m.host.set index value }) fun _ => True
  update : ∀ {reference key part}, p (.ref reference) → reference.root = .global key → p part →
    J _ (referred fun tx store => tx.update store key (·.replaceAt reference.path part))
      fun _ => True
  -- calls and operations
  call : ∀ module function typeArgs {args}, (∀ arg ∈ args, p arg) →
    J _ (callFunction setup invoke module function typeArgs args) p
  moveTo : ∀ {key value}, signed key.address → p value →
    J _ (do
      countReached .moveTo key
      storage fun tx store => tx.moveTo store key value
      return Value.unit) p
  moveFrom : ∀ key,
    J _ (do
      countReached .moveFrom key
      storage fun tx store => tx.moveFrom store key) p
  borrowGlobal : ∀ mutable key,
    J _ (do
      countReached (.borrowGlobal mutable) key
      let _ ← storage fun tx store => tx.read store key
      return Value.ref { root := .global key, mutable }) p
  existsAt : ∀ key,
    J _ (do
      countReached .existsAt key
      return Value.bool (← look fun tx store => tx.existsAt store key)) p

namespace Judges

variable {setup : Setup} {invoke : Invoke} {p : Value → Prop}
  {signed : Address → Prop} {J : Judgement} (rules : Judges setup invoke p signed J)

include rules

theorem andThen {β : Type} {x : Exec α} {f : α → Exec β} {good : α → Prop} {good' : β → Prop}
    [growing : ∀ value, Growing (f value)] (first : J α x good)
    (rest : ∀ value, good value → J β (f value) good') : J β (x >>= f) good' :=
  rules.bind growing first rest

theorem require {good : α → Prop} {result : Option α} {otherwise : Breach}
    (here : ∀ value, result = some value → good value) : J α (require result otherwise) good := by
  cases result with
  | none => exact rules.stop _
  | some value => exact rules.pure (here value rfl)

theorem sound {good : α → Prop} {result : Except Breach α}
    (here : ∀ value, result = .ok value → good value) : J α (sound result) good := by
  cases result with
  | error reason => exact rules.stop _
  | ok value => exact rules.pure (here value rfl)

theorem asBool (value : Value) : J _ (asBool value) fun _ => True := by
  cases value with
  | bool flag => exact rules.pure trivial
  | _ => exact rules.stop _

theorem slotKey (struct : StructExpr) (address : Value) :
    J _ (slotKey setup struct address) fun _ => True := by
  have owner : J _ (asAddress address) fun _ => True := by
    cases address with
    | address owner => exact rules.pure trivial
    | _ => exact rules.stop _
  exact rules.andThen owner fun _ _ => rules.andThen (rules.resolveStruct struct) fun _ _ =>
    rules.pure trivial

theorem structDef (tag : StructTag) : J _ (structDef setup tag) fun _ => True :=
  rules.require fun _ _ => trivial

theorem abort {good : α → Prop} (code : BitVec 64) : J α (abort code) good :=
  rules.raise fun function => .aborted code function

/-! ### Places -/

theorem follow {result : Except Value.Misstep Value}
    (here : ∀ value, result = .ok value → p value) : J _ (follow result) p := by
  refine rules.sound fun value found => here value ?_
  cases result with
  | error step => cases found
  | ok there => exact congrArg _ (Except.ok.inj found)

theorem readPlace (here : p (.ref reference)) : J _ (readPlace reference) p :=
  rules.andThen (rules.readRoot here) fun _ whole => rules.follow fun _ reached =>
    rules.hereditary.descend whole reached

theorem readThrough (here : p value) : J _ (readThrough value) p := by
  cases value with
  | ref reference => exact rules.readPlace here
  | _ => exact rules.pure here

theorem writePlace {part : Value} (here : p (.ref reference)) (new : p part) :
    J _ (writePlace reference part) fun _ => True := by
  have old := rules.readRoot here
  have changes : ∀ {whole : Value}, p whole →
      J _ (Exec.follow (whole.replaceAt reference.path part)) p :=
    fun whole => rules.follow fun _ changed => rules.hereditary.replaceAt whole new changed
  unfold Exec.writePlace
  cases root : reference.root with
  | «local» frame index =>
    rw [root] at old
    dsimp only
    rw [← bind_assoc]
    exact rules.andThen old fun _ whole => rules.andThen (changes whole) fun _ there =>
      rules.setLocal here root there
  | global key =>
    refine rules.bind (fun result => ?_) (rules.update here root new) fun result _ => ?_
    · cases result <;> infer_instance
    · cases result with
      | error step => exact rules.stop _
      | ok done => exact rules.pure trivial
  | host index =>
    have growing : ∀ value : Value,
        Growing (modify fun m => { m with host := m.host.set index value } : Exec PUnit) :=
      fun value => growing_modify fun _ => rfl
    rw [root] at old
    dsimp only
    rw [← bind_assoc]
    exact rules.andThen old fun _ whole => rules.andThen (changes whole) fun _ there =>
      rules.setHost index there

/-! ### Operations on values -/

theorem freeze (here : p value) : J _ (freeze value) p := by
  cases value with
  | ref reference => exact rules.pure (rules.reference here rfl)
  | _ => exact rules.stop _

theorem dereference (here : p value) : J _ (dereference value) p := by
  cases value with
  | ref reference => exact rules.readPlace here
  | _ => exact rules.stop _

theorem signerOf (here : p value) : J _ (signerOf value) signed := by
  refine rules.bind (fun found => ?_) (rules.readThrough here) fun found there => ?_
  · cases found <;> infer_instance
  · cases found with
    | signer owner => exact rules.pure (rules.signer there)
    | _ => exact rules.stop _

theorem binary (op : BinOp) {left right : Value} (leftHere : p left) (rightHere : p right) :
    J _ (binary op left right) p := by
  cases op with
  | eq | neq =>
    exact rules.andThen (rules.readThrough leftHere) fun _ _ =>
      rules.andThen (rules.readThrough rightHere) fun _ _ =>
        rules.pure (rules.hereditary.scalar rfl)
  | and | or => exact rules.stop _
  | lt | le | gt | ge =>
    exact rules.sound fun _ compared =>
      rules.hereditary.scalar (Value.isScalar_compareValues compared)
  | add | sub | mul | div | mod =>
    refine rules.bind (fun result => ?_) (rules.sound fun _ combined => combined)
      fun result combined => ?_
    · cases result <;> infer_instance
    · cases result with
      | error fault => exact rules.raise (.arithmetic _ fault)
      | ok value =>
        exact rules.pure (rules.hereditary.scalar (Value.isScalar_combineValues combined))

theorem borrowField (mutable : Bool) {base : Value} (field : String) (here : p base) :
    J _ (borrowField setup mutable base field) p := by
  cases base with
  | ref reference =>
    refine rules.bind (fun found => ?_) (rules.readPlace here) fun found _ => ?_
    · cases found <;> infer_instance
    · cases found with
      | struct tag fields =>
        exact rules.andThen (rules.structDef tag) fun _ _ =>
          rules.andThen (rules.require fun _ _ => trivial) fun _ (_ : True) =>
            rules.pure (rules.reference here rfl)
      | _ => exact rules.stop _
  | _ => exact rules.stop _

theorem writeThrough {target : Value} (there : p target) (here : p value) :
    J _ (writeThrough target value) fun _ => True := by
  cases target with
  | ref reference =>
    simp only [Exec.writeThrough]
    split
    · exact rules.writePlace there here
    · exact rules.stop _
  | _ => exact rules.stop _

theorem pack (struct : StructExpr) {given : List (String × Value)}
    (values : ∀ entry ∈ given, p entry.2) : J _ (pack setup struct given) p :=
  rules.andThen (rules.resolveStruct struct) fun tag _ => rules.andThen (rules.structDef tag)
    fun _ _ => rules.andThen (rules.sound fun _ packed => rules.hereditary.pack values packed)
      fun _ here => rules.andThen (rules.countPacked tag.id) fun _ _ => rules.pure here

theorem bindAll (values : List (String × Value)) (each : ∀ entry ∈ values, p entry.2) :
    J _ (bindAll values) fun _ => True := by
  induction values with
  | nil => exact rules.pure trivial
  | cons entry values ih =>
    obtain ⟨here, others⟩ := List.forall_mem_cons.mp each
    exact rules.bind (fun _ _ => leaves_bindAll values) (rules.bindLocal entry.1 here) fun _
      _ => ih others

theorem unpack (binders : List (String × Binder)) (here : p value) :
    J _ (unpack setup binders value) fun _ => True := by
  cases value with
  | struct tag fields =>
    exact rules.andThen (rules.structDef tag) fun _ _ =>
      rules.andThen (rules.sound fun _ unpacked => rules.hereditary.unpack here unpacked)
        fun bound each => rules.andThen (rules.countUnpacked tag.id) fun _ _ =>
          rules.bindAll bound each
  | _ => exact rules.stop _

/-! ### Expressions and statements -/

theorem truth (flag : Bool) : p (.bool flag) := rules.hereditary.scalar rfl

theorem repeatWhile {cond : Exec Bool} {body : Exec Flow} [Growing cond] [Growing body]
    (tests : J _ cond fun _ => True) (runs : J _ body (Flow.Returns p)) (bound : Nat) :
    J _ (repeatWhile cond body bound) (Flow.Returns p) := by
  induction bound with
  | zero => exact rules.stop _
  | succ bound ih =>
    refine rules.bind (fun holds => ?_) tests fun holds _ => ?_
    · cases holds with
      | false => exact fun _ => still_pure _
      | true =>
        refine fun reach => @still_bind _ _ _ _ _ _ (‹Growing body› reach) fun flow => ?_
        cases flow <;> infer_instance
    · cases holds with
      | false => exact rules.pure trivial
      | true =>
        refine rules.bind (fun flow => ?_) runs fun flow returns => ?_
        · cases flow <;> infer_instance
        · cases flow with
          | next => exact ih
          | ret value => exact rules.pure returns

theorem runOtherwise {block : Option (List Stmt)}
    (runs : ∀ stmts ∈ block, J _ (Exec.runAll setup invoke stmts) (Flow.Returns p)) :
    J _ (runOtherwise setup invoke block) (Flow.Returns p) := by
  cases block with
  | none =>
    rw [Exec.runOtherwise]
    exact rules.pure trivial
  | some stmts =>
    rw [Exec.runOtherwise]
    exact rules.inScope (runs stmts rfl)

variable [GrowingCalls invoke]

theorem logical {op : BinOp} {left right : Expr} (logical : op.isLogical = true)
    (leftRuns : J _ (eval setup invoke left) p) (rightRuns : J _ (eval setup invoke right) p) :
    J _ (eval setup invoke (.binary op left right)) p := by
  have second : J _ (do return Value.bool (← Exec.asBool (← eval setup invoke right))) p :=
    rules.andThen rightRuns fun value _ => rules.andThen (rules.asBool value) fun flag _ =>
      rules.pure (rules.truth flag)
  cases op with
  | and | or =>
    rw [eval]
    refine rules.andThen leftRuns fun value _ => rules.andThen (rules.asBool value) fun flag _ => ?_
    cases flag <;> first | exact second | exact rules.pure (rules.truth _)
  | _ => cases logical

mutual

theorem eval : (e : Expr) → J _ (eval setup invoke e) p
  | .unit | .bool _ | .u8 _ | .u64 _ | .u128 _ | .address _ => by
    rw [Exec.eval]
    exact rules.pure (rules.hereditary.scalar rfl)
  | .var name | .copy name => by
    rw [Exec.eval]
    exact rules.readLocal name
  | .move name => by
    rw [Exec.eval]
    exact rules.takeLocal name
  | .borrow mutable name => by
    rw [Exec.eval]
    exact rules.borrowLocal mutable name
  | .borrowField mutable inner field => by
    rw [Exec.eval]
    exact rules.andThen (eval inner) fun _ here => rules.borrowField mutable field here
  | .freeze inner => by
    rw [Exec.eval]
    exact rules.andThen (eval inner) fun _ here => rules.freeze here
  | .deref inner => by
    rw [Exec.eval]
    exact rules.andThen (eval inner) fun _ here => rules.dereference here
  | .pack struct fields => by
    rw [Exec.eval]
    exact rules.andThen (evalFields fields) fun _ values => rules.pack struct values
  | .call module function typeArgs args => by
    rw [Exec.eval]
    exact rules.andThen (evalAll args) fun _ values => rules.call module function typeArgs values
  | .binary op left right => by
    cases logical : op.isLogical with
    | true => exact rules.logical logical (eval left) (eval right)
    | false =>
      rw [eval_eager logical]
      exact rules.andThen (eval left) fun _ leftHere => rules.andThen (eval right)
        fun _ rightHere => rules.binary op leftHere rightHere
  | .not inner => by
    rw [Exec.eval]
    exact rules.andThen (eval inner) fun value _ => rules.andThen (rules.asBool value) fun _ _ =>
      rules.pure (rules.truth _)
  | .vector elem items => by
    rw [Exec.eval]
    exact rules.andThen (evalAll items) fun _ values =>
      rules.pure (rules.hereditary.vector.mpr values)
  | .signerAddress inner => by
    rw [Exec.eval]
    exact rules.andThen (eval inner) fun _ here => rules.andThen (rules.signerOf here) fun _ _ =>
      rules.pure (rules.hereditary.scalar rfl)
  | .moveTo struct signer value => by
    rw [Exec.eval]
    refine rules.andThen (eval signer) fun _ here => rules.andThen (rules.signerOf here) ?_
    intro owner authority
    refine rules.andThen (eval value) fun stored here => ?_
    exact rules.andThen (rules.resolveStruct struct) fun tag _ => rules.moveTo authority here
  | .moveFrom struct addr => by
    rw [Exec.eval]
    exact rules.andThen (eval addr) fun value _ => rules.andThen (rules.slotKey struct value)
      fun key _ => rules.moveFrom key
  | .borrowGlobal struct mutable addr => by
    rw [Exec.eval]
    exact rules.andThen (eval addr) fun value _ => rules.andThen (rules.slotKey struct value)
      fun key _ => rules.borrowGlobal mutable key
  | .existsAt struct addr => by
    rw [Exec.eval]
    exact rules.andThen (eval addr) fun value _ => rules.andThen (rules.slotKey struct value)
      fun key _ => rules.existsAt key

theorem evalAll : (es : List Expr) →
    J _ (evalAll setup invoke es) fun values => ∀ value ∈ values, p value
  | [] => by
    rw [Exec.evalAll]
    exact rules.pure (by simp)
  | e :: es => by
    rw [Exec.evalAll]
    exact rules.andThen (eval e) fun _ here => rules.andThen (evalAll es) fun _ others =>
      rules.pure (List.forall_mem_cons.mpr ⟨here, others⟩)

theorem evalFields : (fields : List (String × Expr)) →
    J _ (evalFields setup invoke fields) fun given => ∀ entry ∈ given, p entry.2
  | [] => by
    rw [Exec.evalFields]
    exact rules.pure (by simp)
  | (field, e) :: rest => by
    rw [Exec.evalFields]
    exact rules.andThen (eval e) fun _ here => rules.andThen (evalFields rest) fun _ others =>
      rules.pure (List.forall_mem_cons.mpr ⟨here, others⟩)

end

/-- Either arm may be taken. -/
theorem branch {cond : Expr} {onTrue : List Stmt} {onFalse : Option (List Stmt)}
    (whenTrue : J _ (Exec.runAll setup invoke onTrue) (Flow.Returns p))
    (whenFalse : ∀ stmts ∈ onFalse, J _ (Exec.runAll setup invoke stmts) (Flow.Returns p)) :
    J _ (Exec.run setup invoke (.branch cond onTrue onFalse)) (Flow.Returns p) := by
  rw [Exec.run]
  refine rules.andThen (rules.eval cond) fun value _ => rules.andThen (rules.asBool value)
    fun flag _ => ?_
  cases flag with
  | true => exact rules.inScope whenTrue
  | false => exact rules.runOtherwise whenFalse

mutual

theorem run : (stmt : Stmt) → J _ (run setup invoke stmt) (Flow.Returns p)
  | .bind name _ value => by
    rw [Exec.run]
    exact rules.andThen (rules.eval value) fun _ here => rules.andThen (rules.bindLocal name here)
      fun _ _ => rules.pure trivial
  | .unpack _ fields value => by
    rw [Exec.run]
    exact rules.andThen (rules.eval value) fun _ here => rules.andThen (rules.unpack fields here)
      fun _ _ => rules.pure trivial
  | .assign name value => by
    rw [Exec.run]
    exact rules.andThen (rules.eval value) fun _ here => rules.andThen (rules.assign name here)
      fun _ _ => rules.pure trivial
  | .write target value => by
    rw [Exec.run]
    exact rules.andThen (rules.eval value) fun _ here => rules.andThen (rules.eval target)
      fun _ there => rules.andThen (rules.writeThrough there here) fun _ _ => rules.pure trivial
  | .branch _ onTrue none =>
    rules.branch (runAll onTrue) fun _ never => absurd never (Option.not_mem_none _)
  | .branch _ onTrue (some onFalse) =>
    rules.branch (runAll onTrue) fun _ same => Option.some.inj same ▸ runAll onFalse
  | .loop cond body => by
    rw [Exec.run]
    exact rules.repeatWhile (rules.andThen (rules.eval cond) fun value _ => rules.asBool value)
      (rules.inScope (runAll body)) setup.loopBound
  | .ret none => by
    rw [Exec.run]
    exact rules.pure (rules.hereditary.scalar rfl)
  | .ret (some value) => by
    rw [Exec.run]
    exact rules.andThen (rules.eval value) fun _ here => rules.pure here
  | .abort code => by
    rw [Exec.run]
    refine rules.andThen (rules.eval code) fun value _ => ?_
    cases value with
    | u64 number => exact rules.abort number
    | _ => exact rules.stop _
  | .assert cond code => by
    rw [Exec.run]
    refine rules.andThen (rules.eval cond) fun value _ => rules.andThen (rules.asBool value)
      fun flag _ => ?_
    cases flag with
    | true => exact rules.pure trivial
    | false => exact rules.abort code
  | .eval value => by
    rw [Exec.run]
    exact rules.andThen (rules.eval value) fun _ _ => rules.pure trivial

theorem runAll : (stmts : List Stmt) → J _ (runAll setup invoke stmts) (Flow.Returns p)
  | [] => by
    rw [Exec.runAll]
    exact rules.pure trivial
  | stmt :: stmts => by
    rw [Exec.runAll]
    refine rules.bind (fun flow => ?_) (run stmt) fun flow returns => ?_
    · cases flow <;> infer_instance
    · cases flow with
      | next => exact runAll stmts
      | ret value => exact rules.pure returns

end

theorem runBody (decl : FunctionDecl) : J _ (runBody setup invoke decl) p := by
  refine rules.andThen (rules.inScope (rules.runAll decl.body)) fun flow returns => ?_
  cases flow with
  | next => exact rules.pure (rules.hereditary.scalar rfl)
  | ret value => exact rules.pure returns

end Judges

end Custody.Exec
