import Custody.Proofs.Execution.Expressions
/-!
# Accepted operations

Operators, structs, vectors and storage. An operation has its operands evaluated one after another;
those that wait keep what they borrowed, which is what makes a body steady. Packing a struct counts
it on the books at the moment its fields come off them, and storing a value moves it from the
running call into storage. A slot is emptied only where no loan is for it, and filled only where it
was empty, so that nothing a reference leads to is lost.
-/

namespace Custody

open Exec Check Value

variable {ty : Ty} {left right value : Value} {op : BinOp} {s' : BodyState} {u : Universe}
  {addr : Expr} {read : List String} {invoke : Invoke} {a : Activation} {setup : Setup}
  {s : BodyState} {m : Machine} {sum : Int} {struct : StructExpr} {inner : Expr}

/-! ## Operators -/

section Operators

variable {ids : LoanSet}

theorem weigh_bool (weight : StructId → Nat) (flag : Bool) : (bool flag).weigh weight = 0 := by
  simp [weigh]

theorem sound_not (valid : a.Valid) (sound : Sound setup invoke a read inner) :
    Sound setup invoke a read (.not inner) := by
  intro s sum m ready
  refine ready.unary valid sound (negate a.ctx) rfl rfl rfl rfl rfl ?_
  intro operand s' value m' accepted formed clean same after holds
  obtain ⟨flow, step⟩ := negate_accepted clean
  refine (ensures_asBool holds flow).bind ?_
  rintro flag _ ⟨rfl, rfl⟩
  refine ensures_pure ⟨_, _, ready.accepted valid (same.trans step), ?_, .of_value rfl rfl⟩
  exact after.of_sum (by simp [weigh_bool])

theorem ensures_signerOf (valid : a.Valid) (agrees : Agrees a read s sum m)
    (bindable : a.ctx.Bindable ty) (holds : Holds a s ids m ty value)
    (signer : ty.referent?.getD ty = .signer) :
    Ensures a.toTerms (signerOf value) m fun _ m' => After a read s m s sum m' := by
  refine (ensures_readThrough valid agrees bindable holds).bind ?_
  rintro found m' ⟨conforms, after⟩
  rw [signer] at conforms
  obtain ⟨address, rfl⟩ := eq_signer_of_conformsTo conforms
  exact ensures_pure after

/-- Signers and references to them weigh nothing. -/
theorem weigh_of_signer (holds : Holds a s ids m ty value)
    (signer : ty.referent?.getD ty = .signer) : value.weigh a.weight = 0 := by
  have conforms := holds.conforms
  cases ty <;> cases value <;>
    simp_all [Ty.referent?, Ty.subst, conformsTo, weigh]

theorem sound_signerAddress (valid : a.Valid) (sound : Sound setup invoke a read inner) :
    Sound setup invoke a read (.signerAddress inner) := by
  intro s sum m ready
  refine ready.unary valid sound (signerAddress a.ctx) rfl rfl rfl rfl rfl ?_
  intro operand s' value m' accepted formed clean same after holds
  obtain ⟨loans, signer, step, releases⟩ := signerAddress_accepted clean
  refine (ensures_signerOf valid after.agrees accepted.bindable holds signer).bind ?_
  intro address m'' after'
  refine ensures_pure ⟨_, _, ready.accepted valid (same.trans step), ?_, .of_value rfl rfl⟩
  exact ((after.trans after').trans (.release valid formed releases s'.access after'.agrees)).of_sum
    (by simp [weigh_of_signer holds signer, weigh])

/-! ### Two operands -/

theorem compareValues_integer (op : BinOp) (isInteger : ty.isInteger = true)
    (leftConforms : left.conformsTo u ty = true) (rightConforms : right.conformsTo u ty = true) :
    ∃ flag, op.compareValues left right = .ok (.bool flag) := by
  cases ty <;> simp [Ty.isInteger] at isInteger
  all_goals
    cases left <;> simp [conformsTo] at leftConforms
    cases right <;> simp [conformsTo] at rightConforms
    exact ⟨_, rfl⟩

theorem combineValues_integer (weight : StructId → Nat) (op : BinOp)
    (isInteger : ty.isInteger = true) (leftConforms : left.conformsTo u ty = true)
    (rightConforms : right.conformsTo u ty = true) :
    (∃ fault, op.combineValues left right = .ok (.error fault)) ∨
      ∃ value, op.combineValues left right = .ok (.ok value) ∧ value.conformsTo u ty = true ∧
        value.weigh weight = 0 := by
  cases ty <;> simp [Ty.isInteger] at isInteger
  all_goals
    cases left <;> simp [conformsTo] at leftConforms
    cases right <;> simp [conformsTo] at rightConforms
    rename_i leftNumber rightNumber
    simp only [BinOp.combineValues]
    cases op.arithmetic leftNumber rightNumber with
    | error fault => exact .inl ⟨fault, rfl⟩
    | ok number => exact .inr ⟨_, rfl, rfl, by simp [weigh]⟩

theorem weigh_of_integer (weight : StructId → Nat) (isInteger : ty.isInteger = true)
    (conforms : value.conformsTo u ty = true) : value.weigh weight = 0 := by
  cases ty <;> simp [Ty.isInteger] at isInteger
  all_goals cases value <;> simp [conformsTo, weigh] at conforms ⊢

theorem subst_of_isInteger {types : List Ty} (isInteger : ty.isInteger = true) :
    ty.subst types = ty := by
  cases ty <;> simp [Ty.isInteger, Ty.subst] at isInteger ⊢

theorem isRef_of_isInteger (isInteger : ty.isInteger = true) : ty.isRef = false := by
  cases ty <;> simp [Ty.isInteger, Ty.isRef] at isInteger ⊢

theorem ensures_combine (isInteger : ty.isInteger = true)
    (leftConforms : left.conformsTo a.ctx.types ty = true)
    (rightConforms : right.conformsTo a.ctx.types ty = true) :
    Ensures a.toTerms (do
      match ← Exec.sound (op.combineValues left right) with
      | .ok value => return value
      | .error fault => fail (.arithmetic op fault (← get).current.function)) m fun value m' =>
      value.conformsTo a.ctx.types ty = true ∧ value.weigh a.weight = 0 ∧ m = m' := by
  rcases combineValues_integer a.weight op isInteger leftConforms rightConforms with
    ⟨fault, result⟩ | ⟨value, result, conforms, light⟩
  · exact ensures_bind_sound result (ensures_get (ensures_fail rfl))
  · exact ensures_bind_sound result (ensures_pure ⟨conforms, light, rfl⟩)

/-- Arithmetic and order on numbers of one width. -/
theorem ensures_integer (integer : (op.isArithmetic || op.isOrdering) = true)
    (isInteger : ty.isInteger = true) (leftConforms : left.conformsTo a.ctx.types ty = true)
    (rightConforms : right.conformsTo a.ctx.types ty = true) :
    Ensures a.toTerms (binary op left right) m fun value m' =>
      value.conformsTo a.ctx.types (if op.isArithmetic then ty else .bool) = true ∧
        value.weigh a.weight = 0 ∧ m = m' := by
  have ordered : Ensures a.toTerms (Exec.sound (op.compareValues left right)) m fun value m' =>
      value.conformsTo a.ctx.types .bool = true ∧ value.weigh a.weight = 0 ∧ m = m' := by
    obtain ⟨flag, compared⟩ := compareValues_integer op isInteger leftConforms rightConforms
    exact ensures_sound compared ⟨rfl, weigh_bool _ _, rfl⟩
  cases op with
  | add | sub | mul | div | mod => exact ensures_combine isInteger leftConforms rightConforms
  | lt | le | gt | ge => exact ordered
  | eq | neq | and | or => cases integer

/-- An expression with two operands is guarded where they are. -/
theorem Ready.guarded_both {e left right : Expr} {operand : Operand}
    (ready : Ready a read e s sum m)
    (both : guardedExpr a.guard a.ctx e s = (guardedExpr a.guard a.ctx left s &&
      guardedExpr a.guard a.ctx right (expr a.ctx left s).2))
    (accepted : Accepted a.ctx s left operand s') :
    (a.held → guardedExpr a.guard a.ctx left s = true) ∧
      (a.held → guardedExpr a.guard a.ctx right s' = true) := by
  have guarded := ready.guarded
  rw [both, accepted.result, Bool.and_eq_true] at guarded
  exact ⟨fun held => (guarded held).1, fun held => (guarded held).2⟩

theorem sound_eager (valid : a.Valid) {left right : Expr} (eager : op.isLogical = false)
    (soundLeft : Sound setup invoke a read left) (soundRight : Sound setup invoke a read right) :
    Sound setup invoke a read (.binary op left right) := by
  intro s sum m ready
  obtain ⟨leftOperand, s', rightOperand, s'', acceptedLeft, acceptedRight, clean, same⟩ :=
    eager_accepted eager (walks_expr valid.declared left)
      (walks_expr valid.declared right) ready.formed ready.clean
  obtain ⟨namesLeft, namesRight⟩ := List.append_subset.mp (by simpa [Expr.names] using ready.names)
  have steady := ready.steady
  simp only [steadyExpr, eager, acceptedLeft.result, acceptedRight.result, Bool.and_eq_true,
    Bool.false_eq_true, if_false] at steady
  obtain ⟨⟨steadyLeft, steadyRight⟩, stays⟩ := steady
  obtain ⟨guardedLeft, guardedRight⟩ := ready.guarded_both rfl acceptedLeft
  have formed' := acceptedLeft.walked.formed ready.formed
  have formed'' := acceptedRight.walked.formed formed'
  rw [eval_eager eager]
  refine (soundLeft.ensures acceptedLeft ready.formed steadyLeft guardedLeft namesLeft
    ready.agrees).bind ?_
  rintro leftValue m' ⟨after, leftHolds⟩
  refine (soundRight.ensures acceptedRight formed' steadyRight guardedRight namesRight
    after.agrees).bind ?_
  rintro rightValue m'' ⟨after', rightHolds⟩
  -- The left operand has waited for the right one.
  replace leftHolds := leftHolds.after after' formed' acceptedRight.walked stays
  have moved := after.trans after'
  cases integer : op.isArithmetic || op.isOrdering with
  | true =>
    obtain ⟨isInteger, flow, step⟩ := binary_accepted_integer integer clean
    have leftConforms := leftHolds.conforms
    have rightConforms := (rightHolds.flows flow).conforms
    rw [subst_of_isInteger isInteger] at leftConforms rightConforms
    refine (ensures_integer integer isInteger leftConforms rightConforms).mono ?_
    rintro value _ ⟨conforms, light, rfl⟩
    refine ⟨_, _, ready.accepted valid (same.trans step), ?_, ?_⟩
    · exact moved.of_sum (by simp [light, weigh_of_integer a.weight isInteger leftConforms,
        weigh_of_integer a.weight isInteger rightConforms])
    · cases arithmetic : op.isArithmetic <;> simp only [arithmetic, if_true, Bool.false_eq_true,
        if_false] at conforms ⊢
      · exact .of_value rfl conforms
      · exact .of_value (isRef_of_isInteger isInteger) (by rwa [subst_of_isInteger isInteger])
  | false =>
    obtain ⟨loans, flow, drops, step, releases⟩ := binary_accepted_equality integer clean
    have leftLight := valid.weigh_eq_zero acceptedLeft.bindable .drop rfl drops leftHolds.conforms
    have rightLight := valid.weigh_eq_zero acceptedLeft.bindable .drop rfl drops
      (rightHolds.flows flow).conforms
    -- Both sides are read through before they are compared.
    have compared : ∀ decide : Value → Value → Bool, Ensures a.toTerms (do
        let leftRead ← readThrough leftValue
        let rightRead ← readThrough rightValue
        return bool (decide leftRead rightRead)) m''
          (Evaluated a read (.binary op left right) s sum m) := by
      intro decide
      refine (ensures_readThrough valid moved.agrees acceptedLeft.bindable leftHolds).bind ?_
      rintro leftRead n ⟨_, afterLeft⟩
      refine (ensures_readThrough valid afterLeft.agrees acceptedRight.bindable
        (rightHolds.along afterLeft formed'')).bind ?_
      rintro rightRead n' ⟨_, afterRight⟩
      refine ensures_pure ⟨_, _, ready.accepted valid (same.trans step), ?_, .of_value rfl rfl⟩
      have read := (moved.trans afterLeft).trans afterRight
      exact (read.trans (.release valid formed'' releases s''.access read.agrees)).of_sum
        (by simp [leftLight, rightLight, weigh_bool])
    cases op with
    | eq | neq => exact compared _
    | and | or => cases eager
    | _ => cases integer

/-! ### The operators that may leave out an operand -/

theorem slots_truncate_of_size {locals : Locals} {size : Nat} (same : locals.size = size) :
    (locals.truncate size).slots = locals.slots :=
  List.take_of_length_le (Nat.le_of_eq same)

theorem forgets_joined_skipped (walked : Walked s s') : Forgets a read s (joined s s') := by
  have same : (s'.locals.truncate s.locals.size).shapes =
      (s.locals.truncate s.locals.size).shapes := by
    rw [Locals.shapes_truncate, Locals.shapes_truncate, walked.same]
  refine Forgets.trans (forgets_of_slots ?_ ?_) (forgets_merged_last false same)
  · exact slots_truncate_of_size rfl
  · exact fun id loan granted => granted

theorem forgets_joined_taken (formed : Formed a.ctx s) (walked : Walked s s') :
    Forgets a read s' (joined s s') := by
  have same : (s.locals.truncate s.locals.size).shapes =
      (s'.locals.truncate s.locals.size).shapes := by
    rw [Locals.shapes_truncate, Locals.shapes_truncate, walked.same]
  refine Forgets.trans (forgets_of_slots ?_ ?_) (forgets_merged_first false same ?_)
  · exact slots_truncate_of_size walked.size
  · exact fun id loan granted => granted
  · exact fun id loan other here there => Loans.Follows.agree formed.bounded walked.follows
      walked.bounded (Loans.Follows.refl _) here there

/-- If no loan went on the way, every loan behind it was there on the way. -/
theorem follows_joined (walked : Walked s s')
    (stays : stay s.loans.live.keys s.loans s'.loans = true) (bounded : s.loans.Bounded) :
    s'.loans.Follows (joined s s').loans := by
  refine ⟨Nat.le_max_right _ _, ?_⟩
  intro id loan _ found
  have either : ((s.loans.continueFrom s'.loans).join s'.loans).get? id = some loan := found
  rw [Loans.get?_join, Loans.get?_continueFrom] at either
  cases before : s.loans.get? id with
  | none => simpa [before] using either
  | some old =>
    obtain rfl : old = loan := by simpa [before] using either
    have listed : id ∈ s.loans.live.keys := Table.mem_keys_of_get? before
    have still := List.all_eq_true.mp stays id listed
    rw [before] at still
    obtain ⟨now, there⟩ := Option.isSome_iff_exists.mp (by simpa using still)
    have same := walked.follows.old (bounded _ _ before) there
    rw [there, ← same, before]

theorem sound_logical (valid : a.Valid) {left right : Expr} (lazy : op.isLogical = true)
    (soundLeft : Sound setup invoke a read left) (soundRight : Sound setup invoke a read right) :
    Sound setup invoke a read (.binary op left right) := by
  intro s sum m ready
  obtain ⟨leftOperand, s', rightOperand, s'', acceptedLeft, acceptedRight, leftFlow,
    rightFlow, same⟩ :=
    logical_accepted_operands lazy (walks_expr valid.declared left)
      (walks_expr valid.declared right) ready.formed ready.clean
  obtain ⟨namesLeft, namesRight⟩ := List.append_subset.mp (by simpa [Expr.names] using ready.names)
  have steady := ready.steady
  simp only [steadyExpr, lazy, acceptedLeft.result, acceptedRight.result, Bool.and_eq_true,
    if_true] at steady
  obtain ⟨⟨steadyLeft, steadyRight⟩, stays⟩ := steady
  obtain ⟨guardedLeft, guardedRight⟩ := ready.guarded_both rfl acceptedLeft
  have formed' := acceptedLeft.walked.formed ready.formed
  have formed'' := acceptedRight.walked.formed formed'
  have accepted := ready.accepted valid same
  have follows := follows_joined acceptedRight.walked stays formed'.bounded
  have skipped : ∀ {m'}, After a read s m s' sum m' → ∀ result : Bool,
      Ensures a.toTerms (pure (.bool result)) m'
      (Evaluated a read (.binary op left right) s sum m) := by
    intro m' after result
    refine ensures_pure ⟨_, _, accepted, ?_, .of_value rfl rfl⟩
    exact (after.trans (.forget valid formed' (forgets_joined_skipped acceptedRight.walked)
      (acceptedRight.walked.follows.trans follows) after.agrees)).of_sum (by simp [weigh_bool])
  have taken : ∀ {m'}, After a read s m s' sum m' → Ensures a.toTerms (do
      return .bool (← asBool (← eval setup invoke right))) m'
        (Evaluated a read (.binary op left right) s sum m) := by
    intro m' after
    refine (soundRight.ensures acceptedRight formed' steadyRight guardedRight namesRight
      after.agrees).bind ?_
    rintro rightValue m'' ⟨after', rightHolds⟩
    refine (ensures_asBool rightHolds rightFlow).bind ?_
    rintro flag _ ⟨rfl, rfl⟩
    refine ensures_pure ⟨_, _, accepted, ?_, .of_value rfl rfl⟩
    exact (after.trans (after'.trans (.forget valid formed''
      (forgets_joined_taken formed' acceptedRight.walked) follows after'.agrees))).of_sum
        (by simp [weigh_bool])
  have first := soundLeft.ensures acceptedLeft ready.formed steadyLeft guardedLeft namesLeft
    ready.agrees
  cases op with
  | and | or =>
    rw [eval]
    refine first.bind ?_
    rintro leftValue m' ⟨after, leftHolds⟩
    refine (ensures_asBool leftHolds leftFlow).bind ?_
    rintro flag _ ⟨rfl, rfl⟩
    rw [weigh_bool, Int.ofNat_zero, Int.sub_zero] at after
    cases flag <;> first | exact taken after | exact skipped after _
  | _ => cases lazy

end Operators

/-! ## Several operands -/

/-- Every expression of a list is evaluated, and the values in waiting still hold behind the
last. -/
def SoundAll (setup : Setup) (invoke : Invoke) (a : Activation) (read : List String)
    (es : List Expr) : Prop :=
  ∀ s sum m operands s', AcceptedAll a.ctx s es operands s' → Formed a.ctx s →
    steadyExprs a.ctx es s = true →
    (a.held → guardedExprs a.guard a.ctx es s = true) → Expr.allNames es ⊆ read →
    Agrees a read s sum m →
    Ensures a.toTerms (evalAll setup invoke es) m fun values m' =>
      After a read s m s' (sum - weighAll a.weight values) m' ∧
        List.Forall₂ (fun operand value => Holds a s' operand.loans m' operand.ty value)
          operands values

section Lists

theorem soundAll_nil : SoundAll setup invoke a read [] := by
  intro s sum m operands s' accepted formed steady guarded names agrees
  have result := accepted.result
  rw [exprs] at result
  obtain ⟨same, rfl⟩ := Prod.mk.inj result
  obtain rfl : operands = [] := List.map_eq_nil_iff.mp same.symm
  rw [evalAll]
  exact ensures_pure ⟨(After.refl agrees).of_sum (by simp [weighAll]), .nil⟩

theorem soundAll_cons (valid : a.Valid) {e : Expr} {es : List Expr}
    (sound : Sound setup invoke a read e) (soundAll : SoundAll setup invoke a read es) :
    SoundAll setup invoke a read (e :: es) := by
  intro s sum m operands s' accepted formed steady guarded names agrees
  have clean : (exprs a.ctx (e :: es) s).2.problems = [] := by
    rw [accepted.result]
    exact accepted.clean
  obtain ⟨operand, between, others, s'', head, tail, same⟩ := exprs_cons_accepted
    (walks_expr valid.declared e) (walks_exprs valid.declared es) formed clean
  obtain ⟨listed, rfl⟩ := Prod.mk.inj (same.symm.trans accepted.result)
  obtain rfl := (List.map_inj_right fun _ _ => Option.some.inj).mp listed
  obtain ⟨namesHead, namesTail⟩ := List.append_subset.mp (by simpa [Expr.allNames] using names)
  simp only [steadyExprs, head.result, tail.result, Bool.and_eq_true] at steady
  obtain ⟨⟨steadyHead, steadyTail⟩, stays⟩ := steady
  simp only [guardedExprs, head.result, Bool.and_eq_true] at guarded
  have formed' := head.walked.formed formed
  rw [evalAll]
  refine (sound.ensures head formed steadyHead (fun held => (guarded held).1) namesHead agrees).bind
    ?_
  rintro value m' ⟨after, holds⟩
  refine (soundAll _ _ _ _ _ tail formed' steadyTail (fun held => (guarded held).2) namesTail
    after.agrees).bind ?_
  rintro values m'' ⟨after', holdAll⟩
  refine ensures_pure ⟨(after.trans after').of_sum ?_, .cons ?_ holdAll⟩
  · simp only [weighAll, Nat.cast_add]
    ring
  · exact holds.after after' formed' tail.walked stays

/-! ### Vectors -/

theorem sound_vector (valid : a.Valid) {elem : TypeExpr} {items : List Expr}
    (soundAll : SoundAll setup invoke a read items) :
    Sound setup invoke a read (.vector elem items) := by
  intro s sum m ready
  obtain ⟨operands, s', accepted, clean, same⟩ := several_accepted (vector a.ctx elem)
    rfl (walks_exprs valid.declared items) ready.formed ready.clean
  obtain ⟨ty, resolved, flows, step⟩ := vector_accepted clean
  rw [eval]
  refine (soundAll _ _ _ _ _ accepted ready.formed (by simpa [steadyExpr] using ready.steady)
    (by simpa [guardedExpr] using ready.guarded) (by simpa [Expr.names] using ready.names)
    ready.agrees).bind ?_
  rintro values m' ⟨after, holdAll⟩
  refine ensures_pure ⟨_, _, ready.accepted valid (same.trans step), ?_, .of_value rfl ?_⟩
  · exact after.of_sum (by simp [weigh])
  · simp only [Ty.subst, conformsTo, allConformTo_iff]
    intro value member
    obtain ⟨operand, listed, holds⟩ := exists_of_forall₂ holdAll.flip _ member
    exact (holds.flows (flows operand listed)).conforms

end Lists

/-! ## Structs -/

section Structs

variable (valid : a.Valid) (agrees : Agrees a read s sum m)

include valid agrees

/-- The tally changes nothing but the worth of the machine. -/
theorem after_tally (tally : Tally) {change : Int}
    (worth : ({ m with tally := tally } : Machine).worth a.weight = m.worth a.weight + change) :
    After a read s m s (sum + change) { m with tally := tally } := by
  have around := agrees.surroundings
  have surroundings : Surroundings a { m with tally := tally } :=
    ⟨around.below, around.stored, around.faithful, around.hosts, around.signers⟩
  exact .of_quiet valid agrees ⟨rfl, rfl, rfl, rfl, fun _ _ => rfl⟩ surroundings worth

/-- Counting a struct made takes its weight off the books. -/
theorem ensures_countPacked (id : StructId) :
    Ensures a.toTerms (countPacked id) m fun _ m' => After a read s m s (sum - a.weight id) m' := by
  refine ensures_modify rfl (after_tally valid agrees _ ?_)
  simp only [Machine.worth, List.map_cons, List.sum_cons, Nat.cast_add]
  ring

/-- Counting a struct taken apart puts its weight on the books. -/
theorem ensures_countUnpacked (id : StructId) :
    Ensures a.toTerms (countUnpacked id) m fun _ m' => After a read s m s
    (sum + a.weight id) m' := by
  refine ensures_modify rfl (after_tally valid agrees _ ?_)
  simp only [Machine.worth, List.map_cons, List.sum_cons, Nat.cast_add]
  ring

/-- The rest of the tally is worth nothing. -/
theorem after_log {tally : Tally} (packed : tally.packed = m.tally.packed)
    (unpacked : tally.unpacked = m.tally.unpacked) :
    After a read s m s sum { m with tally := tally } := by
  have same : ({ m with tally := tally } : Machine).worth a.weight = m.worth a.weight + 0 := by
    simp [Machine.worth, packed, unpacked]
  exact (after_tally valid agrees tally same).of_sum (Int.add_zero sum)

theorem ensures_countReached (use : StructUse) (key : SlotKey) :
    Ensures a.toTerms (countReached use key) m fun _ m' => After a read s m s sum m' ∧
      ((use = .moveFrom ∨ ∃ mutable, use = .borrowGlobal mutable) → Seeks key m') :=
  ensures_modify rfl ⟨after_log valid agrees rfl rfl, fun seeking => ⟨_, rfl, rfl, seeking⟩⟩

omit valid agrees

theorem lookup_map_snd {α β : Type} (change : α → β) (fields : List (String × α)) (name : String) :
    (fields.map fun field => (field.1, change field.2)).lookup name = (fields.lookup name).map
    change := by
  induction fields with
  | nil => rfl
  | cons field rest ih =>
    obtain ⟨other, value⟩ := field
    simp only [List.map_cons, List.lookup_cons]
    cases name == other <;> simp [ih]

/-- A struct is made of values that fit its fields. -/
theorem ensures_pack (types : setup.program.types = a.ctx.types) (valid : a.Valid)
    (agrees : Agrees a read s sum m) {tag : StructTag} {definition : StructDef}
    (resolved : a.ctx.Names struct tag)
    (found : a.ctx.types.struct? tag.id = some definition) {given : List (String × Value)}
    (covers : (given.map (·.1)).Perm definition.names)
    (conform : ∀ entry ∈ given, ∀ ty, (definition.fieldsAt tag.args).lookup entry.1 = some ty →
      entry.2.conformsTo a.ctx.types (ty.subst a.types) = true) :
    Ensures a.toTerms (Exec.pack setup struct given) m fun value m' =>
      value.conformsTo a.ctx.types (tag.ty.subst a.types) = true ∧
        After a read s m s
          (sum + weighAll a.weight (given.map (·.2)) - value.weigh a.weight) m' := by
  have distinct : definition.names.Nodup := valid.declared.fields_nodup found
  have plain : a.ctx.types.isPlain _ (.struct tag.id tag.args) = true :=
    Universe.isPlain_resolveStruct resolved
  obtain ⟨⟨definition', found', length⟩, _⟩ := Universe.isPlain_struct_iff.mp plain
  obtain rfl : definition = definition' := Option.mem_unique found found'
  have found'' : a.ctx.types.struct? (tag.subst a.types).id = some definition := found
  refine (ensures_resolveStruct types agrees.frame resolved).bind ?_
  rintro _ _ ⟨rfl, rfl⟩
  refine (ensures_structDef types found'').bind ?_
  rintro _ _ ⟨rfl, rfl⟩
  refine ensures_bind_sound (StructDef.pack_eq_ok distinct _ covers) ?_
  refine (ensures_countPacked valid agrees tag.id).bind ?_
  intro _ m' counted
  refine ensures_pure ⟨?_, counted.of_sum ?_⟩
  · rw [← StructTag.ty_subst]
    refine StructDef.conformsTo_arranged found'' covers ?_ distinct
    intro entry member ty expected
    have mapped : (definition.fieldsAt (tag.subst a.types).args).lookup entry.1 =
        ((definition.fieldsAt tag.args).lookup entry.1).map (·.subst a.types) := by
      rw [← lookup_map_snd,
        ← Universe.fieldsAt_substAll (valid.declared.fields_plain found) (Nat.le_of_eq length)]
      rfl
    rw [mapped] at expected
    obtain ⟨written, listed, rfl⟩ := Option.map_eq_some_iff.mp expected
    exact conform entry member written listed
  · rw [weigh, StructDef.weighAll_arranged distinct covers]
    push_cast
    simp only [StructTag.subst]
    ring

theorem evalFields_eq (fields : List (String × Expr)) :
    evalFields setup invoke fields = (do
      return (fields.map (·.1)).zip (← evalAll setup invoke (fields.map (·.2)))) := by
  induction fields with
  | nil => simp [evalFields, evalAll]
  | cons field fields ih => simp [evalFields, evalAll, ih]

theorem steadyFields_eq (ctx : BodyContext) (fields : List (String × Expr)) (s : BodyState) :
    steadyFields ctx fields s = steadyExprs ctx (fields.map (·.2)) s := by
  induction fields generalizing s with
  | nil => simp [steadyFields, steadyExprs]
  | cons field fields ih => simp [steadyFields, steadyExprs, ih, fieldValues_apply]

theorem guardedFields_eq (guard : Guard) (ctx : BodyContext) (fields : List (String × Expr))
    (s : BodyState) :
    guardedFields guard ctx fields s = guardedExprs guard ctx (fields.map (·.2)) s := by
  induction fields generalizing s with
  | nil => simp [guardedFields, guardedExprs]
  | cons field fields ih => simp [guardedFields, guardedExprs, ih]

theorem fieldNames_eq (fields : List (String × Expr)) :
    Expr.fieldNames fields = Expr.allNames (fields.map (·.2)) := by
  induction fields with
  | nil => simp [Expr.fieldNames, Expr.allNames]
  | cons field fields ih => simp [Expr.fieldNames, Expr.allNames, ih]

theorem forall₂_zip {α β : Type} {related : α → β → Prop} {lefts : List α} {rights : List β}
    (all : List.Forall₂ related lefts rights) (names : List String) :
    List.Forall₂ (fun left right => left.1 = right.1 ∧ related left.2 right.2)
      (names.zip lefts) (names.zip rights) := by
  induction all generalizing names with
  | nil => simp
  | cons here _ ih =>
    cases names with
    | nil => exact .nil
    | cons name names => exact .cons ⟨rfl, here⟩ (ih names)

theorem sound_pack (types : setup.program.types = a.ctx.types) (valid : a.Valid)
    {fields : List (String × Expr)} (soundAll : SoundAll setup invoke a read (fields.map (·.2))) :
    Sound setup invoke a read (.pack struct fields) := by
  intro s sum m ready
  obtain ⟨operands, s', accepted, clean, same, _⟩ := pack_accepted_operands
    (walks_exprs valid.declared _) ready.formed ready.clean
  obtain ⟨tag, declared, resolved, instantiated, coverage, flows, step⟩ := pack_accepted clean
  obtain ⟨definition, found, rfl⟩ := Option.map_eq_some_iff.mp instantiated
  have covers := StructDef.perm_of_faultless (valid.declared.fields_nodup found) coverage
  have evaluated := soundAll _ _ _ _ _ accepted ready.formed
    (by simpa [steadyExpr, steadyFields_eq] using ready.steady)
    (by simpa [guardedExpr, guardedFields_eq] using ready.guarded)
    (by simpa [Expr.names, fieldNames_eq] using ready.names) ready.agrees
  rw [eval, evalFields_eq, bind_assoc]
  refine evaluated.bind ?_
  rintro values m' ⟨after, each⟩
  rw [pure_bind]
  have holdAll := forall₂_zip each (fields.map (·.1))
  have count : (fields.map (·.1)).length = values.length := by
    rw [← each.length_eq, accepted.count, List.length_map, List.length_map]
  have names : ((fields.map (·.1)).zip operands).map (·.1) =
      ((fields.map (·.1)).zip values).map (·.1) := by
    rw [← List.forall₂_eq_eq_eq, List.forall₂_map_left_iff, List.forall₂_map_right_iff]
    exact holdAll.imp fun _ _ holds => holds.1
  rw [← List.map_snd_zip (Nat.le_of_eq count.symm)] at after
  rw [names] at covers
  refine (ensures_pack types valid after.agrees resolved found covers ?_).mono ?_
  · intro entry member ty expected
    obtain ⟨operand, listed, sameName, holds⟩ := exists_of_forall₂ holdAll.flip _ member
    exact (holds.flows (flows operand listed ty (by rw [sameName]; exact expected))).conforms
  · rintro value m'' ⟨conforms, after'⟩
    refine ⟨_, _, ready.accepted valid (same.trans step), ?_, .of_value rfl conforms⟩
    exact (after.trans after').of_sum (by ring)

end Structs

/-! ## Storage -/

section Storage

/-- A slot was written; if it was filled, the call may reach it and has not lent it. -/
theorem after_record (valid : a.Valid) (agrees : Agrees a read s sum m) (key : SlotKey)
    (entry : Entry) (written : entry.dirty = true)
    (conforms : ∀ {value},
      entry.value = some value → value.conformsTo a.ctx.types key.tag.ty = true)
    (freed : a.held → m.Fills key → key.tag.id ∈ a.reach ∧ ∀ {id loan},
      s.loans.get? id = some loan → ¬ loan.place.IsFor a key) :
    After a read s m s
      (sum + (weighSlot a.weight entry.value - weighSlot a.weight (m.tx.sees m.store key)))
      { m with tx := m.tx.record key entry } := by
  refine .of_allBut valid agrees (.record m key entry) ?_
    (agrees.surroundings.record key entry written conforms) (worth_record m a.weight key entry)
  rintro held _ ⟨⟩ filled
  exact freed held filled

/-- Taking a value out of its slot puts it into the hands of the call. -/
theorem ensures_moveFrom (valid : a.Valid) (agrees : Agrees a read s sum m) {key : SlotKey}
    (seeks : Seeks key m) (freed : a.held → key.tag.id ∈ a.reach ∧ ∀ {id loan},
      s.loans.get? id = some loan → ¬ loan.place.IsFor a key) :
    Ensures a.toTerms (storage fun tx store => tx.moveFrom store key) m fun value m' =>
      value.conformsTo a.ctx.types key.tag.ty = true ∧
        After a read s m s (sum - value.weigh a.weight) m' := by
  cases seen : (m.tx.entry m.store key).value with
  | none =>
    refine ensures_storage ?_ ?_
    · intro value ok
      simp [Transaction.moveFrom, seen] at ok
    · intro failure error
      obtain rfl : .missing key = failure := by simpa [Transaction.moveFrom, seen] using error
      exact .of_seeks fun _ => seeks
  | some value =>
    have visible : m.tx.sees m.store key = some value := seen
    refine ensures_storage ?_ ?_
    · intro found ok
      obtain rfl : value = found := by simpa [Transaction.moveFrom, seen] using ok
      have after := after_record valid agrees key
        { m.tx.entry m.store key with value := none, dirty := true } rfl (by simp)
        fun held _ => freed held
      refine ⟨agrees.surroundings.stored visible, ?_⟩
      simp only [visible, weighSlot_some, weighSlot_none] at after
      simpa [Transaction.moveFrom, seen] using after.of_sum (by simp [Int.sub_eq_add_neg])
    · intro failure error
      simp [Transaction.moveFrom, seen] at error

/-- Filling an empty slot. -/
theorem ensures_moveTo (valid : a.Valid) (agrees : Agrees a read s sum m) (key : SlotKey)
    (conforms : value.conformsTo a.ctx.types key.tag.ty = true) :
    Ensures a.toTerms (storage fun tx store => tx.moveTo store key value) m fun _ m' =>
      After a read s m s (sum + value.weigh a.weight) m' := by
  cases seen : (m.tx.entry m.store key).value with
  | none =>
    have visible : m.tx.sees m.store key = none := seen
    refine ensures_storage ?_ ?_
    · intro _ _
      have after := after_record valid agrees key
        { m.tx.entry m.store key with value := some value, dirty := true } rfl
        (fun same => Option.some.inj same ▸ conforms)
        (fun _ filled => by simp [Machine.Fills, visible] at filled)
      simp only [visible, weighSlot_some, weighSlot_none] at after
      simpa [Transaction.moveTo, seen] using after
    · intro failure error
      simp [Transaction.moveTo, seen] at error
  | some old =>
    refine ensures_storage ?_ ?_
    · intro _ ok
      simp [Transaction.moveTo, seen] at ok
    · intro failure error
      obtain rfl : .alreadyExists key = failure := by simpa [Transaction.moveTo, seen] using error
      exact .of_isOwn rfl

/-- An expression about the slot of a struct at an address. -/
theorem Ready.stored {e addr : Expr} (ready : Ready a read e s sum m) (valid : a.Valid)
    (sound : Sound setup invoke a read addr) (action : StructUse) (struct : StructExpr)
    (next : StructTag → Operand → Check (Option Operand))
    [∀ tag operand, Honest (next tag operand)]
    (form : expr a.ctx e = onStored a.ctx action struct addr next)
    (steady : steadyExpr a.ctx e s = steadyExpr a.ctx addr s)
    (guarded : a.held → guardedExpr a.guard a.ctx addr s = true) (names : e.names = addr.names)
    {step : SlotKey → Exec Value}
    (evals : eval setup invoke e =
      eval setup invoke addr >>= fun value => slotKey setup struct value >>= step)
    (types : setup.program.types = a.ctx.types)
    (flows : ∀ {tag operand s'}, (next tag operand s').2.problems = [] →
      operand.ty.flowsInto .address = true)
    (rest : ∀ {operand s' tag m' key}, Formed a.ctx s' → a.ctx.Names struct tag →
      (next tag operand s').2.problems = [] → expr a.ctx e s = next tag operand s' →
      After a read s m s' sum m' → key.tag = tag.subst a.types →
      Ensures a.toTerms (step key) m' (Evaluated a read e s sum m)) :
    Ensures a.toTerms (eval setup invoke e) m (Evaluated a read e s sum m) := by
  obtain ⟨operand, s', tag, accepted, resolved, _, clean, same⟩ := stored_accepted action
    struct next form (walks_expr valid.declared addr) ready.formed ready.clean
  rw [evals]
  refine (sound.ensures accepted ready.formed (steady ▸ ready.steady) guarded (names ▸ ready.names)
    ready.agrees).bind ?_
  rintro value m' ⟨after, holds⟩
  refine (ensures_slotKey types after.agrees.frame resolved holds (flows clean)).bind ?_
  rintro key _ ⟨tagged, light, rfl⟩
  exact rest (accepted.walked.formed ready.formed) resolved clean same
    (after.of_sum (by simp [light])) tagged

/-- The struct of a guarded operation on storage is reached. -/
theorem reach_of_reachesStruct {tag : StructTag}
    (reaches : reachesStruct a.guard a.ctx struct = true)
    (resolved : a.ctx.Names struct tag) : tag.id ∈ a.reach := by
  rw [reachesStruct, resolved] at reaches
  exact SortedSet.contains_iff.mp reaches

variable (types : setup.program.types = a.ctx.types) (valid : a.Valid)

include types valid

theorem sound_moveFrom (struct : StructExpr) (sound : Sound setup invoke a read addr) :
    Sound setup invoke a read (.moveFrom struct addr) := by
  intro s sum m ready
  have guarded := ready.guarded
  rw [guardedExpr, Bool.and_eq_true] at guarded
  refine ready.stored valid sound .moveFrom struct (moveFrom a.ctx) rfl rfl
    (fun held => (guarded held).1) rfl rfl types ?_ ?_
  · intro tag operand s' clean
    obtain ⟨_, flow, _⟩ := moveFrom_accepted clean
    exact flow
  · intro operand s' tag m' key formed resolved clean same after tagged
    obtain ⟨access, _, free, step, _⟩ := moveFrom_accepted clean
    refine (ensures_countReached valid after.agrees .moveFrom key).bind ?_
    rintro _ n ⟨counted, seeks⟩
    have freed : a.held → key.tag.id ∈ a.reach ∧ ∀ {id loan}, s'.loans.get? id = some loan →
        ¬ loan.place.IsFor a key := by
      intro held
      have reached : tag.id ∈ a.reach := reach_of_reachesStruct (guarded held).2 resolved
      rw [tagged]
      refine ⟨reached, ?_⟩
      rintro _ _ granted ⟨tag', rooted, same⟩
      exact Loans.subst_ne_of_conflicting?_eq_none (Universe.isPlain_resolveStruct resolved) free
        granted rooted (same.symm.trans tagged)
    refine (ensures_moveFrom valid counted.agrees (seeks (.inl rfl)) freed).mono ?_
    rintro value m'' ⟨conforms, after'⟩
    rw [tagged, StructTag.ty_subst] at conforms
    refine ⟨_, _, ready.accepted valid (same.trans step), ?_, .of_value rfl conforms⟩
    exact ((after.trans counted).trans after').trans (.forget valid formed
      (forgets_of_slots rfl fun _ _ found => found) (Loans.Follows.refl _) after'.agrees)

theorem sound_borrowGlobal (struct : StructExpr) (mutable : Bool)
    (sound : Sound setup invoke a read addr) :
    Sound setup invoke a read (.borrowGlobal struct mutable addr) := by
  intro s sum m ready
  have guarded := ready.guarded
  rw [guardedExpr, Bool.and_eq_true] at guarded
  refine ready.stored valid sound (.borrowGlobal mutable) struct
    (borrowGlobal a.ctx · mutable) rfl rfl (fun held => (guarded held).1) rfl rfl types ?_ ?_
  · intro tag operand s' clean
    obtain ⟨_, flow, _⟩ := borrowGlobal_accepted clean
    exact flow
  · intro operand s' tag m' key formed resolved clean same after tagged
    obtain ⟨access, _, step, _⟩ := borrowGlobal_accepted clean
    refine (ensures_countReached valid after.agrees (.borrowGlobal mutable) key).bind ?_
    rintro _ n ⟨counted, seeks⟩
    refine (ensures_readSlot valid counted.agrees fun _ => seeks (.inr ⟨mutable, rfl⟩)).bind ?_
    rintro value m'' ⟨_, after', filled⟩
    refine ensures_pure ⟨_, _, ready.accepted valid (same.trans step), ?_, .of_reference ?_⟩
    · exact (((after.trans counted).trans after').trans
        (.grant valid formed _ access after'.agrees)).of_sum (by simp [weigh])
    · refine ⟨fun kept => kept, ⟨_, rfl, ?_⟩, by simp, fun held => ?_, ?_⟩
      · rw [tagged, StructTag.ty_subst]
        rfl
      · exact traced_granted _ rfl (.global (Universe.isPlain_resolveStruct resolved)
          (reach_of_reachesStruct (guarded held).2 resolved) rfl tagged) access
      · rintro _ _ ⟨⟩
        exact filled

theorem sound_existsAt (struct : StructExpr) (sound : Sound setup invoke a read addr) :
    Sound setup invoke a read (.existsAt struct addr) := by
  intro s sum m ready
  refine ready.stored valid sound .existsAt struct (fun _ => existsAt a.ctx)
    rfl rfl (by simpa [guardedExpr] using ready.guarded) rfl rfl types ?_ ?_
  · intro tag operand s' clean
    exact (existsAt_accepted clean).1
  · intro operand s' tag m' key formed resolved clean same after tagged
    obtain ⟨_, step⟩ := existsAt_accepted clean
    refine (ensures_countReached valid after.agrees .existsAt key).bind ?_
    rintro _ n ⟨counted, _⟩
    have looked : Ensures a.toTerms (look fun tx store => tx.existsAt store key) n fun _ m'' =>
        After a read s m s' sum m'' :=
      ensures_look ((after.trans counted).trans (after_touch valid counted.agrees key))
    refine looked.bind ?_
    intro found m'' touched
    refine ensures_pure ⟨_, _, ready.accepted valid (same.trans step), ?_, .of_value rfl rfl⟩
    exact touched.of_sum (by simp [weigh_bool])

theorem sound_moveTo {signer value : Expr} (struct : StructExpr)
    (soundSigner : Sound setup invoke a read signer)
    (soundValue : Sound setup invoke a read value) :
    Sound setup invoke a read (.moveTo struct signer value) := by
  intro s sum m ready
  obtain ⟨signerOperand, s', valueOperand, s'', tag, acceptedSigner, acceptedValue, resolved, _,
    clean, same⟩ := moveTo_accepted_operands (walks_expr valid.declared signer)
      (walks_expr valid.declared value) ready.formed ready.clean
  obtain ⟨loans, referent, flow, step, releases⟩ := moveTo_accepted clean
  have isSigner : signerOperand.ty.referent?.getD signerOperand.ty = .signer :=
    by rw [referent]; rfl
  obtain ⟨namesSigner, namesValue⟩ := List.append_subset.mp
    (by simpa [Expr.names] using ready.names)
  have steady := ready.steady
  simp only [steadyExpr, acceptedSigner.result, Bool.and_eq_true] at steady
  obtain ⟨guardedSigner, guardedValue⟩ := ready.guarded_both rfl acceptedSigner
  have formed' := acceptedSigner.walked.formed ready.formed
  have formed'' := acceptedValue.walked.formed formed'
  rw [eval]
  refine (soundSigner.ensures acceptedSigner ready.formed steady.1 guardedSigner namesSigner
    ready.agrees).bind ?_
  rintro signerValue m₁ ⟨after₁, signerHolds⟩
  refine (ensures_signerOf valid after₁.agrees acceptedSigner.bindable signerHolds isSigner).bind ?_
  intro address m₂ after₂
  refine (soundValue.ensures acceptedValue formed' steady.2 guardedValue namesValue
    after₂.agrees).bind ?_
  rintro moved m₃ ⟨after₃, valueHolds⟩
  refine (ensures_resolveStruct types after₃.agrees.frame resolved).bind ?_
  rintro _ _ ⟨rfl, rfl⟩
  have conforms := (valueHolds.flows flow).conforms
  rw [← StructTag.ty_subst] at conforms
  refine (ensures_countReached valid after₃.agrees .moveTo ⟨address, tag.subst a.types⟩).bind ?_
  rintro _ n ⟨counted, _⟩
  refine (ensures_moveTo valid counted.agrees ⟨address, tag.subst a.types⟩ conforms).bind ?_
  intro _ m₄ after₄
  refine ensures_pure ⟨_, _, ready.accepted valid (same.trans step), ?_, .of_value rfl rfl⟩
  have whole := (((after₁.trans after₂).trans after₃).trans counted).trans after₄
  exact (whole.trans (.release valid formed'' releases s''.access whole.agrees)).of_sum
    (by simp [weigh_of_signer signerHolds isSigner, weigh])

end Storage

end Custody
