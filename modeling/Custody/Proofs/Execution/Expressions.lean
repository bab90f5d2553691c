import Custody.Proofs.Execution.Places
/-!
# Accepted expressions

An expression that the checker accepts, run on a machine that agrees with the checker, has a value
of the type the checker gave it and leaves a machine that agrees with the state the checker left. If
it is guarded besides and the terms are held, no reference leads it to an empty slot, and what lies
outside the call is what it was. There is one lemma for each form of expression, given that the
operands behave so. How calls behave is a hypothesis on what runs them.
-/

namespace Custody

open Exec Check

variable {reference : Reference} {id : BindingId} {name : String} {value : Value} {ty : Ty}
  {a : Activation} {read : List String} {s : BodyState} {m : Machine} {setup : Setup}
  {invoke : Invoke} {sum : Int} {args : List Ty} {m' : Machine} {inner e : Expr} {operand : Operand}
  {s' : BodyState} {ids : LoanSet} {u : Universe} {slot : Slot} {count : Nat} {mutable : Bool}

attribute [local simp] eval evalAll evalFields steadyExpr steadyExprs steadyFields
  guardedExpr guardedExprs guardedFields Expr.names Ty.flowsInto

/-! ## What is claimed of an expression -/

/-- The checker accepted the expression in a state that agrees with the machine. -/
structure Ready (a : Activation) (read : List String) (e : Expr) (s : BodyState) (sum : Int)
    (m : Machine) : Prop where
  formed : Formed a.ctx s
  clean : (expr a.ctx e s).2.problems = []
  steady : steadyExpr a.ctx e s = true
  guarded : a.held → guardedExpr a.guard a.ctx e s = true
  names : e.names ⊆ read
  agrees : Agrees a read s sum m

/-- The value is what the checker made of the expression, and its weight is off the books. -/
def Evaluated (a : Activation) (read : List String) (e : Expr) (s : BodyState) (sum : Int)
    (m : Machine) (value : Value) (m' : Machine) : Prop :=
  ∃ operand s', Accepted a.ctx s e operand s' ∧
    After a read s m s' (sum - value.weigh a.weight) m' ∧
    Holds a s' operand.loans m' operand.ty value

/-- Wherever the expression is accepted, it is evaluated without a breach. -/
def Sound (setup : Setup) (invoke : Invoke) (a : Activation) (read : List String) (e : Expr) :
    Prop :=
  ∀ s sum m, Ready a read e s sum m →
    Ensures a.toTerms (eval setup invoke e) m (Evaluated a read e s sum m)

section Operands

/-- What a sound expression does where the checker is known to have accepted it. -/
theorem Sound.ensures (sound : Sound setup invoke a read e)
    (accepted : Accepted a.ctx s e operand s') (formed : Formed a.ctx s)
    (steady : steadyExpr a.ctx e s = true) (guarded : a.held → guardedExpr a.guard a.ctx e s = true)
    (names : e.names ⊆ read) (agrees : Agrees a read s sum m) :
    Ensures a.toTerms (eval setup invoke e) m fun value m' =>
      After a read s m s' (sum - value.weigh a.weight) m' ∧
        Holds a s' operand.loans m' operand.ty value := by
  have clean : (expr a.ctx e s).2.problems = [] := by
    rw [accepted.result]
    exact accepted.clean
  refine (sound s sum m ⟨formed, clean, steady, guarded, names, agrees⟩).mono ?_
  rintro value m' ⟨operand', s'', accepted', after, holds⟩
  obtain ⟨rfl, rfl⟩ := accepted.unique accepted'
  exact ⟨after, holds⟩

/-- What the checker answered is what it accepted. -/
theorem Ready.accepted (ready : Ready a read e s sum m) (valid : a.Valid)
    (result : expr a.ctx e s = (some operand, s')) : Accepted a.ctx s e operand s' := by
  obtain ⟨operand', s'', accepted⟩ :=
    walks_expr valid.declared e s ready.formed ready.clean
  obtain ⟨same, rfl⟩ := Prod.mk.inj (result.symm.trans accepted.result)
  obtain rfl := Option.some.inj same
  exact accepted

/-- The binding that an expression names may be read. -/
theorem Ready.mentioned (ready : Ready a read e s sum m) (named : e.names = [name])
    (found : s.locals.lookup name = some id) (present : s.locals.slot? id = some slot) :
    slot.name ∈ read := by
  obtain ⟨slot', present', same⟩ := slot?_of_lookup found
  obtain rfl := Option.mem_unique present present'
  exact ready.names (by simp [named, same])

/-- An expression whose value is made from that of one operand. -/
theorem Ready.unary (ready : Ready a read e s sum m) (valid : a.Valid)
    (sound : Sound setup invoke a read inner) (next : Operand → Check (Option Operand))
    [∀ operand, Honest (next operand)]
    (form : expr a.ctx e = (do withOperand (← expr a.ctx inner) next))
    (steady : steadyExpr a.ctx e s = steadyExpr a.ctx inner s)
    (guarded : guardedExpr a.guard a.ctx e s = guardedExpr a.guard a.ctx inner s)
    (names : e.names = inner.names) {step : Value → Exec Value}
    (evals : eval setup invoke e = eval setup invoke inner >>= step)
    (rest : ∀ {operand s' value m'}, Accepted a.ctx s inner operand s' → Formed a.ctx s' →
      (next operand s').2.problems = [] → expr a.ctx e s = next operand s' →
      After a read s m s' (sum - value.weigh a.weight) m' →
      Holds a s' operand.loans m' operand.ty value →
      Ensures a.toTerms (step value) m' (Evaluated a read e s sum m)) :
    Ensures a.toTerms (eval setup invoke e) m (Evaluated a read e s sum m) := by
  obtain ⟨operand, s', accepted, clean, same⟩ := unary_accepted next form
    (walks_expr valid.declared inner) ready.formed ready.clean
  rw [evals]
  refine (sound.ensures accepted ready.formed (steady ▸ ready.steady) (guarded ▸ ready.guarded)
    (names ▸ ready.names) ready.agrees).bind ?_
  rintro value m' ⟨after, holds⟩
  exact rest accepted (accepted.walked.formed ready.formed) clean same after holds

end Operands

/-! ## Values of known types -/

section Known

variable {ty : Ty} {value : Value}

theorem eq_of_flowsInto {found expected : Ty} (flow : found.flowsInto expected = true)
    (isValue : expected.isRef = false) : found = expected := by
  unfold Ty.flowsInto at flow
  split at flow
  · assumption
  · split at flow
    · cases isValue
    · cases flow

theorem isRef_of_flowsInto {found expected : Ty} (flow : found.flowsInto expected = true) :
    found.isRef = expected.isRef := by
  unfold Ty.flowsInto at flow
  split at flow
  · rename_i same
    rw [same]
  · split at flow
    · rfl
    · cases flow

theorem ensures_asBool (holds : Holds a s ids m ty value) (flow : ty.flowsInto .bool = true) :
    Ensures a.toTerms (asBool value) m' fun flag m'' => value = .bool flag ∧ m' = m'' := by
  obtain rfl := eq_of_flowsInto flow rfl
  obtain ⟨flag, rfl⟩ := Value.eq_bool_of_conformsTo holds.conforms
  exact ensures_pure ⟨rfl, rfl⟩

variable {locals : Locals} {struct : StructExpr} {tag : StructTag}
  (types : setup.program.types = a.ctx.types)

include types

theorem ensures_resolveStruct (frame : Matches a locals m)
    (known : a.ctx.Names struct tag) :
    Ensures a.toTerms (Exec.resolveStruct setup struct) m fun found m' =>
      tag.subst a.types = found ∧ m = m' := by
  have here : setup.program.types.resolveStruct m.current.function.module m.current.typeParams
      struct = .ok tag := by
    rw [types, frame.function, frame.typeParams]
    exact known
  refine ensures_get (ensures_bind_resolved here ?_)
  rw [frame.typeArgs]
  exact ensures_pure ⟨rfl, rfl⟩

/-- The slot of a struct at an address. -/
theorem ensures_slotKey (frame : Matches a locals m)
    (known : a.ctx.Names struct tag)
    (holds : Holds a s ids m ty value) (flow : ty.flowsInto .address = true) :
    Ensures a.toTerms (slotKey setup struct value) m fun key m' =>
      key.tag = tag.subst a.types ∧ value.weigh a.weight = 0 ∧ m = m' := by
  obtain rfl := eq_of_flowsInto flow rfl
  obtain ⟨address, rfl⟩ := Value.eq_address_of_conformsTo holds.conforms
  refine (ensures_resolveStruct types frame known).bind ?_
  rintro _ _ ⟨rfl, rfl⟩
  exact ensures_pure ⟨rfl, by simp [Value.weigh], rfl⟩

theorem ensures_structDef {declared : StructDef}
    (found : a.ctx.types.struct? tag.id = some declared) :
    Ensures a.toTerms (structDef setup tag) m fun found m' => declared = found ∧ m = m' :=
  ensures_require (by rw [types]; exact found) ⟨rfl, rfl⟩

end Known

/-! ## Locals and constants -/

section Leaves

theorem sound_literal (valid : a.Valid) (form : expr a.ctx e = pure (some { ty := ty }))
    (evals : eval setup invoke e = pure value) (isValue : ty.isRef = false)
    (conforms : value.conformsTo a.ctx.types (ty.subst a.types) = true)
    (light : value.weigh a.weight = 0) : Sound setup invoke a read e := by
  intro s sum m ready
  rw [evals]
  refine ensures_pure
    ⟨_, _, ready.accepted valid (by rw [form]; rfl), ?_, .of_value isValue conforms⟩
  exact (After.refl ready.agrees).of_sum (by simp [light])

section Use

variable {name : String} {id : BindingId} {value : Value} (formed : Formed a.ctx s)
  (agrees : Agrees a read s sum m) (found : s.locals.lookup name = some id)
  (present : m.local? a.depth id = some value)

include formed agrees found present

/-- A name is read, whether the checker takes its value to be copied or to be moved. -/
theorem ensures_read {use : LocalUse} :
    Ensures a.toTerms (readLocal name) m fun value' m' =>
      value = value' ∧ Taken a m id m' ∧ (use ≠ .move → m = m') := by
  refine (ensures_bindingIndex formed agrees.frame found).bind ?_
  rintro _ _ ⟨rfl, rfl⟩
  refine ensures_get (ensures_require ?_ ⟨rfl, .inl rfl, fun _ => rfl⟩)
  rw [Machine.top, agrees.frame.height, present]

/-- A name is moved, and the machine empties its binding. -/
theorem ensures_taken :
    Ensures a.toTerms (takeLocal name) m fun value' m' =>
      value = value' ∧ Taken a m id m' ∧ (LocalUse.move ≠ .move → m = m') := by
  refine (ensures_bindingIndex formed agrees.frame found).bind ?_
  rintro _ _ ⟨rfl, rfl⟩
  have here : m.local? m.top id = some value := by rw [Machine.top, agrees.frame.height, present]
  refine ensures_get (ensures_bind_require here (ensures_set (by simp) (ensures_pure
    ⟨rfl, .inr ?_, fun differs => absurd rfl differs⟩)))
  rw [Machine.top, agrees.frame.height]

end Use

/-- A local is used: what may be copied stays, and the rest is moved, whether the machine empties
the binding or not. -/
theorem sound_useLocal (valid : a.Valid) (use : LocalUse)
    (form : expr a.ctx e = useLocal a.ctx use name) (named : e.names = [name])
    (evals : ∀ {s sum m id value}, Formed a.ctx s → Agrees a read s sum m →
      s.locals.lookup name = some id → m.local? a.depth id = some value →
      Ensures a.toTerms (eval setup invoke e) m fun value' m' =>
        value = value' ∧ Taken a m id m' ∧ (use ≠ .move → m = m')) :
          Sound setup invoke a read e := by
  intro s sum m ready
  have clean := ready.clean
  rw [form] at clean
  obtain ⟨id, slot, found, present, live, step⟩ :=
    useLocal_accepted ready.formed.unpoisoned clean
  rw [← form] at step
  obtain ⟨value, here, holds⟩ := ready.agrees.live present live
  have mentioned := ready.mentioned named found present
  refine (evals ready.formed ready.agrees found here).mono ?_
  rintro _ m' ⟨rfl, taken, untouched⟩
  rcases step with ⟨copies, copyable, same⟩ | ⟨_, free, same⟩
  · obtain rfl := untouched (by rintro rfl; cases copies)
    obtain ⟨bindable, abilities⟩ := ready.formed.slot present
    have light : value.weigh a.weight = 0 := by
      rw [Slot.canCopy, abilities] at copyable
      exact valid.weigh_eq_zero bindable .copy rfl copyable (holds mentioned).conforms
    refine ⟨_, _, ready.accepted valid same, ?_, holds mentioned⟩
    exact (After.refl ready.agrees).of_sum (by simp [light])
  · obtain ⟨after, moved⟩ := after_consume valid ready.agrees present live free here taken
    exact ⟨_, _, ready.accepted valid same, after, moved mentioned⟩

theorem sound_var (valid : a.Valid) (name : String) : Sound setup invoke a read (.var name) := by
  refine sound_useLocal valid .implicit rfl rfl ?_
  intro s sum m id value formed agrees found present
  rw [eval]
  exact ensures_read formed agrees found present

theorem sound_copy (valid : a.Valid) (name : String) : Sound setup invoke a read (.copy name) := by
  refine sound_useLocal valid .copy rfl rfl ?_
  intro s sum m id value formed agrees found present
  rw [eval]
  exact ensures_read formed agrees found present

theorem sound_move (valid : a.Valid) (name : String) : Sound setup invoke a read (.move name) := by
  refine sound_useLocal valid .move rfl rfl ?_
  intro s sum m id value formed agrees found present
  rw [eval]
  exact ensures_taken formed agrees found present

end Leaves

/-! ## References -/

section References

theorem traced_granted (loan : Loan) (mode : loan.mode = .ofMutable mutable)
    (leads : Leads a s.locals loan.origin reference) (access : Access) :
    Traced a { s with loans := (s.loans.insert loan).2, access := access }
      (SortedSet.insert ids s.loans.next) mutable reference := by
  refine ⟨loan.origin, Loans.mem_origins.mpr ⟨s.loans.next, by simp, loan, by simp, rfl⟩, ?_, leads⟩
  rintro rfl
  exact mode

/-- A local, or a part of one, that was just borrowed. -/
theorem refers_local {target : Ty} (reference : Reference) (loan : Loan)
    (agrees : Agrees a read s sum m) (present : s.locals.slot? id = some slot)
    (live : slot.state = .live)
    (place : loan.place.root = .local id) (mode : loan.mode = .ofMutable mutable)
    (rooted : reference.root = .local a.depth id) (same : reference.mutable = mutable)
    (reached : a.ctx.types.typeAt? (slot.ty.subst a.types) reference.path = some target)
    (leads : Leads a s.locals loan.origin reference) (access : Access) :
    Refers a { s with loans := (s.loans.insert loan).2, access := access }
      (SortedSet.insert ids s.loans.next) m mutable reference target where
  kept := same.trans
  typed := ⟨slot.ty.subst a.types, by simp [Activation.rootType, rooted, present], reached⟩
  anchored index here := by
    obtain rfl : id = index := by simpa using rooted.symm.trans here
    obtain ⟨value, there, _⟩ := agrees.live present live
    exact ⟨by rw [there]; rfl, Loans.mem_borrowed.mpr ⟨s.loans.next, by simp, loan, by simp, place⟩⟩
  traced _ := traced_granted loan mode leads access
  stands _ key here := by cases rooted.symm.trans here

theorem ensures_borrowLocal (formed : Formed a.ctx s) (frame : Matches a s.locals m)
    (found : s.locals.lookup name = some id) (mutable : Bool) :
    Ensures a.toTerms (Exec.borrowLocal mutable name) m fun value m' =>
      value = .ref { root := .local a.depth id, mutable := mutable } ∧ m = m' := by
  refine (ensures_bindingIndex formed frame found).bind ?_
  rintro _ _ ⟨rfl, rfl⟩
  refine ensures_get (ensures_pure ⟨?_, rfl⟩)
  rw [Machine.top, frame.height]

theorem sound_borrow (valid : a.Valid) (mutable : Bool) (name : String) :
    Sound setup invoke a read (.borrow mutable name) := by
  intro s sum m ready
  have form : expr a.ctx (.borrow mutable name) s = borrowLocal a.ctx mutable name s := by
    rw [expr]
  have clean := ready.clean
  rw [form] at clean
  obtain ⟨id, slot, found, present, live, _, step⟩ :=
    borrowLocal_accepted ready.formed.unpoisoned clean
  rw [eval]
  refine (ensures_borrowLocal ready.formed ready.agrees.frame found mutable).mono ?_
  rintro _ _ ⟨rfl, rfl⟩
  refine ⟨_, _, ready.accepted valid (form.trans step), ?_, ?_⟩
  · exact (After.grant valid ready.formed _ s.access ready.agrees).of_sum (by simp [Value.weigh])
  · exact .of_reference (refers_local ⟨.local a.depth id, [], mutable⟩ _ ready.agrees
      present live rfl rfl rfl rfl rfl (.whole rfl) s.access)

/-! ### Fields -/

/-- The type of a field, as a type of the running call. -/
theorem typeAt?_field (declared : u.Accepted) {id : StructId}
    (plain : u.isPlain count (.struct id args) = true) {field : String}
    (typed : u.fieldType? ⟨id, args⟩ field = some ty) (types : List Ty) :
    ∃ struct index, u.struct? id = some struct ∧ struct.fieldIndex? field = some index ∧
      u.typeAt? ((Ty.struct id args).subst types) [index] = some (ty.subst types) := by
  obtain ⟨struct, index, found, here, entry⟩ := StructDef.fieldType?_eq_some typed
  obtain ⟨⟨struct', found', length⟩, _⟩ := Universe.isPlain_struct_iff.mp plain
  obtain rfl : struct' = struct := Option.mem_unique found' found
  refine ⟨struct', index, found, here, ?_⟩
  obtain ⟨⟨name, fieldType⟩, there, rfl⟩ := Option.map_eq_some_iff.mp entry
  have declared' : u.instantiateFields? ⟨id, Ty.substAll types args⟩ =
      some (struct'.fieldsAt (Ty.substAll types args)) := by
    simp [Universe.instantiateFields?, found']
  simp [Ty.subst, Universe.typeAt?, declared',
    Universe.fieldsAt_substAll (declared.fields_plain found) (Nat.le_of_eq length), there]

theorem Refers.field {target part : Ty} {index : Nat} {mutable' : Bool}
    (refers : Refers a s ids m mutable reference target) (weaker : mutable' = true → mutable = true)
    (reached : a.ctx.types.typeAt? target [index] = some part) :
    Refers a s ids m mutable' (reference.field index mutable') part where
  kept := fun kept => kept
  typed := by
    obtain ⟨whole, typed, there⟩ := refers.typed
    exact ⟨whole, typed, (Universe.typeAt?_append [index] there).trans reached⟩
  anchored := refers.anchored
  traced held := ((refers.traced held).weaken weaker).within
    ((Reference.Within.refl reference).field index mutable')
  stands := refers.stands

/-- A further loan takes nothing away. -/
theorem Refers.granted {target : Ty} (formed : Formed a.ctx s) (loan : Loan) (access : Access)
    (refers : Refers a s ids m mutable reference target) :
    Refers a { s with loans := (s.loans.insert loan).2, access := access }
      (SortedSet.insert ids s.loans.next) m mutable reference target :=
  refers.transfer List.prefix_rfl (.of_origins (Loans.origins_insert formed.bounded loan
    fun id member => by simp [member])) (.refl _ _ _ _)

theorem ensures_borrowField (types : setup.program.types = a.ctx.types) (valid : a.Valid)
    (agrees : Agrees a read s sum m) {id : StructId}
    (plain : a.ctx.types.isPlain count (.struct id args) = true) {field : String}
    (fieldTyped : a.ctx.types.fieldType? ⟨id, args⟩ field = some ty) {whole : Ty}
    (typed : a.rootType s.locals reference.root = some whole)
    (reached : a.ctx.types.typeAt? whole reference.path = some ((Ty.struct id args).subst a.types))
    (anchored : ∀ index, reference.root = .local a.depth index →
      (m.local? a.depth index).isSome = true)
    (stands : a.held → reference.Stands m) (mutable : Bool) :
    Ensures a.toTerms (Exec.borrowField setup mutable (.ref reference) field) m fun value m' =>
      ∃ struct index, a.ctx.types.struct? id = some struct ∧ struct.fieldIndex? field = some index ∧
        value = .ref (reference.field index mutable) ∧
        a.ctx.types.typeAt? ((Ty.struct id args).subst a.types) [index] = some (ty.subst a.types) ∧
        After a read s m s sum m' := by
  obtain ⟨struct, index, found, here, there⟩ :=
    typeAt?_field valid.declared plain fieldTyped a.types
  refine (ensures_readPlace valid agrees typed anchored stands reached).bind ?_
  rintro value m' ⟨conforms, after⟩
  obtain ⟨fields, _, rfl, _⟩ := Value.conformsTo_struct_iff.mp conforms
  refine (ensures_structDef types found).bind ?_
  rintro _ _ ⟨rfl, rfl⟩
  exact ensures_bind_require here (ensures_pure ⟨struct, index, found, here, rfl, there, after⟩)

theorem sound_borrowField_local (types : setup.program.types = a.ctx.types) (valid : a.Valid)
    (mutable baseMutable : Bool) (name field : String) :
    Sound setup invoke a read (.borrowField mutable (.borrow baseMutable name) field) := by
  intro s sum m ready
  obtain ⟨id, slot, found, present, live, _, clean, same, _⟩ :=
    borrowField_local_accepted ready.formed ready.clean
  obtain ⟨_, struct, args, ty, form, _, typed, step⟩ := borrowField_accepted clean
  have form' : slot.ty = .struct struct args := (Ty.ref.inj form).2
  have plain : a.ctx.Plain (.struct struct args) := by
    have bindable := (ready.formed.slot present).1
    rw [form'] at bindable
    exact Universe.isPlain_of_isBindable bindable rfl
  rw [eval, eval]
  refine (ensures_borrowLocal ready.formed ready.agrees.frame found baseMutable).bind ?_
  rintro _ _ ⟨rfl, rfl⟩
  have anchored : ∀ index, RefRoot.local a.depth id = .local a.depth index →
      (m.local? a.depth index).isSome = true := by
    intro index here
    obtain rfl : id = index := by simpa using here
    obtain ⟨value, there, _⟩ := ready.agrees.live present live
    rw [there]
    rfl
  have rootTyped : a.rootType s.locals (.local a.depth id) = some (slot.ty.subst a.types) := by
    simp [Activation.rootType, present]
  refine (ensures_borrowField types valid ready.agrees plain typed rootTyped
    (by rw [form']; rfl) anchored (fun _ => stands_local) mutable).mono ?_
  rintro _ m' ⟨_, index, declared, here, rfl, reached, after⟩
  rcases step with ⟨place, placed, step⟩ | ⟨placed, _⟩
  · obtain rfl := Option.some.inj placed
    refine ⟨_, _, ready.accepted valid (same.trans step), ?_, ?_⟩
    · exact (after.trans (.grant valid ready.formed _ s.access after.agrees)).of_sum
        (by simp [Value.weigh])
    · refine .of_reference (refers_local _
        ⟨Place.child { root := .local id } field, .ofMutable mutable, ∅⟩
        after.agrees present live rfl rfl rfl rfl ?_
        (.field present form' declared here rfl List.prefix_rfl) s.access)
      rw [form']
      exact reached
  · cases placed

theorem sound_borrowField (types : setup.program.types = a.ctx.types) (valid : a.Valid)
    {base : Expr} (sound : Sound setup invoke a read base) (mutable : Bool) (field : String) :
    Sound setup invoke a read (.borrowField mutable base field) := by
  by_cases direct : ∃ baseMutable name, base = .borrow baseMutable name
  · obtain ⟨baseMutable, name, rfl⟩ := direct
    exact sound_borrowField_local types valid mutable baseMutable name field
  intro s sum m ready
  refine ready.unary valid sound _ (expr_borrowField direct)
    rfl rfl rfl rfl ?_
  intro operand s' value m' accepted formed clean same after holds
  obtain ⟨baseMutable, struct, args, ty, form, weaker, typed, step⟩ := borrowField_accepted clean
  have plain := accepted.plain form
  rw [form] at holds
  obtain ⟨reference, rfl, refers⟩ := holds.eq_ref
  obtain ⟨whole, rootTyped, reached⟩ := refers.typed
  refine (ensures_borrowField types valid after.agrees plain typed rootTyped reached
    (fun index here => (refers.anchored index here).1) refers.stands mutable).mono ?_
  rintro _ m'' ⟨_, index, _, _, rfl, reached', after'⟩
  have moved : After a read s m s'
    (sum - (Value.ref (reference.field index mutable)).weigh a.weight)
      m'' := (after.trans after').of_sum (by simp [Value.weigh])
  have refers' := (((Holds.of_reference refers).along after' formed).refers rfl rfl).field
    weaker reached'
  rcases step with ⟨place, placed, step⟩ | ⟨placed, step⟩
  · refine ⟨_, _, ready.accepted valid (same.trans step), ?_, ?_⟩
    · exact moved.trans (.grant valid formed _ s'.access moved.agrees)
    · exact .of_reference (refers'.granted formed _ s'.access)
  · exact ⟨_, _, ready.accepted valid (same.trans step), moved, .of_reference refers'⟩

/-! ### Freezing and reading -/

theorem sound_freeze (valid : a.Valid) (sound : Sound setup invoke a read inner) :
    Sound setup invoke a read (.freeze inner) := by
  intro s sum m ready
  refine ready.unary valid sound (freeze a.ctx) rfl rfl rfl rfl rfl ?_
  intro operand s' value m' accepted formed clean same after holds
  obtain ⟨target, form, step⟩ := freeze_accepted clean
  rw [form] at holds
  obtain ⟨reference, rfl, refers⟩ := holds.eq_ref
  refine ensures_pure ⟨_, _, ready.accepted valid (same.trans step), ?_, .of_reference ?_⟩
  · exact after.of_sum (by simp [Value.weigh])
  · exact ⟨by simp, refers.typed, refers.anchored,
      fun held => (refers.shared.traced held).within ⟨rfl, List.prefix_rfl⟩, refers.stands⟩

theorem sound_deref (valid : a.Valid) (sound : Sound setup invoke a read inner) :
    Sound setup invoke a read (.deref inner) := by
  intro s sum m ready
  refine ready.unary valid sound (dereference a.ctx) rfl rfl rfl rfl rfl ?_
  intro operand s' value m' accepted formed clean same after holds
  obtain ⟨mutable, target, loans, form, copyable, step, releases⟩ := dereference_accepted clean
  have plain := accepted.plain form
  rw [form] at holds
  obtain ⟨reference, rfl, refers⟩ := holds.eq_ref
  refine (ensures_readReference valid after.agrees refers).mono ?_
  rintro value m'' ⟨conforms, after'⟩
  have light := valid.weigh_eq_zero (Universe.isBindable_of_isPlain plain) .copy rfl
    copyable conforms
  refine ⟨_, _, ready.accepted valid (same.trans step), ?_,
    .of_value (Universe.isRef_of_isPlain plain) conforms⟩
  exact ((after.trans after').trans (.release valid formed releases s'.access after'.agrees)).of_sum
    (by simp [light, Value.weigh])

end References

end Custody
