import Custody.Proofs.Execution.Operations
/-!
# Calls

What a call and its caller owe each other. The caller hands over values and references that lead to
frames below the callee, to storage or to the host, never into the frame of the callee. The callee
gives back a value of which the same holds; what it changed in the frames below are the places that
were open to it, and there it left values of the same types and weights.

A caller opens to the callee those of its own locals that the loans of the arguments vouch for. So a
reference that comes back is anchored by these loans, and the checker keeps them for it. A guarded
call hands over no reference to storage that the callee may reach, since nothing of that is
borrowed; so whatever the callee may touch the caller may touch.
-/

namespace Custody

open Exec Activation
open Check (Formed Walked Accepted AcceptedAll callResult)

variable {value : Value} {a : Activation} {setup : Setup} {typeArgs : List TypeExpr}
  {read : List String} {invoke : Invoke} {s : BodyState} {ids : LoanSet} {id : LoanId}
  {reference : Reference} {index : Nat} {mutable : Bool}

/-! ## The contract -/

/-- The type of what a reference starts from, outside the running frame. -/
def Activation.outerType (a : Activation) : RefRoot → Option Ty
  | .local frame index => a.below frame index
  | .global key => some key.tag.ty
  | .host index => if index < a.hosts then some .signer else none

/-- A value that leads to nothing of the running frame. -/
structure Foreign (a : Activation) (ty : Ty) (value : Value) : Prop where
  conforms : value.conformsTo a.ctx.types (ty.subst a.types) = true
  refers : ∀ {mutable inner reference}, ty = .ref mutable inner → value = .ref reference →
    (mutable = true → reference.mutable = true) ∧
      ∃ whole, a.outerType reference.root = some whole ∧
        a.ctx.types.typeAt? whole reference.path = some (inner.subst a.types)

/-- Each argument may be given for the parameter in its position. -/
abbrev ForeignAll (a : Activation) : List Value → List (String × Ty) → Prop :=
  List.Forall₂ fun value param => Foreign a param.2 value

/-- If the call answers with a reference, it leads to a part of what an argument leads to, and one
that may be written through comes from one that may. -/
def Activation.Repays (a : Activation) (value : Value) : Prop :=
  ∀ {mutable inner reference}, a.ctx.signature.ret = .ref mutable inner → value = .ref reference →
    ∃ index argument, a.args[index]? = some (.ref argument) ∧ reference.Within argument ∧
      (mutable = true → a.Mutable index)

/-- What a call owes when it returns a value. -/
structure Returned (a : Activation) (m : Machine) (sum : Int) (value : Value) (m' : Machine) :
    Prop where
  result : Foreign a a.ctx.signature.ret value
  surroundings : Surroundings a m'
  leaves : a.Leaves m m'
  worth : m'.worth a.weight + value.weigh a.weight = sum
  repays : a.held → a.Repays value

/-- A way to run calls under which every call that is made as it should be owes nothing more than
the contract. -/
def Invokes (setup : Setup) (regime : Regime) (invoke : Invoke) : Prop :=
  ∀ (a : Activation) (decl : FunctionDecl) (m : Machine), a.Valid → a.toRegime = regime →
    setup.program.types = a.ctx.types →
    a.ctx.types.function? a.ctx.signature.id = some a.ctx.signature →
    setup.program.function? a.ctx.signature.id = some decl → m.callers.length + 1 = a.depth →
    Surroundings a m →
    ForeignAll a a.args a.ctx.signature.params →
    (a.held → ∀ {reference}, .ref reference ∈ a.args → reference.Stands m) →
    Ensures a.toTerms (invoke a.ctx.signature.id decl a.types a.args) m
      (Returned a m (m.worth a.weight + Value.weighAll a.weight a.args))

section Contract

variable {m : Machine} {ty : Ty}

theorem rootType_of_outerType (valid : a.Valid) {root : RefRoot} {whole : Ty} (locals : Locals)
    (outer : a.outerType root = some whole) : a.rootType locals root = some whole := by
  cases root with
  | «local» frame index =>
    have lower := valid.below_lt outer
    rw [rootType, if_neg (Nat.ne_of_lt lower)]
    exact outer
  | global key => exact outer
  | host index => exact outer

/-- Such a value holds whatever is borrowed, if a loan says where a reference comes from. -/
theorem Foreign.holds (foreign : Foreign a ty value) (valid : a.Valid)
    (traced : a.held → ∀ {mutable inner reference},
      ty = .ref mutable inner → value = .ref reference →
      Traced a s ids mutable reference ∧ reference.Stands m) : Holds a s ids m ty value := by
  refine ⟨foreign.conforms, fun form same => ?_⟩
  obtain ⟨kept, whole, outer, reached⟩ := foreign.refers form same
  refine ⟨kept, ⟨whole, rootType_of_outerType valid _ outer, reached⟩, fun index here => ?_,
    fun held => (traced held form same).1, fun held => (traced held form same).2⟩
  rw [here] at outer
  exact absurd (valid.below_lt outer) (Nat.lt_irrefl _)

/-- A value that holds leads outside unless it leads to a local of the call. -/
theorem Holds.foreign (holds : Holds a s ids m ty value)
    (outside : ∀ {reference index}, value = .ref reference →
      reference.root ≠ .local a.depth index) : Foreign a ty value := by
  refine ⟨holds.conforms, ?_⟩
  intro mutable inner reference form same
  obtain ⟨kept, ⟨whole, typed, reached⟩, _⟩ := holds.refers form same
  refine ⟨kept, whole, ?_, reached⟩
  cases root : reference.root with
  | «local» frame index =>
    rw [root, rootType] at typed
    split at typed
    · rename_i here
      exact absurd (here ▸ root) (outside same)
    · exact typed
  | global key => rw [root] at typed; exact typed
  | host index => rw [root] at typed; exact typed

end Contract

/-! ## The caller's side -/

/-- The loans that vouch for the reference arguments of a call. -/
def lentLoans (operands : List Operand) : LoanSet :=
  (operands.filter (·.ty.isRef)).foldl (fun loans value => loans.union value.loans) ∅

theorem mem_foldl_union (operands : List Operand) (start : LoanSet) :
    id ∈ operands.foldl (fun loans value => loans.union value.loans) start ↔
      id ∈ start ∨ ∃ operand ∈ operands, id ∈ operand.loans := by
  induction operands generalizing start with
  | nil => simp
  | cons operand rest ih =>
    rw [List.foldl_cons, ih, SortedSet.mem_union]
    simp [or_assoc]

theorem mem_lentLoans {operands : List Operand} :
    id ∈ lentLoans operands ↔
      ∃ operand ∈ operands, operand.ty.isRef = true ∧ id ∈ operand.loans := by
  rw [lentLoans, mem_foldl_union]
  simp [and_assoc]

theorem loans_callResult {ret : Ty} (isReference : ret.isRef = true) (operands : List Operand) :
    (callResult ret operands).loans = lentLoans operands := by
  simp [callResult, isReference, lentLoans]

/-- The locals that a call is given access to: those lent to it that have values. -/
def Activation.lends (a : Activation) (s : BodyState) (m : Machine) (ids : LoanSet) (index : Nat) :
    Option Ty :=
  match s.locals.slot? index with
  | some slot =>
    if slot.ty.isRef = false ∧ (m.local? a.depth index).isSome = true ∧ index ∈ s.loans.borrowed ids
    then some (slot.ty.subst a.types)
    else none
  | none => none

theorem lends_eq_some {m : Machine} {ty : Ty} (lent : a.lends s m ids index = some ty) :
    ∃ slot, s.locals.slot? index = some slot ∧ ty = slot.ty.subst a.types ∧ slot.ty.isRef = false ∧
      (m.local? a.depth index).isSome = true ∧ index ∈ s.loans.borrowed ids := by
  unfold lends at lent
  split at lent
  · rename_i slot found
    split at lent
    · rename_i conditions
      exact ⟨slot, found, (Option.some.inj lent).symm, conditions⟩
    · cases lent
  · cases lent

/-- A call made from a running one. -/
def Activation.callee (a : Activation) (s : BodyState) (m : Machine) (operands : List Operand)
    (values : List Value) (signature : Signature) (types : List Ty) : Activation where
  toRegime := a.toRegime
  ctx := ⟨a.ctx.types, signature⟩
  types := types.map (·.subst a.types)
  depth := a.depth + 1
  below frame index :=
    if frame = a.depth then a.lends s m (lentLoans operands) index else a.below frame index
  hosts := a.hosts
  args := values

/-- The operands of an accepted call, with their values; if the terms are held, the call is
guarded. -/
structure Handed (a : Activation) (s : BodyState) (m : Machine) (operands : List Operand)
    (values : List Value) (signature : Signature) (types : List Ty) : Prop where
  declared : a.ctx.types.function? signature.id = some signature
  count : signature.typeParams.length = types.length
  plain : a.ctx.types.arePlain a.ctx.arity types = true
  faultless : Check.callConstraintFaults a.ctx signature types = []
  bindable : ∀ operand ∈ operands, a.ctx.Bindable operand.ty
  flows : List.Forall₂ (fun operand param => operand.ty.flowsInto (param.2.subst types) = true)
    operands signature.params
  holds : List.Forall₂ (fun operand value => Holds a s operand.loans m operand.ty value)
    operands values
  guarded : a.held →
    Check.guardedCall a.guard a.ctx signature.id (operands.map some) s.loans = true

section Lists

variable {α β γ : Type}

theorem forall₂_of_forall₂ {left : α → β → Prop} {right : α → γ → Prop} {both : β → γ → Prop}
    {items : List α} {lefts : List β} {rights : List γ}
    (first : List.Forall₂ left items lefts) (second : List.Forall₂ right items rights)
    (combine : ∀ item there here, item ∈ items → here ∈ rights → left item there → right item here →
      both there here) : List.Forall₂ both lefts rights := by
  induction first generalizing rights with
  | nil =>
    cases second
    exact .nil
  | cons holds _ ih =>
    cases second with
    | cons holds' others =>
      refine .cons (combine _ _ _ List.mem_cons_self List.mem_cons_self holds holds') ?_
      exact ih others fun item there here inside listed =>
        combine item there here (List.mem_cons_of_mem _ inside) (List.mem_cons_of_mem _ listed)

theorem exists_of_forall₂_getElem? {related : α → β → Prop} {lefts : List α}
    {rights : List β} (all : List.Forall₂ related lefts rights) {right : β}
    (present : rights[index]? = some right) :
    ∃ left, lefts[index]? = some left ∧ related left right := by
  induction all generalizing index with
  | nil => cases present
  | @cons left _ _ _ here _ ih =>
    cases index with
    | zero =>
      obtain rfl := Option.some.inj present
      exact ⟨left, rfl, here⟩
    | succ index => exact ih present

end Lists

theorem mutable_of_flowsInto {inner other : Ty}
    (flow : (Ty.ref mutable inner).flowsInto (.ref true other) = true) : mutable = true := by
  unfold Ty.flowsInto at flow
  split at flow
  · rename_i same
    exact (Ty.ref.inj same).1
  · split at flow
    · rename_i expected
      cases (Ty.ref.inj expected).1
    · cases flow

namespace Handed

variable {sum total : Int} {m m' : Machine} {operands : List Operand} {values : List Value}
  {signature : Signature} {types : List Ty}

/-- The rest of the machine, as the callee may expect it. -/
theorem surroundings_callee (agrees : Agrees a read s sum m) :
    Surroundings (a.callee s m operands values signature types) m where
  below := by
    intro frame index ty given
    simp only [callee] at given ⊢
    split at given
    · rename_i here
      obtain ⟨slot, found, rfl, _, present, _⟩ := lends_eq_some given
      obtain ⟨value, there⟩ := Option.isSome_iff_exists.mp present
      rw [here]
      exact ⟨value, there, agrees.conforms found there⟩
    · exact agrees.surroundings.below given
  stored := agrees.surroundings.stored
  faithful := agrees.surroundings.faithful
  hosts := agrees.surroundings.hosts
  signers := agrees.surroundings.signers

/-- The frame of the caller behind the call. -/
theorem alike_call (agrees : Agrees a read s sum m)
    (returned : Returned (a.callee s m operands values signature types) m total value m') :
    Alike a s m m' := by
  have height := agrees.frame.height
  have keeps := returned.leaves.keeps
  have found : m.frame? a.depth = some m.current := by rw [← height]; exact Machine.frame?_top m
  obtain ⟨frame, found', like⟩ := keeps.frames (Nat.lt_succ_self a.depth) found
  have height' : m'.callers.length = a.depth := keeps.height.trans height
  obtain rfl : m'.current = frame := by
    rw [← height', Machine.frame?_top] at found'
    exact Option.some.inj found'
  -- A position that is not open has the binding it had.
  have closed : ∀ index, a.lends s m (lentLoans operands) index = none →
      m'.local? a.depth index = m.local? a.depth index := by
    intro index shut
    rw [Machine.local?_of_height height', Machine.local?_of_height height, Frame.value?,
      Frame.value?, like.same index (by simp [callee, shut])]
  refine ⟨like.function, like.typeParams, like.typeArgs, keeps.height, like.names, ?_, ?_⟩
  · intro index absent
    rw [closed index, absent]
    cases lent : a.lends s m (lentLoans operands) index with
    | none => rfl
    | some ty =>
      obtain ⟨_, _, _, _, present, _⟩ := lends_eq_some lent
      rw [absent] at present
      cases present
  · intro index slot old known present
    cases lent : a.lends s m (lentLoans operands) index with
    | none =>
      exact ⟨old, by rw [closed index lent, present], agrees.conforms known present,
        fun _ => rfl, rfl⟩
    | some ty =>
      obtain ⟨slot', known', rfl, isValue, _, _⟩ := lends_eq_some lent
      obtain rfl := Option.mem_unique known known'
      have given : (a.callee s m operands values signature types).below a.depth index =
          some (slot.ty.subst a.types) := by simp [callee, lent]
      obtain ⟨new, there, conforms⟩ := returned.surroundings.below given
      have before : m.current.value? index = some old := by
        rw [← Machine.local?_of_height height, present]
      obtain ⟨new', there', weigh⟩ := like.values before
      rw [Machine.local?_of_height height'] at there ⊢
      obtain rfl := Option.mem_unique there there'
      exact ⟨new, there, conforms, fun absurd => by simp [isValue] at absurd, weigh⟩

variable (handed : Handed a s m operands values signature types)

include handed

theorem enough : signature.typeParams.length ≤ types.length := Nat.le_of_eq handed.count

/-- What an accepted argument is to the callee. -/
theorem foreign_argument (valid : a.Valid) {operand : Operand} (given : operand ∈ operands)
    (holds : Holds a s operand.loans m operand.ty value) {param : Ty}
    (flow : operand.ty.flowsInto (param.subst types) = true)
    (bindable : a.ctx.types.isBindable signature.typeParams.length param = true) :
    Foreign (a.callee s m operands values signature types) param value := by
  have fits := holds.flows flow
  refine ⟨?_, ?_⟩
  · have conforms := fits.conforms
    rw [Universe.subst_subst_of_isBindable handed.enough a.types bindable] at conforms
    exact conforms
  rintro mutable inner reference rfl rfl
  obtain ⟨kept, ⟨whole, typed, reached⟩, anchored, _, _⟩ := fits.refers rfl rfl
  have innerPlain : a.ctx.types.isPlain signature.typeParams.length inner = true := bindable
  have isValue : ((inner.subst types).subst a.types).isRef = false :=
    Universe.isRef_of_isPlain
      (valid.isPlain_subst (Universe.isPlain_subst handed.enough handed.plain inner innerPlain))
  have isReference : operand.ty.isRef = true := isRef_of_flowsInto flow
  have reached' := reached
  rw [Universe.subst_subst handed.enough a.types inner innerPlain] at reached'
  refine ⟨kept, whole, ?_, reached'⟩
  cases root : reference.root with
  | «local» frame index =>
    rw [root, rootType] at typed
    simp only [outerType, callee]
    split at typed
    · rename_i here
      subst here
      obtain ⟨slot, found, rfl⟩ := Option.map_eq_some_iff.mp typed
      obtain ⟨present, borrowed⟩ := anchored index root
      have slotValue := isRef_of_isRef_subst (isRef_of_typeAt? reached isValue)
      obtain ⟨id, member, loan, granted, rooted⟩ := Loans.mem_borrowed.mp borrowed
      have lentOut : index ∈ s.loans.borrowed (lentLoans operands) := Loans.mem_borrowed.mpr
        ⟨id, mem_lentLoans.mpr ⟨operand, given, isReference, member⟩, loan, granted, rooted⟩
      simp [lends, found, slotValue, present, lentOut]
    · rename_i elsewhere
      rw [if_neg elsewhere, typed]
  | global key => rw [root] at typed; exact typed
  | host index => rw [root] at typed; exact typed

theorem foreign (valid : a.Valid) : List.Forall₂ (fun value param =>
    Foreign (a.callee s m operands values signature types) param.2 value) values
      signature.params := by
  refine forall₂_of_forall₂ handed.holds handed.flows ?_
  intro operand value param given listed holds flow
  exact handed.foreign_argument valid given holds flow
    (valid.declared.params_bindable handed.declared param listed)

/-! ### What the callee may touch -/

/-- A reference that is handed over comes from where the loans of its operand say. -/
theorem argument (valid : a.Valid) (given : values[index]? = some (.ref reference)) :
    ∃ operand mutable inner, operands[index]? = some operand ∧ operand.ty = .ref mutable inner ∧
      Refers a s operand.loans m mutable reference (inner.subst a.types) ∧
      ((a.callee s m operands values signature types).Mutable index → mutable = true) := by
  obtain ⟨operand, present, holds⟩ := exists_of_forall₂_getElem? handed.holds given
  have isRef := Value.isRef_of_conformsTo_ref holds.conforms
  rw [Universe.isRef_subst valid.enough valid.instantiates.plain
    (handed.bindable operand (List.mem_of_getElem? present))] at isRef
  cases form : operand.ty with
  | ref mutable inner =>
    refine ⟨operand, mutable, inner, present, form, holds.refers form rfl, ?_⟩
    rintro ⟨name, target, declared⟩
    obtain ⟨operand', present', flow⟩ := exists_of_forall₂_getElem? handed.flows declared
    obtain rfl := Option.mem_unique present present'
    rw [form] at flow
    exact mutable_of_flowsInto flow
  | _ =>
    rw [form] at isRef
    cases isRef

theorem stands (valid : a.Valid) (held : a.held) (given : .ref reference ∈ values) :
    reference.Stands m := by
  obtain ⟨index, present⟩ := List.mem_iff_getElem?.mp given
  obtain ⟨_, _, _, _, _, refers, _⟩ := handed.argument valid present
  exact refers.stands held

/-- The callee reaches nothing that the caller does not reach. -/
theorem reach (held : a.held) {struct : StructId}
    (reached : struct ∈ (a.callee s m operands values signature types).reach) :
    struct ∈ a.reach := by
  have guarded := handed.guarded held
  simp only [Check.guardedCall, Bool.and_eq_true] at guarded
  exact SortedSet.contains_iff.mp (List.all_eq_true.mp guarded.1.1 struct reached)

/-- The callee reaches nothing that is borrowed. -/
theorem unlent (held : a.held) {loan : Loan} (granted : s.loans.get? id = some loan)
    {key : SlotKey} (isFor : loan.place.IsFor a key) :
    ¬ key.tag.id ∈ (a.callee s m operands values signature types).reach := by
  intro reached
  obtain ⟨tag, rooted, tagged⟩ := isFor
  rw [tagged] at reached
  have guarded := handed.guarded held
  simp only [Check.guardedCall, Bool.and_eq_true] at guarded
  have free := List.all_eq_true.mp guarded.1.2 tag.id reached
  have unmatched := List.find?_eq_none.mp (Option.isNone_iff_eq_none.mp free) loan
    (Table.mem_values_of_get? granted)
  simp [rooted] at unmatched

theorem outside (held : a.held) (outside : a.Outside reference) :
    (a.callee s m operands values signature types).Outside reference := by
  unfold Outside at outside ⊢
  cases rooted : reference.root with
  | «local» frame index =>
    rw [rooted] at outside
    exact Nat.lt_succ_of_lt outside
  | global key =>
    rw [rooted] at outside
    exact fun reached => outside (handed.reach held reached)
  | host index => trivial

variable (valid : a.Valid)

include valid

/-- Where a reference of the caller comes from, the callee has no business but by that reference. -/
theorem outside_of_traced (held : a.held) (traced : Traced a s ids mutable reference) :
    (a.callee s m operands values signature types).Outside reference := by
  obtain ⟨origin, known, _, leads⟩ := traced
  obtain ⟨id, _, loan, granted, same⟩ := Loans.mem_origins.mp known
  have within : ∀ {index}, reference.root = .local a.depth index →
      (a.callee s m operands values signature types).Outside reference := by
    intro index rooted
    rw [Outside, rooted]
    exact Nat.lt_succ_self _
  cases leads with
  | whole rooted => exact within rooted
  | field _ _ _ _ rooted _ => exact within rooted
  | param given within _ =>
    exact handed.outside held ((outside_within within).mpr
      (valid.outside held (List.mem_of_getElem? given)))
  | @global tag _ key _ _ _ rooted tagged =>
    have place : loan.place.root = .global tag := congrArg (fun origin => origin.1.root) same
    rw [Outside, rooted]
    exact handed.unlent held granted ⟨tag, place, tagged⟩

/-- What the callee was given to write to, the caller may write to. -/
theorem writes (held : a.held) {argument : Reference}
    (writes : (a.callee s m operands values signature types).Writes argument) :
    ∃ place, Leads a s.locals (place, .exclusive) argument := by
  obtain ⟨index, mutable, given⟩ := writes
  obtain ⟨_, _, _, _, _, refers, kept⟩ := handed.argument valid given
  obtain ⟨⟨place, mode⟩, _, exclusive, leads⟩ := refers.traced held
  obtain rfl : mode = .exclusive := exclusive (kept mutable)
  exact ⟨place, leads⟩

/-- Arguments that are kept apart do not meet, if one of them may be written through. -/
theorem apart (held : a.held) (strict : a.guard.apart = true) {other : Nat} {left right : Reference}
    (differs : index ≠ other)
    (mutable : (a.callee s m operands values signature types).Mutable index)
    (first : values[index]? = some (.ref left)) (second : values[other]? = some (.ref right)) :
    ¬ left.Meets right := by
  obtain ⟨leftOperand, leftMutable, leftInner, leftPresent, leftForm, leftRefers, kept⟩ :=
    handed.argument valid first
  obtain ⟨rightOperand, _, _, rightPresent, rightForm, rightRefers, _⟩ := handed.argument
    valid second
  obtain ⟨⟨place, mode⟩, leftKnown, exclusive, leftLeads⟩ := leftRefers.traced held
  obtain ⟨⟨place', mode'⟩, rightKnown, _, rightLeads⟩ := rightRefers.traced held
  obtain rfl := kept mutable
  obtain rfl : mode = .exclusive := exclusive rfl
  have guarded := handed.guarded held
  simp only [Check.guardedCall, strict, Check.allOperands?_map_some, Option.map_some,
    Option.getD_some, Bool.and_eq_true, Bool.not_true, Bool.false_or] at guarded
  have leftListed : (leftOperand, index) ∈ operands.zipIdx := by
    simpa [List.mem_zipIdx_iff_getElem?] using leftPresent
  have rightListed : (rightOperand, other) ∈ operands.zipIdx := by
    simpa [List.mem_zipIdx_iff_getElem?] using rightPresent
  have pair := List.all_eq_true.mp (List.all_eq_true.mp guarded.2 _ leftListed) _ rightListed
  simp only [differs, leftForm, rightForm, Ty.isMutableRef, Ty.isRef, decide_false, Bool.not_true,
    Bool.false_or] at pair
  have disjoint := List.all_eq_true.mp pair _ leftKnown
  simp only [reduceCtorEq, decide_false, Bool.false_or] at disjoint
  have clear := List.all_eq_true.mp disjoint _ rightKnown
  exact leftLeads.apart valid held strict rightLeads (by simpa using clear)

theorem valid_callee : (a.callee s m operands values signature types).Valid where
  declared := valid.declared
  instantiates := valid.instantiates.call handed.count handed.plain handed.faultless
  weighs := valid.weighs
  below_lt := by
    intro frame index ty given
    simp only [callee] at given ⊢
    split at given
    · rename_i here
      rw [here]
      exact Nat.lt_succ_self _
    · exact Nat.lt_succ_of_lt (valid.below_lt given)
  outside := by
    intro held reference given
    obtain ⟨index, present⟩ := List.mem_iff_getElem?.mp given
    obtain ⟨_, _, _, _, _, refers, _⟩ := handed.argument valid present
    exact handed.outside_of_traced valid held (refers.traced held)
  apart held strict _ _ _ _ differs mutable first second :=
    handed.apart valid held strict differs mutable first second

/-! ### Behind the call -/

variable (returned : Returned (a.callee s m operands values signature types) m total value m')

include returned

/-- Whatever the callee leaves the caller leaves. -/
theorem leaves : a.Leaves m m' where
  keeps := by
    have keeps := returned.leaves.keeps
    refine ⟨keeps.height, keeps.store, fun lower frame found => ?_⟩
    obtain ⟨frame', found', like⟩ := keeps.frames (Nat.lt_succ_of_lt lower) found
    refine ⟨frame', found', like.mono fun index given => ?_⟩
    simpa [callee, Nat.ne_of_lt lower] using given
  spares held := by
    have spares := returned.leaves.spares held
    refine ⟨fun apart filled => spares.fills
      (fun reached => apart (handed.reach held reached)) filled, ?_⟩
    intro reference outside stands missed
    refine spares.same (handed.outside held outside) stands ?_
    intro argument writes
    obtain ⟨place, leads⟩ := handed.writes valid held writes
    exact leads.misses outside missed

variable (agrees : Agrees a read s sum m)

include agrees

theorem after_call :
    After a read s m s (sum + (total - m.worth a.weight - value.weigh a.weight)) m' := by
  have surroundings : Surroundings a m' := by
    refine ⟨fun {frame index ty} given => ?_, returned.surroundings.stored,
      returned.surroundings.faithful, returned.surroundings.hosts, returned.surroundings.signers⟩
    refine returned.surroundings.below (Eq.trans ?_ given)
    simp [callee, Nat.ne_of_lt (valid.below_lt given)]
  refine .of_machine valid agrees (alike_call agrees returned) surroundings
    (handed.leaves valid returned) ?_ ?_
  · intro held id loan key granted isFor filled
    exact (returned.leaves.spares held).fills (handed.unlent held granted isFor) filled
  · have worth : m'.worth a.weight + value.weigh a.weight = total := returned.worth
    omega

/-- What a callee gives back is anchored by what it was lent. A reference that comes back leads to a
part of what an argument leads to, whose loans the checker keeps for it. -/
theorem holds_result {loans : Loans} {access : Access} {ids : LoanSet}
    (kept : (signature.ret.subst types).isRef = true → ∀ id ∈ lentLoans operands, id ∈ ids ∧
      loans.get? id = s.loans.get? id) :
    Holds a { s with access := access, loans := loans } ids m'
    (signature.ret.subst types) value := by
  have foreign := returned.result
  have bindable : a.ctx.types.isBindable signature.typeParams.length signature.ret = true :=
    valid.declared.ret_bindable handed.declared
  refine ⟨?_, ?_⟩
  · rw [Universe.subst_subst_of_isBindable handed.enough a.types bindable]
    exact foreign.conforms
  rintro mutable inner reference form rfl
  have isReference : signature.ret.isRef = true := by
    rw [← Universe.isRef_subst handed.enough handed.plain bindable, form]
    rfl
  obtain ⟨written, innerWritten, ret⟩ : ∃ written innerWritten,
      signature.ret = .ref written innerWritten := by
    cases ret : signature.ret <;> simp [ret, Ty.isRef] at isReference
    exact ⟨_, _, rfl⟩
  obtain ⟨keptMutable, whole, outer, reached⟩ := foreign.refers ret rfl
  rw [ret] at form bindable
  obtain ⟨rfl, rfl⟩ := Ty.ref.inj form
  have innerPlain : a.ctx.types.isPlain signature.typeParams.length innerWritten = true := bindable
  have kept' := kept (by rw [ret]; rfl)
  have lentOut : ∀ index, reference.root = .local a.depth index →
      a.lends s m (lentLoans operands) index = some whole := by
    intro index here
    rw [here] at outer
    simpa [outerType, callee] using outer
  refine ⟨keptMutable, ⟨whole, ?_, ?_⟩, ?_, fun held => ?_, fun held key rooted => ?_⟩
  · cases root : reference.root with
    | «local» frame index =>
      by_cases here : frame = a.depth
      · subst here
        obtain ⟨slot, found, rfl, _⟩ := lends_eq_some (lentOut index root)
        simp [rootType, found]
      · rw [root] at outer
        simpa [rootType, outerType, callee, here] using outer
    | global key => rw [root] at outer; exact outer
    | host index => rw [root] at outer; exact outer
  · rw [Universe.subst_subst handed.enough a.types innerWritten innerPlain]
    exact reached
  · intro index here
    obtain ⟨slot, found, _, _, present, borrowed⟩ := lends_eq_some (lentOut index here)
    obtain ⟨id, member, loan, granted, rooted⟩ := Loans.mem_borrowed.mp borrowed
    obtain ⟨member', same⟩ := kept' id member
    exact ⟨(alike_call agrees returned).isSome agrees present,
      Loans.mem_borrowed.mpr ⟨id, member', loan, same.trans granted, rooted⟩⟩
  · obtain ⟨index, argument, given, within, writes⟩ := returned.repays held ret rfl
    obtain ⟨operand, _, _, present, operandForm, refers, opens⟩ := handed.argument valid given
    refine (((refers.traced held).weaken fun wanted => opens (writes wanted)).within
      within).transfer List.prefix_rfl (Loans.origins_mono fun id member loan granted => ?_)
    obtain ⟨member', same⟩ := kept' id (mem_lentLoans.mpr
      ⟨operand, List.mem_of_getElem? present, by rw [operandForm]; rfl, member⟩)
    exact ⟨member', same.trans granted⟩
  · obtain ⟨index, argument, given, within, _⟩ := returned.repays held ret rfl
    obtain ⟨_, _, _, _, _, refers, _⟩ := handed.argument valid given
    have outside := handed.outside_of_traced valid held (refers.traced held)
    exact (returned.leaves.spares held).stands outside (refers.stands held) key
      (within.1.symm.trans rooted)

end Handed

/-! ### The call itself -/

section Caller

theorem ensures_resolveTypes {m : Machine} {types : List Ty} {locals : Locals}
    (declarations : setup.program.types = a.ctx.types) (frame : Matches a locals m)
    (resolved : List.Forall₂ a.ctx.Means typeArgs types) :
    Ensures a.toTerms (typeArgs.mapM (Exec.resolveType setup)) m fun found m' =>
      types.map (·.subst a.types) = found ∧ m = m' := by
  induction resolved with
  | nil => exact ensures_pure ⟨rfl, rfl⟩
  | @cons type ty typeArgs types here _ ih =>
    have known : setup.program.types.resolve m.current.function.module m.current.typeParams type =
        .ok ty := by
      rw [declarations, frame.function, frame.typeParams]
      exact Universe.resolve_of_resolveAt here
    have first : Ensures a.toTerms (Exec.resolveType setup type) m fun found m' =>
        ty.subst a.types = found ∧ m = m' := by
      refine ensures_get (ensures_bind_resolved known ?_)
      rw [frame.typeArgs]
      exact ensures_pure ⟨rfl, rfl⟩
    rw [List.mapM_cons]
    refine first.bind ?_
    rintro _ _ ⟨rfl, rfl⟩
    refine ih.bind ?_
    rintro _ _ ⟨rfl, rfl⟩
    exact ensures_pure ⟨rfl, rfl⟩

theorem sound_call (declarations : setup.program.types = a.ctx.types) (valid : a.Valid)
    (invokes : Invokes setup a.toRegime invoke) {module : Option String} {function : String}
    {args : List Expr} (soundAll : SoundAll setup invoke a read args) :
    Sound setup invoke a read (.call module function typeArgs args) := by
  intro s sum m ready
  obtain ⟨operands, s', accepted, clean, form⟩ := Check.several_accepted
    (Check.call a.ctx module function typeArgs) rfl
    (Check.walks_exprs valid.declared args) ready.formed ready.clean
  obtain ⟨callee, types, access, loans, found, count, resolved, faultless, flows, step,
    releases, _⟩ :=
    Check.call_accepted clean
  have formed' := accepted.walked.formed ready.formed
  have named := valid.declared.function_id found
  have guarded := ready.guarded
  simp only [Check.guardedExpr, accepted.result, Bool.and_eq_true] at guarded
  rw [eval]
  refine (soundAll _ _ _ _ _ accepted ready.formed (by simpa [Check.steadyExpr] using ready.steady)
    (fun held => (guarded held).1) (by simpa [Expr.names] using ready.names) ready.agrees).bind ?_
  rintro values m' ⟨after, holdAll⟩
  refine (ensures_resolveTypes declarations after.agrees.frame resolved).bind ?_
  rintro _ _ ⟨rfl, rfl⟩
  refine ensures_get ?_
  have same : (⟨module.getD m'.current.function.module, function⟩ : FunctionId) = callee.id := by
    rw [named, after.agrees.frame.function]
    rfl
  simp only [same]
  cases known : setup.program.function? callee.id with
  | none => exact ensures_fail rfl
  | some decl =>
    have handed : Handed a s' m' operands values callee types :=
      ⟨named ▸ found, count.trans resolved.length_eq, Check.arePlain_of_resolved resolved,
        faultless, accepted.bindable, flows, holdAll, fun held => named ▸ (guarded held).2⟩
    refine (invokes (a.callee s' m' operands values callee types) decl m'
      (handed.valid_callee valid) rfl declarations handed.declared known
      (by rw [after.agrees.frame.height]; rfl) (Handed.surroundings_callee after.agrees)
      (handed.foreign valid) fun held => handed.stands valid held).mono ?_
    intro value m'' returned
    have after' := handed.after_call valid returned after.agrees
    refine ⟨_, _, ready.accepted valid (form.trans step), ?_, ?_⟩
    · have whole := after.trans after'
      refine (whole.trans (.release valid formed' releases access whole.agrees)).of_sum ?_
      simp only [Activation.callee]
      ring
    · have typed : (callResult (callee.ret.subst types) operands).ty = callee.ret.subst types := by
        unfold callResult
        split <;> rfl
      rw [typed]
      refine handed.holds_result valid returned after.agrees ?_
      intro isReference id lent
      have kept : id ∈ (callResult (callee.ret.subst types) operands).loans := by
        rw [loans_callResult isReference]
        exact lent
      refine ⟨kept, releases.keeps (.inr ?_)⟩
      rintro ⟨_, _, _, gone⟩
      exact gone kept

end Caller

/-! ## Every expression -/

section Assembly

/-- What evaluating the expressions of a call rests on: its types are those of the program, and
calls keep their contract. -/
structure Evaluating (setup : Setup) (invoke : Invoke) (a : Activation) : Prop where
  declarations : setup.program.types = a.ctx.types
  valid : a.Valid
  invokes : Invokes setup a.toRegime invoke

mutual

/-- Every expression is sound, if calls keep their contract. -/
theorem sound_expr (given : Evaluating setup invoke a) : (e : Expr) → Sound setup invoke a read e
  | .unit | .bool _ | .u8 _ | .u64 _ | .u128 _ | .address _ =>
    sound_literal given.valid rfl rfl rfl rfl (by simp [Value.weigh])
  | .var name => sound_var given.valid name
  | .copy name => sound_copy given.valid name
  | .move name => sound_move given.valid name
  | .borrow mutable name => sound_borrow given.valid mutable name
  | .borrowField mutable base field =>
    sound_borrowField given.declarations given.valid (sound_expr given base) mutable field
  | .freeze inner => sound_freeze given.valid (sound_expr given inner)
  | .deref inner => sound_deref given.valid (sound_expr given inner)
  | .pack _ fields => sound_pack given.declarations given.valid (sound_fields given fields)
  | .call _ _ _ args =>
    sound_call given.declarations given.valid given.invokes (sound_exprs given args)
  | .binary op left right => by
    have soundLeft := sound_expr given left
    have soundRight := sound_expr given right
    cases lazy : op.isLogical with
    | true => exact sound_logical given.valid lazy soundLeft soundRight
    | false => exact sound_eager given.valid lazy soundLeft soundRight
  | .not inner => sound_not given.valid (sound_expr given inner)
  | .vector _ items => sound_vector given.valid (sound_exprs given items)
  | .signerAddress inner => sound_signerAddress given.valid (sound_expr given inner)
  | .moveTo struct signer value =>
    sound_moveTo given.declarations given.valid struct (sound_expr given signer)
      (sound_expr given value)
  | .moveFrom struct addr =>
    sound_moveFrom given.declarations given.valid struct (sound_expr given addr)
  | .borrowGlobal struct mutable addr =>
    sound_borrowGlobal given.declarations given.valid struct mutable (sound_expr given addr)
  | .existsAt struct addr =>
    sound_existsAt given.declarations given.valid struct (sound_expr given addr)

theorem sound_exprs (given : Evaluating setup invoke a) :
    (es : List Expr) → SoundAll setup invoke a read es
  | [] => soundAll_nil
  | e :: es => soundAll_cons given.valid (sound_expr given e) (sound_exprs given es)

theorem sound_fields (given : Evaluating setup invoke a) :
    (fields : List (String × Expr)) → SoundAll setup invoke a read (fields.map (·.2))
  | [] => soundAll_nil
  | (_, e) :: fields => soundAll_cons given.valid (sound_expr given e) (sound_fields given fields)

end

end Assembly

end Custody
