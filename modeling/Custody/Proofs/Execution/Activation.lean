import Custody.Proofs.Checking.Guarded
import Custody.Proofs.Execution.Effects
import Custody.Proofs.Values.Abilities
/-!
# Running calls

A call is given values for its parameters, locals of the frames below that its references may lead
to, and a set of structs that it may reach in storage. A call that is run leaves the frames below it
with the bindings they had, and with values of the same weights in the places that were open to it.
-/

namespace Custody

variable {value : Value} {weight : StructId → Nat} {frame frame' : Frame} {ty : Ty}

/-! ## Running calls -/

/-- What the calls of an execution have in common. -/
structure Regime extends Terms where
  guard : Guard
  /-- What the structs weigh. -/
  weight : StructId → Nat

/-- A running call and what it is given to know of the rest of the machine. -/
structure Activation extends Regime where
  ctx : BodyContext
  /-- What the type parameters stand for. -/
  types : List Ty
  /-- The number of its frame. -/
  depth : Nat
  /-- The locals of frames below that its references may lead to, with their types. -/
  below : Nat → Nat → Option Ty
  /-- The number of cells that the host supplied. -/
  hosts : Nat
  /-- The values of its parameters. -/
  args : List Value

namespace Activation

/-- The structs that the call may reach in storage. -/
def reach (a : Activation) : SortedSet StructId := Access.reached a.guard.reach a.ctx.signature.id

/-- The parameter was declared as a mutable reference. -/
def Mutable (a : Activation) (index : Nat) : Prop :=
  ∃ name inner, a.ctx.signature.params[index]? = some (name, .ref true inner)

/-- The reference leads neither into the frame of the call nor to storage that it may reach. -/
def Outside (a : Activation) (reference : Reference) : Prop :=
  match reference.root with
  | .local frame _ => frame < a.depth
  | .global key => ¬ key.tag.id ∈ a.reach
  | .host _ => True

/-- If the terms are held, the references that the call was given lead outside, and those that it
may write through meet no other one where the guard keeps them apart. -/
structure Valid (a : Activation) : Prop where
  declared : a.ctx.types.Accepted
  instantiates : a.ctx.types.Instantiates a.ctx.signature.typeParams a.types
  weighs : a.ctx.types.Weighs a.weight
  below_lt : ∀ {frame index ty}, a.below frame index = some ty → frame < a.depth
  outside : a.held → ∀ {reference}, .ref reference ∈ a.args → a.Outside reference
  apart : a.held → a.guard.apart = true → ∀ {index other left right}, index ≠ other →
    a.Mutable index → a.args[index]? = some (.ref left) → a.args[other]? = some (.ref right) →
    ¬ left.Meets right

end Activation

section Substitution

variable {a : Activation} (valid : a.Valid) {ty : Ty}

include valid

theorem Activation.Valid.enough : a.ctx.arity ≤ a.types.length :=
  Nat.le_of_eq valid.instantiates.length.symm

theorem Activation.Valid.isPlain_subst (plain : a.ctx.Plain ty) :
    a.ctx.types.isPlain 0 (ty.subst a.types) = true :=
  Universe.isPlain_subst valid.enough valid.instantiates.plain ty plain

/-- What may be copied or discarded weighs nothing. -/
theorem Activation.Valid.weigh_eq_zero
    (bindable : a.ctx.Bindable ty)
    (ability : Ability) (loose : ability.isLoose = true)
      (has : (a.ctx.abilities ty).has ability = true)
    (conforms : value.conformsTo a.ctx.types (ty.subst a.types) = true) :
      value.weigh a.weight = 0 := by
  cases reference : ty.isRef with
  | true =>
    cases ty <;> simp [Ty.isRef] at reference
    cases value <;> simp [Ty.subst, Value.conformsTo, Value.weigh] at conforms ⊢
  | false =>
    exact Value.weigh_eq_zero valid.declared valid.weighs loose value _
      (valid.isPlain_subst (Universe.isPlain_of_isBindable bindable reference)) conforms
      (valid.instantiates.has_abilities has)

end Substitution

/-! ## Frames below -/

/-- A frame in which values may have been replaced at the open positions. -/
structure Frame.Like (weight : StructId → Nat) (isOpen : Nat → Prop) (frame frame' : Frame) :
    Prop where
  function : frame'.function = frame.function
  typeParams : frame'.typeParams = frame.typeParams
  typeArgs : frame'.typeArgs = frame.typeArgs
  names : frame'.bindings.map (·.name) = frame.bindings.map (·.name)
  same : ∀ index, ¬ isOpen index → frame'.bindings[index]? = frame.bindings[index]?
  values : ∀ {index value}, frame.value? index = some value →
    ∃ value', frame'.value? index = some value' ∧ value'.weigh weight = value.weigh weight

theorem Frame.Like.refl (weight : StructId → Nat) (isOpen : Nat → Prop) (frame : Frame) :
    frame.Like weight isOpen frame :=
  ⟨rfl, rfl, rfl, rfl, fun _ _ => rfl, fun found => ⟨_, found, rfl⟩⟩

theorem Frame.Like.trans {isOpen : Nat → Prop} {frame middle after : Frame}
    (first : frame.Like weight isOpen middle) (second : middle.Like weight isOpen after) :
    frame.Like weight isOpen after where
  function := second.function.trans first.function
  typeParams := second.typeParams.trans first.typeParams
  typeArgs := second.typeArgs.trans first.typeArgs
  names := second.names.trans first.names
  same index closed := (second.same index closed).trans (first.same index closed)
  values found := by
    obtain ⟨value', found', weigh'⟩ := first.values found
    obtain ⟨value'', found'', weigh''⟩ := second.values found'
    exact ⟨value'', found'', weigh''.trans weigh'⟩

theorem Frame.Like.mono {isOpen isOpen' : Nat → Prop} (like : frame.Like weight isOpen frame')
    (wider : ∀ index, isOpen index → isOpen' index) : frame.Like weight isOpen' frame' :=
  { like with
    same := fun index closed => like.same index fun inside => closed (wider index inside) }

/-- Storage behind the transaction is the same, and in the frames numbered below `count` only open
positions may have changed. -/
structure Machine.Keeps (weight : StructId → Nat) (below : Nat → Nat → Option Ty) (count : Nat)
    (m m' : Machine) : Prop where
  height : m'.callers.length = m.callers.length
  store : m'.store = m.store
  frames : ∀ {n}, n < count → ∀ {frame}, m.frame? n = some frame →
    ∃ frame', m'.frame? n = some frame' ∧
      frame.Like weight (fun index => (below n index).isSome = true) frame'

namespace Machine.Keeps

variable {weight : StructId → Nat} {below : Nat → Nat → Option Ty} {count : Nat}
  {m m' m'' : Machine}

theorem refl (weight : StructId → Nat) (below : Nat → Nat → Option Ty) (count : Nat) (m : Machine) :
    Keeps weight below count m m :=
  ⟨rfl, rfl, fun _ frame found => ⟨frame, found, Frame.Like.refl _ _ _⟩⟩

theorem trans (first : Keeps weight below count m m') (second : Keeps weight below count m' m'') :
    Keeps weight below count m m'' where
  height := second.height.trans first.height
  store := second.store.trans first.store
  frames within frame found := by
    obtain ⟨frame', found', like'⟩ := first.frames within found
    obtain ⟨frame'', found'', like''⟩ := second.frames within found'
    exact ⟨frame'', found'', like'.trans like''⟩

/-- Machines with the same frames. -/
theorem of_frames (current : m'.current = m.current) (callers : m'.callers = m.callers)
    (store : m'.store = m.store) : Keeps weight below count m m' := by
  refine ⟨by rw [callers], store, fun _ frame found => ⟨frame, ?_, Frame.Like.refl _ _ _⟩⟩
  rw [← found, Machine.frame?, Machine.frame?, current, callers]

/-- Changing the running frame leaves those below it as they are. -/
theorem of_callers (callers : m'.callers = m.callers) (store : m'.store = m.store)
    (within : count ≤ m.callers.length) : Keeps weight below count m m' := by
  refine ⟨by rw [callers], store, fun inside frame found => ⟨frame, ?_, Frame.Like.refl _ _ _⟩⟩
  rw [← found, Machine.frame?, Machine.frame?, callers]
  simp only [Nat.ne_of_lt (Nat.lt_of_lt_of_le inside within), if_false]

end Machine.Keeps

end Custody
