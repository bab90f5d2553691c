import Custody.Proofs.Borrowing.Origins
/-!
# Agreement between checker and machine

A state of the checker describes the frame of a running call. It agrees with the machine if every
binding has the name and the type the checker gave it, if what the checker takes to be there is
there, if references that may still be read lead somewhere, and if the books balance: the worth of
the machine together with the weight of what the bindings own is what it was when the call began.

References into the running frame are anchored: the local they point at holds a value, and a live
loan among those the checker keeps for them says so. References into frames below and into cells of
the host need no loan, since the call cannot take those away. Where the terms are held, a reference
comes from where one of its loans says, and the slot of storage that it starts in is filled.
-/

namespace Custody

variable {value : Value} {weight : StructId → Nat} {frame frame' : Frame} {index : Nat} {ty : Ty}
  {locals : Locals} {mutable : Bool}

/-! ## References -/

/-- The type of what a reference starts from. -/
def Activation.rootType (a : Activation) (locals : Locals) : RefRoot → Option Ty
  | .local frame index =>
    if frame = a.depth then (locals.slot? index).map fun slot => slot.ty.subst a.types
    else a.below frame index
  | .global key => some key.tag.ty
  | .host index => if index < a.hosts then some .signer else none

/-- A reference leads to a value of the type; into the running frame it is anchored by one of the
given loans, and one of them says where it comes from. -/
structure Refers (a : Activation) (s : BodyState) (ids : LoanSet) (m : Machine) (mutable : Bool)
    (reference : Reference) (target : Ty) : Prop where
  kept : mutable = true → reference.mutable = true
  typed : ∃ whole, a.rootType s.locals reference.root = some whole ∧
    a.ctx.types.typeAt? whole reference.path = some target
  anchored : ∀ index, reference.root = .local a.depth index →
    (m.local? a.depth index).isSome = true ∧ index ∈ s.loans.borrowed ids
  traced : a.held → Traced a s ids mutable reference
  stands : a.held → reference.Stands m

/-- A value of the type a written type denotes in this call. -/
structure Holds (a : Activation) (s : BodyState) (ids : LoanSet) (m : Machine) (ty : Ty)
    (value : Value) : Prop where
  conforms : value.conformsTo a.ctx.types (ty.subst a.types) = true
  refers : ∀ {mutable inner reference}, ty = .ref mutable inner → value = .ref reference →
    Refers a s ids m mutable reference (inner.subst a.types)

/-- Some loans vouch for all that others vouch for. -/
structure Vouches (a : Activation) (s : BodyState) (ids : LoanSet) (s' : BodyState)
    (ids' : LoanSet) : Prop where
  borrowed : ∀ binding ∈ s.loans.borrowed ids, binding ∈ s'.loans.borrowed ids'
  origins : a.held → ∀ origin ∈ s.loans.origins ids, origin ∈ s'.loans.origins ids'

/-- What loans vouch for on one machine is there on another. -/
structure Bears (a : Activation) (s : BodyState) (ids : LoanSet) (m m' : Machine) : Prop where
  present : ∀ index ∈ s.loans.borrowed ids, (m.local? a.depth index).isSome = true →
    (m'.local? a.depth index).isSome = true
  stands : a.held → ∀ {mutable reference}, Traced a s ids mutable reference → reference.Stands m →
    reference.Stands m'

section References

variable {a : Activation} {s s' : BodyState} {ids ids' : LoanSet} {m m' : Machine}

theorem Vouches.of_origins (known : ∀ origin ∈ s.loans.origins ids,
    origin ∈ s'.loans.origins ids') : Vouches a s ids s' ids' :=
  ⟨Loans.borrowed_subset known, fun _ => known⟩

theorem Vouches.of_loans (same : s'.loans = s.loans) : Vouches a s ids s' ids :=
  .of_origins fun _ inside => by rwa [same]

theorem Bears.refl (a : Activation) (s : BodyState) (ids : LoanSet) (m : Machine) :
    Bears a s ids m m :=
  ⟨fun _ _ present => present, fun _ _ _ _ stands => stands⟩

theorem Holds.of_value (isValue : ty.isRef = false)
    (conforms : value.conformsTo a.ctx.types (ty.subst a.types) = true) :
    Holds a s ids m ty value :=
  ⟨conforms, fun form _ => by simp [form, Ty.isRef] at isValue⟩

theorem Holds.of_reference {inner : Ty} {reference : Reference}
    (refers : Refers a s ids m mutable reference (inner.subst a.types)) :
    Holds a s ids m (.ref mutable inner) (.ref reference) := by
  refine ⟨rfl, ?_⟩
  rintro mutable' inner' reference' form same
  obtain ⟨rfl, rfl⟩ := Ty.ref.inj form
  obtain rfl := Value.ref.inj same
  exact refers

theorem rootType_of_shapes (shapes : s.locals.shapes <+: s'.locals.shapes) {root : RefRoot}
    (typed : a.rootType s.locals root = some ty) : a.rootType s'.locals root = some ty := by
  cases root with
  | «local» frame index =>
    simp only [Activation.rootType] at typed ⊢
    split
    · rename_i here
      rw [if_pos here] at typed
      obtain ⟨slot, found, rfl⟩ := Option.map_eq_some_iff.mp typed
      obtain ⟨slot', found', same⟩ := Locals.slot?_of_shapes shapes found
      have sameType : slot'.ty = slot.ty := congrArg (·.2.1) same
      simp [found', sameType]
    · rename_i here
      rwa [if_neg here] at typed
  | global key => exact typed
  | host index => exact typed

theorem Refers.transfer {reference : Reference} {target : Ty}
    (refers : Refers a s ids m mutable reference target)
    (shapes : s.locals.shapes <+: s'.locals.shapes) (vouches : Vouches a s ids s' ids')
    (bears : Bears a s ids m m') : Refers a s' ids' m' mutable reference target where
  kept := refers.kept
  typed := by
    obtain ⟨whole, typed, reached⟩ := refers.typed
    exact ⟨whole, rootType_of_shapes shapes typed, reached⟩
  anchored index rooted := by
    obtain ⟨present, borrowed⟩ := refers.anchored index rooted
    exact ⟨bears.present index borrowed present, vouches.borrowed index borrowed⟩
  traced held := (refers.traced held).transfer shapes (vouches.origins held)
  stands held := bears.stands held (refers.traced held) (refers.stands held)

theorem Holds.transfer (holds : Holds a s ids m ty value)
    (shapes : s.locals.shapes <+: s'.locals.shapes) (vouches : Vouches a s ids s' ids')
    (bears : Bears a s ids m m') : Holds a s' ids' m' ty value where
  conforms := holds.conforms
  refers form same := (holds.refers form same).transfer shapes vouches bears

/-- A reference may stand where one is wanted through which nothing is written. -/
theorem Refers.shared {reference : Reference} {target : Ty}
    (refers : Refers a s ids m mutable reference target) :
    Refers a s ids m false reference target :=
  { refers with
    kept := fun absurd => by cases absurd
    traced := fun held => (refers.traced held).weaken fun absurd => by cases absurd }

/-- A value may stand where its type flows. -/
theorem Holds.flows {found expected : Ty} (flow : found.flowsInto expected = true)
    (holds : Holds a s ids m found value) : Holds a s ids m expected value := by
  unfold Ty.flowsInto at flow
  split at flow
  · rename_i same
    exact same ▸ holds
  · split at flow
    · rename_i actual wanted _
      obtain rfl := of_decide_eq_true flow
      refine ⟨?_, ?_⟩
      · have conforms := holds.conforms
        cases value <;> simp_all [Ty.subst, Value.conformsTo]
      · rintro mutable inner reference form rfl
        obtain ⟨rfl, rfl⟩ := Ty.ref.inj form
        exact (holds.refers rfl rfl).shared
    · cases flow

/-- What has the type of a reference is one. -/
theorem Holds.eq_ref {inner : Ty} (holds : Holds a s ids m (.ref mutable inner) value) :
    ∃ reference, value = .ref reference ∧ Refers a s ids m mutable reference
    (inner.subst a.types) := by
  have conforms := holds.conforms
  cases value with
  | ref reference => exact ⟨reference, rfl, holds.refers rfl rfl⟩
  | _ => simp [Ty.subst, Value.conformsTo] at conforms

end References

/-! ## Accounts -/

/-- What the bindings weigh that own their values. -/
def Frame.owed (weight : StructId → Nat) (owned : Nat → Bool) (frame : Frame) : Nat :=
  ∑ index ∈ Finset.range frame.bindings.length,
    if owned index then weighSlot weight (frame.value? index) else 0

theorem Frame.owed_congr {owned owned' : Nat → Bool}
    (length : frame'.bindings.length = frame.bindings.length)
    (same : ∀ index < frame.bindings.length,
      (if owned' index then weighSlot weight (frame'.value? index) else 0) =
        if owned index then weighSlot weight (frame.value? index) else 0) :
    frame'.owed weight owned' = frame.owed weight owned := by
  unfold Frame.owed
  rw [length]
  exact Finset.sum_congr rfl fun index inside => same index (Finset.mem_range.mp inside)

/-- Two accounts that differ at one position. -/
theorem Frame.owed_change (weight : StructId → Nat) (owned owned' : Nat → Bool)
    (length : frame'.bindings.length = frame.bindings.length)
    (within : index < frame.bindings.length)
    (same : ∀ other < frame.bindings.length, other ≠ index →
      (if owned' other then weighSlot weight (frame'.value? other) else 0) =
        if owned other then weighSlot weight (frame.value? other) else 0) :
    frame'.owed weight owned' + (if owned index then weighSlot weight (frame.value? index) else 0) =
      frame.owed weight owned +
        if owned' index then weighSlot weight (frame'.value? index) else 0 := by
  have member : index ∈ Finset.range frame.bindings.length := Finset.mem_range.mpr within
  unfold Frame.owed
  rw [length, ← Finset.add_sum_erase _ _ member, ← Finset.add_sum_erase _ _ member]
  have others : ∑ other ∈ (Finset.range frame.bindings.length).erase index,
      (if owned' other then weighSlot weight (frame'.value? other) else 0) =
      ∑ other ∈ (Finset.range frame.bindings.length).erase index,
        if owned other then weighSlot weight (frame.value? other) else 0 := by
    refine Finset.sum_congr rfl fun other inside => ?_
    obtain ⟨differs, inside⟩ := Finset.mem_erase.mp inside
    exact same other (Finset.mem_range.mp inside) differs
  rw [others]
  omega

/-- What the checker says about who owns a value: live bindings do, consumed ones do not. -/
structure Owns (locals : Locals) (owned : Nat → Bool) : Prop where
  live : ∀ {index slot}, locals.slot? index = some slot → slot.state = .live → owned index = true
  consumed : ∀ {index slot}, locals.slot? index = some slot → slot.state = .consumed →
    owned index = false

/-- The books of a call: worth and owned values come to the given sum. -/
def Balanced (a : Activation) (s : BodyState) (sum : Int) (m : Machine) : Prop :=
  ∃ owned, Owns s.locals owned ∧ m.worth a.weight + m.current.owed a.weight owned = sum

/-! ## Agreement -/

/-- The rest of the machine is as the call may expect it. -/
structure Surroundings (a : Activation) (m : Machine) : Prop where
  below : ∀ {frame index ty}, a.below frame index = some ty →
    ∃ value, m.local? frame index = some value ∧ value.conformsTo a.ctx.types ty = true
  stored : ∀ {key value}, m.tx.sees m.store key = some value →
    value.conformsTo a.ctx.types key.tag.ty = true
  faithful : m.tx.Faithful m.store
  hosts : m.host.length = a.hosts
  signers : ∀ value ∈ m.host, value.conformsTo a.ctx.types .signer = true

/-- The running frame is that of the call, and its bindings those of the checker. -/
structure Matches (a : Activation) (locals : Locals) (m : Machine) : Prop where
  function : m.current.function = a.ctx.signature.id
  typeParams : m.current.typeParams = a.ctx.signature.typeParams
  typeArgs : m.current.typeArgs = a.types
  height : m.callers.length = a.depth
  names : m.current.bindings.map (·.name) = locals.slots.map (·.name)

/-- The machine is where the checker takes it to be; the names given may still be read. -/
structure Agrees (a : Activation) (read : List String) (s : BodyState) (sum : Int) (m : Machine) :
    Prop where
  frame : Matches a s.locals m
  conforms : ∀ {index slot value}, s.locals.slot? index = some slot →
    m.local? a.depth index = some value →
    value.conformsTo a.ctx.types (slot.ty.subst a.types) = true
  live : ∀ {index slot}, s.locals.slot? index = some slot → slot.state = .live →
    ∃ value, m.local? a.depth index = some value ∧
      (slot.name ∈ read → Holds a s slot.loans m slot.ty value)
  surroundings : Surroundings a m
  balanced : Balanced a s sum m
  lent : a.held → ∀ {reference}, .ref reference ∈ a.args → reference.Stands m

section Agreement

variable {a : Activation} {read read' : List String} {s s' : BodyState} {sum : Int} {m m' : Machine}

theorem Matches.length (frame : Matches a locals m) : m.current.bindings.length = locals.size := by
  simpa [Locals.size] using congrArg List.length frame.names

theorem Matches.of_shapes {locals' : Locals} (frame : Matches a locals m)
    (same : locals'.shapes = locals.shapes) : Matches a locals' m := by
  refine { frame with names := frame.names.trans ?_ }
  have names := congrArg (List.map (·.1)) same
  simpa [Locals.shapes, Slot.shape, Function.comp_def] using names.symm

/-- A position with a value is a binding of the checker. -/
theorem Agrees.slot_of_value (agrees : Agrees a read s sum m)
    (found : m.local? a.depth index = some value) : ∃ slot, s.locals.slot? index = some slot := by
  rw [Machine.local?_of_height agrees.frame.height] at found
  obtain ⟨binding, here, _⟩ := Option.bind_eq_some_iff.mp found
  have within := (List.getElem?_eq_some_iff.mp here).1
  exact Locals.slot?_of_lt (by rw [← agrees.frame.length]; exact within)

/-! ### Forgetting -/

/-- What the checker does on its own: it forgets, but never where a reference comes from that may
still be read, and about ownership only what weighs nothing. -/
structure Forgets (a : Activation) (read : List String) (s s' : BodyState) : Prop where
  shapes : s'.locals.shapes = s.locals.shapes
  live : ∀ {index slot slot'}, s.locals.slot? index = some slot →
    s'.locals.slot? index = some slot' → slot'.state = .live →
    slot.state = .live ∧ (slot.name ∈ read → Vouches a s slot.loans s' slot'.loans)
  consumed : ∀ {index slot slot'}, s.locals.slot? index = some slot →
    s'.locals.slot? index = some slot' → slot'.state = .consumed →
    slot.state = .consumed ∨ slot.canDrop = true ∨ ∀ id, a.weight id = 0

theorem Forgets.slot_before (forgets : Forgets a read s s') {slot' : Slot}
    (found : s'.locals.slot? index = some slot') :
    ∃ slot, s.locals.slot? index = some slot ∧ slot.name = slot'.name ∧ slot.ty = slot'.ty := by
  have more : s'.locals.shapes <+: s.locals.shapes := isPrefix_of_eq forgets.shapes
  obtain ⟨slot, found', shape⟩ := Locals.slot?_of_shapes more found
  exact ⟨slot, found', congrArg (·.1) shape, congrArg (·.2.1) shape⟩

/-- With no weights nothing weighs anything. -/
theorem weigh_of_weightless (zero : ∀ id, weight id = 0) : (value : Value) → value.weigh weight = 0
  | .struct tag fields => by
    rw [Value.weigh, zero, Value.weighAll_eq_sum, Nat.zero_add]
    refine List.sum_eq_zero fun term member => ?_
    obtain ⟨field, _, rfl⟩ := List.mem_map.mp member
    exact weigh_of_weightless zero field
  | .vector items => by
    rw [Value.weigh, Value.weighAll_eq_sum]
    refine List.sum_eq_zero fun term member => ?_
    obtain ⟨item, _, rfl⟩ := List.mem_map.mp member
    exact weigh_of_weightless zero item
  | .unit | .bool _ | .u8 _ | .u64 _ | .u128 _ | .address _ | .signer _ | .ref _ => by
    simp [Value.weigh]

/-- What stays on the books where a state of the checker says which values are gone. -/
def stillOwned (locals : Locals) (owned : Nat → Bool) (index : Nat) : Bool :=
  match locals.slot? index with
  | some slot => owned index && slot.state != .consumed
  | none => owned index

theorem Balanced.forget (valid : a.Valid) (formed : Check.Formed a.ctx s)
    (forgets : Forgets a read' s s') (frame : Matches a s.locals m)
    (conforms : ∀ {index slot value}, s.locals.slot? index = some slot →
      m.local? a.depth index = some value →
      value.conformsTo a.ctx.types (slot.ty.subst a.types) = true)
    (balanced : Balanced a s sum m) : Balanced a s' sum m := by
  obtain ⟨owned, owns, total⟩ := balanced
  -- Where the weaker state says that a value is gone, it is taken off the books.
  refine ⟨stillOwned s'.locals owned, ⟨?_, ?_⟩, ?_⟩
  · intro index slot' found' live'
    obtain ⟨slot, found, _⟩ := forgets.slot_before found'
    have live := (forgets.live found found' live').1
    simp [stillOwned, found', live', owns.live found live]
  · intro index slot' found' consumed'
    simp [stillOwned, found', consumed']
  · rw [← total]
    congr 2
    refine Frame.owed_congr rfl fun index within => ?_
    rw [frame.length] at within
    obtain ⟨slot, found⟩ := Locals.slot?_of_lt within
    have more : s.locals.shapes <+: s'.locals.shapes := isPrefix_of_eq forgets.shapes.symm
    obtain ⟨slot', found', _⟩ := Locals.slot?_of_shapes more found
    by_cases consumed' : slot'.state = .consumed
    · have weightless : owned index = true → weighSlot a.weight (m.current.value? index) = 0 := by
        intro mine
        cases value : m.current.value? index with
        | none => rfl
        | some held =>
          have conforming := conforms found
            ((Machine.local?_of_height frame.height index).trans value)
          rcases forgets.consumed found found' consumed' with consumed | drops | zero
          · rw [owns.consumed found consumed] at mine
            cases mine
          · obtain ⟨bindable, abilities⟩ := formed.slot found
            rw [Slot.canDrop, abilities] at drops
            exact valid.weigh_eq_zero bindable .drop rfl drops conforming
          · exact weigh_of_weightless zero held
      cases mine : owned index <;> simp [stillOwned, found', consumed', mine] at weightless ⊢
      exact weightless.symm
    · simp [stillOwned, found', consumed']

/-- What agrees with a state agrees with it still once the checker has forgotten something. -/
theorem Agrees.forget (valid : a.Valid) (formed : Check.Formed a.ctx s)
    (forgets : Forgets a read' s s') (fewer : ∀ name ∈ read', name ∈ read)
    (agrees : Agrees a read s sum m) : Agrees a read' s' sum m where
  frame := agrees.frame.of_shapes forgets.shapes
  conforms := by
    intro index slot' value found' present
    obtain ⟨slot, found, _, sameType⟩ := forgets.slot_before found'
    rw [← sameType]
    exact agrees.conforms found present
  live := by
    intro index slot' found' live'
    obtain ⟨slot, found, sameName, sameType⟩ := forgets.slot_before found'
    obtain ⟨live, vouches⟩ := forgets.live found found' live'
    obtain ⟨value, present, holds⟩ := agrees.live found live
    refine ⟨value, present, fun mentioned => ?_⟩
    rw [← sameName] at mentioned
    rw [← sameType]
    exact (holds (fewer _ mentioned)).transfer (isPrefix_of_eq forgets.shapes.symm)
      (vouches mentioned) (.refl _ _ _ _)
  surroundings := agrees.surroundings
  balanced := agrees.balanced.forget valid formed forgets agrees.frame agrees.conforms
  lent := agrees.lent

/-- Fewer names need to be looked after. -/
theorem Agrees.mono (agrees : Agrees a read s sum m) (fewer : ∀ name ∈ read', name ∈ read) :
    Agrees a read' s sum m :=
  { agrees with
    live := fun found live => by
      obtain ⟨value, present, holds⟩ := agrees.live found live
      exact ⟨value, present, fun mentioned => holds (fewer _ mentioned)⟩ }

/-! ### Changes of the machine -/

/-- The running frame has the same bindings, with values of the same types and weights in the same
places; references are untouched. -/
structure Alike (a : Activation) (s : BodyState) (m m' : Machine) : Prop where
  function : m'.current.function = m.current.function
  typeParams : m'.current.typeParams = m.current.typeParams
  typeArgs : m'.current.typeArgs = m.current.typeArgs
  height : m'.callers.length = m.callers.length
  names : m'.current.bindings.map (·.name) = m.current.bindings.map (·.name)
  absent : ∀ {index}, m.local? a.depth index = none → m'.local? a.depth index = none
  present : ∀ {index slot value}, s.locals.slot? index = some slot →
    m.local? a.depth index = some value →
    ∃ value', m'.local? a.depth index = some value' ∧
      value'.conformsTo a.ctx.types (slot.ty.subst a.types) = true ∧
      (slot.ty.isRef = true → value' = value) ∧ value'.weigh a.weight = value.weigh a.weight

/-- Machines with the same running frame. -/
theorem Alike.of_frames (agrees : Agrees a read s sum m) (current : m'.current = m.current)
    (callers : m'.callers = m.callers) : Alike a s m m' := by
  have same : ∀ index, m'.local? a.depth index = m.local? a.depth index := by
    intro index
    rw [Machine.local?_eq, Machine.local?_eq, Machine.frame?, Machine.frame?, current, callers]
  refine ⟨by rw [current], by rw [current], by rw [current], by rw [callers],
    by rw [current], ?_, ?_⟩
  · intro index absent
    rw [same, absent]
  · intro index slot value found present
    exact ⟨value, by rw [same, present], agrees.conforms found present, fun _ => rfl, rfl⟩

theorem Alike.isSome (alike : Alike a s m m') (agrees : Agrees a read s sum m)
    (present : (m.local? a.depth index).isSome = true) :
    (m'.local? a.depth index).isSome = true := by
  obtain ⟨value, found⟩ := Option.isSome_iff_exists.mp present
  obtain ⟨slot, known⟩ := agrees.slot_of_value found
  obtain ⟨value', found', _⟩ := alike.present known found
  rw [found']
  rfl

/-- What the machine leaves as it was bears what loans vouch for, if slots stay filled that are
lent. -/
theorem Alike.bears (alike : Alike a s m m') (agrees : Agrees a read s sum m) (valid : a.Valid)
    (leaves : a.Leaves m m') (stored : a.held → ∀ {id loan key}, s.loans.get? id = some loan →
      loan.place.IsFor a key → m.Fills key → m'.Fills key)
    (ids : LoanSet) : Bears a s ids m m' where
  present _ _ there := alike.isSome agrees there
  stands held _ _ traced stands := traced.stands stands
    (fun given => (leaves.spares held).stands (valid.outside held given) (agrees.lent held given))
    fun _ granted isFor filled => stored held granted isFor filled

theorem Agrees.alike (agrees : Agrees a read s sum m) (valid : a.Valid) (alike : Alike a s m m')
    (surroundings : Surroundings a m') (leaves : a.Leaves m m')
    (stored : a.held → ∀ {id loan key}, s.loans.get? id = some loan →
      loan.place.IsFor a key → m.Fills key → m'.Fills key)
    {change : Int} (worth : m'.worth a.weight = m.worth a.weight + change) :
    Agrees a read s (sum + change) m' where
  frame :=
    ⟨alike.function.trans agrees.frame.function, alike.typeParams.trans agrees.frame.typeParams,
      alike.typeArgs.trans agrees.frame.typeArgs, alike.height.trans agrees.frame.height,
      alike.names.trans agrees.frame.names⟩
  conforms := by
    intro index slot value' found present'
    cases before : m.local? a.depth index with
    | none =>
      rw [alike.absent before] at present'
      cases present'
    | some value =>
      obtain ⟨value'', present'', conforms, _⟩ := alike.present found before
      obtain rfl := Option.mem_unique present'' present'
      exact conforms
  live := by
    intro index slot found live
    obtain ⟨value, present, holds⟩ := agrees.live found live
    obtain ⟨value', present', conforms, same, _⟩ := alike.present found present
    refine ⟨value', present', fun mentioned => ⟨conforms, ?_⟩⟩
    intro mutable inner reference form equal
    rw [same (by rw [form]; rfl)] at equal
    exact ((holds mentioned).refers form equal).transfer List.prefix_rfl (.of_loans rfl)
      (alike.bears agrees valid leaves stored slot.loans)
  surroundings := surroundings
  balanced := by
    obtain ⟨owned, owns, total⟩ := agrees.balanced
    refine ⟨owned, owns, ?_⟩
    have length : m'.current.bindings.length = m.current.bindings.length := by
      simpa using congrArg List.length alike.names
    have owed : m'.current.owed a.weight owned = m.current.owed a.weight owned := by
      refine Frame.owed_congr length fun index within => ?_
      have height := agrees.frame.height
      have before := Machine.local?_of_height height index
      have after := Machine.local?_of_height (alike.height.trans height) index
      cases present : m.local? a.depth index with
      | none =>
        rw [← before, ← after, present, alike.absent present]
      | some value =>
        obtain ⟨slot, found⟩ := agrees.slot_of_value present
        obtain ⟨value', present', _, _, weigh⟩ := alike.present found present
        rw [← before, ← after, present, present', weighSlot_some, weighSlot_some, weigh]
    rw [owed, worth, ← total]
    ring
  lent held _ given := (leaves.spares held).stands (valid.outside held given)
    (agrees.lent held given)

end Agreement

end Custody
