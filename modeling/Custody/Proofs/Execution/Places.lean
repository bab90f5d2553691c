import Custody.Proofs.Execution.Transitions
/-!
# Reading and writing places

Reading through a reference that leads somewhere gives a value of its type. Writing through it keeps
every value at its type, since the part that is replaced gives way to one of the same type; where
the old part and the new one weigh nothing, the books stay balanced. Neither can be a breach.
-/

namespace Custody

open Exec Machine Transaction

variable {value : Value} {weight : StructId → Nat} {old new : Value} {ty : Ty}
  {reference : Reference} {target : Ty} {index : Nat} {whole : Ty} {below : Nat → Nat → Option Ty}
  {n : Nat} {locals : Locals} {path : List Nat} {key : SlotKey} {u : Universe} {slot : Slot}

section Places

variable {a : Activation} {read : List String} {s : BodyState} {sum : Int} {m m' : Machine}
  {ids : LoanSet}

/-! ## Storage -/

theorem Surroundings.with_tx (surroundings : Surroundings a m) {tx : Transaction}
    (faithful : tx.Faithful m.store)
    (stored : ∀ {key value}, tx.sees m.store key = some value →
      value.conformsTo a.ctx.types key.tag.ty = true) : Surroundings a { m with tx := tx } :=
  ⟨surroundings.below, stored, faithful, surroundings.hosts, surroundings.signers⟩

/-- A slot was written. -/
theorem Surroundings.record (surroundings : Surroundings a m) (key : SlotKey) (entry : Entry)
    (written : entry.dirty = true)
    (conforms : ∀ {value}, entry.value = some value →
      value.conformsTo a.ctx.types key.tag.ty = true) :
    Surroundings a { m with tx := m.tx.record key entry } := by
  refine surroundings.with_tx (surroundings.faithful.record fun clean => ?_) ?_
  · rw [written] at clean
    cases clean
  · intro other value seen
    rw [sees_record] at seen
    split at seen
    · rename_i same
      rw [same]
      exact conforms seen
    · exact surroundings.stored seen

theorem worth_record (m : Machine) (weight : StructId → Nat) (key : SlotKey) (entry : Entry) :
    ({ m with tx := m.tx.record key entry } : Machine).worth weight = m.worth weight +
      (weighSlot weight entry.value - weighSlot weight (m.tx.sees m.store key)) := by
  have sight := sight_record weight m.tx m.store key entry
  simp only [worth]
  omega

variable (valid : a.Valid) (agrees : Agrees a read s sum m)

include valid agrees

/-- A slot was touched; what the transaction sees is the same. -/
theorem after_touch (key : SlotKey) :
    After a read s m s sum { m with tx := m.tx.record key (m.tx.entry m.store key) } := by
  have surroundings := agrees.surroundings
  have around : Surroundings a { m with tx := m.tx.record key (m.tx.entry m.store key) } := by
    refine surroundings.with_tx (surroundings.faithful.touch key) fun seen => ?_
    rw [sees_touch] at seen
    exact surroundings.stored seen
  refine (After.of_quiet valid agrees (.touch m key) around ?_).of_sum (Int.add_zero sum)
  simp only [worth, sight, sees_touch, Int.add_zero]

/-- A filled slot was read. -/
theorem after_read (ok : (m.tx.read m.store key).1 = .ok value) :
    value.conformsTo a.ctx.types key.tag.ty = true ∧
      After a read s m s sum { m with tx := (m.tx.read m.store key).2 } ∧
      Fills { m with tx := (m.tx.read m.store key).2 } key := by
  cases seen : (m.tx.entry m.store key).value with
  | none => simp [Transaction.read, seen] at ok
  | some stored =>
    obtain rfl : stored = value := by simpa [Transaction.read, seen] using ok
    have filled : m.Fills key := by simp [Fills, sees, seen]
    have touched := (AllBut.touch m key).fills (by simp) filled
    refine ⟨agrees.surroundings.stored seen, ?_, by simpa [Transaction.read, seen] using touched⟩
    simpa [Transaction.read, seen] using after_touch valid agrees key

omit valid agrees

theorem missing_of_read {failure : Failure} (error : (m.tx.read m.store key).1 = .error failure) :
    failure = .missing key ∧ ¬ m.Fills key := by
  cases seen : (m.tx.entry m.store key).value with
  | none =>
    obtain rfl : .missing key = failure := by simpa [Transaction.read, seen] using error
    exact ⟨rfl, by simp [Fills, sees, seen]⟩
  | some stored => simp [Transaction.read, seen] at error

include valid agrees

theorem ensures_readSlot (seeks : a.held → Seeks key m) :
    Ensures a.toTerms (storage fun tx store => tx.read store key) m fun value m' =>
      value.conformsTo a.ctx.types key.tag.ty = true ∧ After a read s m s sum m' ∧
        m'.Fills key := by
  refine ensures_storage (fun value ok => after_read valid agrees ok) fun failure error => ?_
  rw [(missing_of_read error).1]
  exact .of_seeks seeks

/-! ## Roots -/

variable (typed : a.rootType s.locals reference.root = some whole)
  (anchored : ∀ index, reference.root = .local a.depth index →
    (m.local? a.depth index).isSome = true)
  (stands : a.held → reference.Stands m)

include typed anchored stands

theorem ensures_readRoot : Ensures a.toTerms (readRoot reference.root) m fun value m' =>
    value.conformsTo a.ctx.types whole = true ∧ After a read s m s sum m' := by
  unfold readRoot
  cases root : reference.root with
  | «local» frame index =>
    refine ensures_get ?_
    rw [root, Activation.rootType] at typed
    split at typed
    · rename_i here
      subst here
      obtain ⟨slot, found, rfl⟩ := Option.map_eq_some_iff.mp typed
      obtain ⟨value, present⟩ := Option.isSome_iff_exists.mp (anchored index root)
      exact ensures_require present ⟨agrees.conforms found present, .refl agrees⟩
    · obtain ⟨value, present, conforms⟩ := agrees.surroundings.below typed
      exact ensures_require present ⟨conforms, .refl agrees⟩
  | global key =>
    rw [root] at typed
    obtain rfl : key.tag.ty = whole := Option.some.inj typed
    refine ensures_referred (fun value ok => ?_) fun failure error => ?_
    · obtain ⟨conforms, after, _⟩ := after_read valid agrees ok
      exact ⟨conforms, after⟩
    · obtain ⟨rfl, empty⟩ := missing_of_read error
      exact ⟨rfl, fun held => empty (stands held key root)⟩
  | host index =>
    refine ensures_get ?_
    rw [root, Activation.rootType] at typed
    split at typed
    · rename_i within
      obtain rfl := Option.some.inj typed
      have inside : index < m.host.length := by rw [agrees.surroundings.hosts]; exact within
      exact ensures_require (List.getElem?_eq_getElem inside)
        ⟨agrees.surroundings.signers _ (List.getElem_mem inside), .refl agrees⟩
    · cases typed

theorem ensures_readPlace (reached : a.ctx.types.typeAt? whole reference.path = some target) :
    Ensures a.toTerms (readPlace reference) m fun value m' =>
      value.conformsTo a.ctx.types target = true ∧ After a read s m s sum m' := by
  refine (ensures_readRoot valid agrees typed anchored stands).bind ?_
  rintro value m' ⟨conforms, after⟩
  obtain ⟨part, found, partConforms⟩ := Value.descend_conformsTo conforms reached
  have followed : ((value.descend reference.path).mapError misstep) = .ok part := by
    rw [found]
    rfl
  exact ensures_sound followed ⟨partConforms, after⟩

omit typed anchored stands

theorem ensures_readReference {mutable : Bool}
    (refers : Refers a s ids m mutable reference target) :
    Ensures a.toTerms (readPlace reference) m fun value m' =>
      value.conformsTo a.ctx.types target = true ∧ After a read s m s sum m' := by
  obtain ⟨whole, typed, reached⟩ := refers.typed
  exact ensures_readPlace valid agrees typed (fun index here => (refers.anchored index here).1)
    refers.stands reached

/-- The value itself, or what it refers to. -/
theorem ensures_readThrough
    (bindable : a.ctx.Bindable ty)
    (holds : Holds a s ids m ty value) : Ensures a.toTerms (readThrough value) m fun value m' =>
      value.conformsTo a.ctx.types ((ty.referent?.getD ty).subst a.types) = true ∧
        After a read s m s sum m' := by
  cases isRef : ty.isRef with
  | true =>
    cases ty with
    | ref mutable inner =>
      obtain ⟨reference, rfl, refers⟩ := holds.eq_ref
      exact ensures_readReference valid agrees refers
    | _ => simp [Ty.isRef] at isRef
  | false =>
    have plain : ty.referent?.getD ty = ty := by
      cases ty <;> simp_all [Ty.referent?, Ty.isRef]
    have direct : readThrough value = pure value := by
      cases value with
      | ref reference =>
        have absurd := Value.isRef_of_conformsTo_ref holds.conforms
        rw [Universe.isRef_subst valid.enough valid.instantiates.plain bindable, isRef] at absurd
        cases absurd
      | _ => rfl
    rw [direct, plain]
    exact ensures_pure ⟨holds.conforms, .refl agrees⟩

omit valid agrees

/-! ## Emptying and filling a local -/

section Setting

variable (valid : a.Valid) (id : BindingId) (value : Option Value)

theorem Matches.setLocal (frame : Matches a locals m) :
    Matches a locals (m.setLocal a.depth id value) := by
  have current := current_setLocal m a.depth id value
  rw [if_pos frame.height] at current
  refine ⟨?_, ?_, ?_, (height_setLocal _ _ _ _).trans frame.height, ?_⟩ <;> rw [current]
  · exact frame.function
  · exact frame.typeParams
  · exact frame.typeArgs
  · exact (Frame.names_put _ _ _).trans frame.names

/-- Setting a local leaves the surroundings as they are, but for the frames below. -/
theorem Surroundings.setLocal_of_below (surroundings : Surroundings a m)
    (below : ∀ {frame index ty}, a.below frame index = some ty → ∃ held,
      (m.setLocal n id value).local? frame index = some held ∧ held.conformsTo a.ctx.types
      ty = true) :
    Surroundings a (m.setLocal n id value) := by
  refine ⟨below, ?_, ?_, ?_, ?_⟩
  · intro key held seen
    rw [tx_setLocal, store_setLocal] at seen
    exact surroundings.stored seen
  · simpa using surroundings.faithful
  · simpa using surroundings.hosts
  · simpa using surroundings.signers

include valid in
theorem Surroundings.setLocal (surroundings : Surroundings a m) :
    Surroundings a (m.setLocal a.depth id value) := by
  refine surroundings.setLocal_of_below _ _ fun typed => ?_
  have lower := valid.below_lt typed
  rw [local?_setLocal_of_ne _ _ _ _ fun here => Nat.ne_of_lt lower here.1]
  exact surroundings.below typed

theorem fills_setLocal (filled : m.Fills key) : (m.setLocal n id value).Fills key := by
  simpa [Fills] using filled

theorem leaves_setLocal_own : a.Leaves m (m.setLocal a.depth id value) := by
  refine ⟨⟨height_setLocal _ _ _ _, store_setLocal _ _ _ _, fun within frame found => ?_⟩,
    fun _ => spares_of_own (by simp) (by simp) fun lower _ => ?_⟩
  · refine ⟨frame, ?_, Frame.Like.refl _ _ _⟩
    rw [frame?_setLocal, if_neg (Nat.ne_of_lt within), found]
  · exact local?_setLocal_of_ne _ _ _ _ fun same => Nat.ne_of_lt lower same.1

theorem worth_setLocal (weight : StructId → Nat) (n : Nat) :
    (m.setLocal n id value).worth weight = m.worth weight :=
  worth_congr _ (by simp) (by simp) (by simp)

end Setting

/-- The machine behind the use of a local: its value may have been taken out. -/
def Taken (a : Activation) (m : Machine) (id : BindingId) (m' : Machine) : Prop :=
  m' = m ∨ m' = m.setLocal a.depth id none

section Taking

variable {id : BindingId} (taken : Taken a m id m')

include taken

theorem Taken.local?_of_ne {frame : Nat} (differs : ¬ (frame = a.depth ∧ index = id)) :
    m'.local? frame index = m.local? frame index := by
  rcases taken with rfl | rfl
  · rfl
  · exact local?_setLocal_of_ne _ _ _ _ differs

theorem Taken.worth : m'.worth a.weight = m.worth a.weight := by
  rcases taken with rfl | rfl
  · rfl
  · exact worth_setLocal id none a.weight a.depth

theorem Taken.surroundings (valid : a.Valid) (surroundings : Surroundings a m) :
    Surroundings a m' := by
  rcases taken with rfl | rfl
  · exact surroundings
  · exact surroundings.setLocal valid id none

theorem Taken.leaves : a.Leaves m m' := by
  rcases taken with rfl | rfl
  · exact .refl _ _
  · exact leaves_setLocal_own id none

theorem Taken.fills (filled : m.Fills key) : m'.Fills key := by
  rcases taken with rfl | rfl
  · exact filled
  · exact fills_setLocal id none filled

theorem Taken.frame (frame : Matches a locals m) : Matches a locals m' := by
  rcases taken with rfl | rfl
  · exact frame
  · exact frame.setLocal id none

omit taken

/-- The slots behind the move of a local. -/
theorem slot?_consume (locals : Locals) (id other : BindingId) :
    (locals.consume id).2.slot? other =
      if other = id then
        (locals.slot? other).map fun slot => { slot with state := .consumed, loans := ∅ }
      else locals.slot? other :=
  Locals.slot?_modify _ _ _ _

theorem Balanced.consume (balanced : Balanced a s sum m) (frame : Matches a s.locals m)
    (found : s.locals.slot? id = some slot) (live : slot.state = .live)
    (present : m.local? a.depth id = some value) (taken : Taken a m id m') :
    Balanced a { s with locals := (s.locals.consume id).2 } (sum - value.weigh a.weight) m' := by
  obtain ⟨owned, owns, total⟩ := balanced
  have frame' := taken.frame frame
  have within : id < m.current.bindings.length := by
    rw [frame.length]
    exact Locals.slot?_lt found
  refine ⟨fun index => decide (index ≠ id) && owned index, ⟨?_, ?_⟩, ?_⟩
  · intro index slot' found' live'
    rw [slot?_consume] at found'
    split at found'
    · obtain ⟨_, _, rfl⟩ := Option.map_eq_some_iff.mp found'
      cases live'
    · rename_i differs
      simp [differs, owns.live found' live']
  · intro index slot' found' consumed
    rw [slot?_consume] at found'
    split at found'
    · rename_i same
      simp [same]
    · rename_i differs
      simp [owns.consumed found' consumed]
  · have changed := Frame.owed_change a.weight owned
      (fun index => decide (index ≠ id) && owned index)
      (frame'.length.trans frame.length.symm) within fun other _ differs => by
        have same : m'.local? a.depth other = m.local? a.depth other :=
          taken.local?_of_ne fun here => differs here.2
        rw [local?_of_height frame'.height, local?_of_height frame.height] at same
        simp [differs, same]
    have here : m.current.value? id = some value := by
      rw [← local?_of_height frame.height, present]
    rw [if_pos (owns.live found live), here, weighSlot_some, if_neg (by simp)] at changed
    rw [taken.worth, ← total]
    omega

/-- A local whose value nothing borrows was moved. -/
theorem after_consume (valid : a.Valid) (agrees : Agrees a read s sum m)
    (found : s.locals.slot? id = some slot) (live : slot.state = .live)
    (free : s.loans.conflicting? { root := .local id } .exclusive = none)
    (present : m.local? a.depth id = some value) (taken : Taken a m id m') :
    After a read s m { s with locals := (s.locals.consume id).2 } (sum - value.weigh a.weight) m' ∧
      (slot.name ∈ read →
        Holds a { s with locals := (s.locals.consume id).2 } slot.loans m' slot.ty value) := by
  have shapes := Locals.shapes_consume s.locals id
  -- No loan is of the local itself, so every anchor is another local.
  have anchors : ∀ (ids : LoanSet) (index : BindingId), index ∈ s.loans.borrowed ids →
      m'.local? a.depth index = m.local? a.depth index := by
    intro ids index inside
    obtain ⟨_, _, loan, granted, rooted⟩ := Loans.mem_borrowed.mp inside
    refine taken.local?_of_ne fun here => ?_
    exact Loans.root_ne_of_conflicting?_eq_none free granted (here.2 ▸ rooted)
  have moves : ∀ {ids : LoanSet} {ty : Ty} {held : Value}, Holds a s ids m ty held →
      Holds a { s with locals := (s.locals.consume id).2 } ids m' ty held := by
    intro ids ty held holds
    have prefixed : s.locals.shapes <+: (s.locals.consume id).2.shapes := isPrefix_of_eq shapes.symm
    refine holds.transfer prefixed (.of_loans rfl) ⟨fun index inside there => ?_,
      fun _ _ _ _ stands key rooted => taken.fills (stands key rooted)⟩
    rw [anchors ids index inside]
    exact there
  refine ⟨⟨⟨?_, ?_, ?_, taken.surroundings valid agrees.surroundings, ?_,
    fun held _ given key rooted => taken.fills (agrees.lent held given key rooted)⟩, .refl _, ?_,
    fun _ _ _ _ _ _ _ filled => taken.fills filled, taken.leaves⟩, ?_⟩
  · exact (taken.frame agrees.frame).of_shapes shapes
  · intro index slot' held found' there
    rw [slot?_consume] at found'
    split at found'
    · rename_i same
      subst same
      obtain ⟨slot'', old, rfl⟩ := Option.map_eq_some_iff.mp found'
      rcases taken with rfl | rfl
      · have conforms := agrees.conforms old there
        exact conforms
      · rw [local?_setLocal_self _ _ _ _ present] at there
        cases there
    · rename_i differs
      rw [taken.local?_of_ne fun here => differs here.2] at there
      exact agrees.conforms found' there
  · intro index slot' found' live'
    rw [slot?_consume] at found'
    split at found'
    · obtain ⟨_, _, rfl⟩ := Option.map_eq_some_iff.mp found'
      cases live'
    · rename_i differs
      obtain ⟨held, there, holds⟩ := agrees.live found' live'
      refine ⟨held, ?_, fun mentioned => moves (holds mentioned)⟩
      rw [taken.local?_of_ne fun here => differs here.2, there]
  · exact agrees.balanced.consume agrees.frame found live present taken
  · intro loanId loan index _ granted rooted there
    have inside : index ∈ s.loans.borrowed (SortedSet.insert ∅ loanId) :=
      Loans.mem_borrowed.mpr ⟨loanId, by simp, loan, granted, rooted⟩
    rw [anchors _ index inside]
    exact there
  · intro mentioned
    obtain ⟨held, there, holds⟩ := agrees.live found live
    obtain rfl := Option.mem_unique present there
    exact moves (holds mentioned)

end Taking

/-! ## Replacing a local -/

theorem keeps_setLocal {count : Nat} (present : m.local? n index = some old)
    (weigh : new.weigh weight = old.weigh weight)
    (isOpen : n < count → (below n index).isSome = true) :
    m.Keeps weight below count (m.setLocal n index (some new)) := by
  refine ⟨height_setLocal _ _ _ _, store_setLocal _ _ _ _, fun {k} within frame found => ?_⟩
  rw [frame?_setLocal]
  by_cases here : k = n
  · subst here
    refine ⟨frame.put index (some new), by rw [if_pos rfl, found, Option.map_some], ?_⟩
    refine ⟨rfl, rfl, rfl, Frame.names_put _ _ _, ?_, ?_⟩
    · intro other closed
      refine Frame.getElem?_put _ _ fun same => closed ?_
      rw [same]
      exact isOpen within
    · intro other value there
      rw [Frame.value?_put]
      by_cases same : other = index
      · subst same
        have before : m.local? k other = some value := by
          rw [local?_eq, found, Option.bind_some, there]
        obtain rfl := Option.mem_unique before present
        obtain ⟨binding, bound, _⟩ := Option.bind_eq_some_iff.mp there
        exact ⟨new, by rw [if_pos rfl, bound, Option.bind_some], weigh⟩
      · exact ⟨value, by rw [if_neg same, there], rfl⟩
  · exact ⟨frame, by rw [if_neg here, found], Frame.Like.refl _ _ _⟩

theorem surroundings_setLocal (surroundings : Surroundings a m)
    (present : m.local? n index = some old)
    (conforms : ∀ {ty}, a.below n index = some ty → new.conformsTo a.ctx.types ty = true) :
    Surroundings a (m.setLocal n index (some new)) := by
  refine surroundings.setLocal_of_below _ _ fun {frame position _} typed => ?_
  by_cases here : frame = n ∧ position = index
  · obtain ⟨rfl, rfl⟩ := here
    exact ⟨new, local?_setLocal_self _ _ _ _ present, conforms typed⟩
  · rw [local?_setLocal_of_ne _ _ _ _ here]
    exact surroundings.below typed

theorem alike_setLocal (agrees : Agrees a read s sum m) (present : m.local? n index = some old)
    (weigh : new.weigh a.weight = old.weigh a.weight)
    (own : n = a.depth → ∀ {slot}, s.locals.slot? index = some slot →
      new.conformsTo a.ctx.types (slot.ty.subst a.types) = true ∧ slot.ty.isRef = false) :
    Alike a s m (m.setLocal n index (some new)) := by
  have current := current_setLocal m n index (some new)
  refine ⟨?_, ?_, ?_, height_setLocal _ _ _ _, ?_, ?_, ?_⟩
  · rw [current]
    split <;> rfl
  · rw [current]
    split <;> rfl
  · rw [current]
    split <;> rfl
  · rw [current]
    split
    · exact Frame.names_put _ _ _
    · rfl
  · intro position absent
    by_cases here : a.depth = n ∧ position = index
    · obtain ⟨rfl, rfl⟩ := here
      rw [present] at absent
      cases absent
    · rw [local?_setLocal_of_ne _ _ _ _ here, absent]
  · intro position slot value found there
    by_cases here : a.depth = n ∧ position = index
    · obtain ⟨rfl, rfl⟩ := here
      obtain rfl := Option.mem_unique there present
      obtain ⟨conforms, isValue⟩ := own rfl found
      refine ⟨new, local?_setLocal_self _ _ _ _ present, conforms, ?_, weigh⟩
      intro isRef
      rw [isRef] at isValue
      cases isValue
    · exact ⟨value, by rw [local?_setLocal_of_ne _ _ _ _ here, there],
        agrees.conforms found there, fun _ => rfl, rfl⟩

/-! ## Writing -/

/-- What no reference leads into is no reference. -/
theorem isRef_of_typeAt? (reached : u.typeAt? whole path = some target)
    (isValue : target.isRef = false) : whole.isRef = false := by
  cases path with
  | nil =>
    obtain rfl : whole = target := by simpa [Universe.typeAt?] using reached
    exact isValue
  | cons index path =>
    obtain ⟨id, args, _, _, rfl, _⟩ := Universe.field_of_typeAt? reached
    rfl

theorem isRef_of_isRef_subst {types : List Ty} (isValue : (ty.subst types).isRef = false) :
    ty.isRef = false := by
  cases ty <;> simp_all [Ty.subst, Ty.isRef]

section Writing

variable {part : Value}

/-- A part that weighs nothing gives way to another one. -/
theorem replaced (conforms : value.conformsTo u whole = true)
    (reached : u.typeAt? whole path = some target) (fits : part.conformsTo u target = true)
    (light : ∀ value : Value, value.conformsTo u target = true → value.weigh weight = 0) :
    ∃ changed, value.replaceAt path part = .ok changed ∧ changed.conformsTo u whole = true ∧
      changed.weigh weight = value.weigh weight := by
  obtain ⟨changed, done, changedConforms⟩ := Value.replaceAt_conformsTo conforms reached fits
  obtain ⟨old, found, oldConforms⟩ := Value.descend_conformsTo conforms reached
  have weigh := @Value.weigh_replaceAt weight _ _ _ _ _ found done
  rw [light old oldConforms, light part fits] at weigh
  exact ⟨changed, done, changedConforms, by omega⟩

variable (valid : a.Valid) (agrees : Agrees a read s sum m)
  (refers : Refers a s ids m true reference target)
    (fits : part.conformsTo a.ctx.types target = true)
    (light : ∀ value : Value, value.conformsTo a.ctx.types target = true → value.weigh a.weight = 0)

include valid agrees refers fits light

/-- A local of the running frame, or one below it that the call may reach. -/
theorem ensures_writeLocal (isValue : target.isRef = false) {frame index : Nat}
    (root : reference.root = .local frame index) :
    Ensures a.toTerms (writePlace reference part) m fun _ m' => After a read s m s sum m' := by
  obtain ⟨whole, typed, reached⟩ := refers.typed
  have wholeIsValue := isRef_of_typeAt? reached isValue
  obtain ⟨value, present, conforms, after⟩ : ∃ value, m.local? frame index = some value ∧
      value.conformsTo a.ctx.types whole = true ∧ ∀ changed : Value,
        changed.conformsTo a.ctx.types whole = true →
        changed.weigh a.weight = value.weigh a.weight →
        m.Rewritten reference (m.setLocal frame index (some changed)) →
        After a read s m s sum (m.setLocal frame index (some changed)) := by
    rw [root, Activation.rootType] at typed
    split at typed
    · rename_i here
      subst here
      obtain ⟨slot, found, rfl⟩ := Option.map_eq_some_iff.mp typed
      obtain ⟨value, present⟩ := Option.isSome_iff_exists.mp (refers.anchored index root).1
      refine ⟨value, present, agrees.conforms found present,
        fun changed conforms weigh rewritten => ?_⟩
      refine .of_write valid agrees refers rewritten (alike_setLocal agrees present weigh ?_)
        (surroundings_setLocal agrees.surroundings present ?_)
        (keeps_setLocal present weigh fun absurd => (Nat.lt_irrefl _ absurd).elim)
        (worth_congr _ (by simp) (by simp) (by simp))
      · intro _ slot' found'
        obtain rfl := Option.mem_unique found found'
        exact ⟨conforms, isRef_of_isRef_subst wholeIsValue⟩
      · intro ty absurd
        exact (Nat.lt_irrefl _ (valid.below_lt absurd)).elim
    · rename_i elsewhere
      obtain ⟨value, present, conforms⟩ := agrees.surroundings.below typed
      refine ⟨value, present, conforms, fun changed conforms weigh rewritten => ?_⟩
      refine .of_write valid agrees refers rewritten
        (alike_setLocal agrees present weigh fun here =>
          (elsewhere here).elim)
        (surroundings_setLocal agrees.surroundings present ?_)
        (keeps_setLocal present weigh fun _ => by rw [typed]; rfl)
        (worth_congr _ (by simp) (by simp) (by simp))
      intro ty known
      obtain rfl := Option.mem_unique typed known
      exact conforms
  obtain ⟨changed, done, changedConforms, weigh⟩ := replaced conforms reached fits light
  have followed : ((value.replaceAt reference.path part).mapError misstep) = .ok changed := by
    rw [done]
    rfl
  rw [writePlace, root]
  refine ensures_get (ensures_bind_require present (ensures_bind_sound followed
    (ensures_modify (by simp) (after _ changedConforms weigh ⟨?_, ?_⟩))))
  · intro other differs
    rw [root] at differs
    cases other with
    | «local» frame' index' =>
      exact local?_setLocal_of_ne _ _ _ _ fun same => differs (by rw [same.1, same.2])
    | global key => simp [root?]
    | host cell => simp [root?]
  · rw [root]
    exact ⟨value, part, changed, present, done, local?_setLocal_self _ _ _ _ present⟩

theorem ensures_writeSlot (root : reference.root = .global key) :
    Ensures a.toTerms (writePlace reference part) m fun _ m' => After a read s m s sum m' := by
  obtain ⟨whole, typed, reached⟩ := refers.typed
  rw [root] at typed
  obtain rfl : key.tag.ty = whole := Option.some.inj typed
  have stored : Ensures a.toTerms (referred fun tx store => tx.update store key
      (·.replaceAt reference.path part)) m fun result m' =>
        result = .ok () ∧ After a read s m s sum m' := by
    cases seen : (m.tx.entry m.store key).value with
    | none =>
      refine ensures_referred ?_ ?_
      · intro value ok
        simp [update, seen] at ok
      · intro failure error
        obtain rfl : .missing key = failure := by simpa [update, seen] using error
        refine ⟨rfl, fun held => ?_⟩
        have filled := refers.stands held key root
        simp [Fills, sees, seen] at filled
    | some value =>
      obtain ⟨changed, done, changedConforms, weigh⟩ :=
        replaced (agrees.surroundings.stored seen) reached fits light
      refine ensures_referred ?_ ?_
      · intro result ok
        obtain rfl : .ok () = result := by simpa [update, seen, done] using ok
        have visible : m.tx.sees m.store key = some value := seen
        let entry : Entry := { m.tx.entry m.store key with value := some changed, dirty := true }
        have rewritten : m.Rewritten reference { m with tx := m.tx.record key entry } := by
          refine ⟨fun {other} differs => ?_, ?_⟩
          · rw [root] at differs
            exact (AllBut.record m key entry).root? fun _ same => Option.some.inj same ▸ differs
          · rw [root]
            refine ⟨value, part, changed, visible, done, ?_⟩
            exact (sees_record m.tx m.store key key entry).trans (if_pos rfl)
        have worth := worth_record m a.weight key entry
        simp only [entry, visible, weighSlot_some, weigh, Int.sub_self, Int.add_zero] at worth
        have after : After a read s m s sum { m with tx := m.tx.record key entry } :=
          .of_write valid agrees refers rewritten (.of_frames agrees rfl rfl)
            (agrees.surroundings.record key entry rfl
              fun same => Option.some.inj same ▸ changedConforms) (.of_frames rfl rfl rfl) worth
        simpa [update, seen, done] using after
      · intro failure error
        simp [update, seen, done] at error
  rw [writePlace, root]
  refine stored.bind ?_
  rintro _ m' ⟨rfl, after⟩
  exact ensures_pure after

theorem ensures_writeHost {cell : Nat} (root : reference.root = .host cell) :
    Ensures a.toTerms (writePlace reference part) m fun _ m' => After a read s m s sum m' := by
  obtain ⟨whole, typed, reached⟩ := refers.typed
  rw [root, Activation.rootType] at typed
  split at typed
  · rename_i within
    obtain rfl := Option.some.inj typed
    have surroundings := agrees.surroundings
    have inside : cell < m.host.length := by rw [surroundings.hosts]; exact within
    have conforms := surroundings.signers _ (List.getElem_mem inside)
    obtain ⟨changed, done, changedConforms, _⟩ := replaced conforms reached fits light
    have followed : (((m.host[cell]).replaceAt reference.path part).mapError misstep) =
        .ok changed := by
      rw [done]
      rfl
    rw [writePlace, root]
    refine ensures_get (ensures_bind_require (List.getElem?_eq_getElem inside)
      (ensures_bind_sound followed (ensures_modify rfl ?_)))
    refine .of_write valid agrees refers ⟨?_, ?_⟩ (.of_frames agrees rfl rfl)
      ⟨surroundings.below, surroundings.stored, surroundings.faithful, ?_, ?_⟩
      (.of_frames rfl rfl rfl) (worth_congr _ rfl rfl rfl)
    · intro other differs
      rw [root] at differs
      cases other with
      | «local» frame index => rfl
      | global key => rfl
      | host other => exact List.getElem?_set_ne fun same => differs (by rw [same])
    · rw [root]
      exact ⟨_, part, changed, List.getElem?_eq_getElem inside, done, List.getElem?_set_self inside⟩
    · simpa using surroundings.hosts
    · intro value member
      rcases List.mem_or_eq_of_mem_set member with old | rfl
      · exact surroundings.signers value old
      · exact changedConforms
  · cases typed

theorem ensures_writePlace (isValue : target.isRef = false) :
    Ensures a.toTerms (writePlace reference part) m fun _ m' => After a read s m s sum m' := by
  cases root : reference.root with
  | «local» frame index => exact ensures_writeLocal valid agrees refers fits light isValue root
  | global key => exact ensures_writeSlot valid agrees refers fits light root
  | host cell => exact ensures_writeHost valid agrees refers fits light root

end Writing

end Places

end Custody
