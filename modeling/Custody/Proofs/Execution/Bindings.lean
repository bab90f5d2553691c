import Custody.Proofs.Execution.Calls
/-!
# Bindings made, filled and left behind

How the agreement fares where a statement changes the bindings themselves: a name is bound, a
binding that was shadowed is given up, a binding is assigned to, the bindings of a block go away at
its end. At the end of a call nothing that weighs anything is left in its bindings, so the books
close.
-/

namespace Custody

open Exec Machine Locals
open Check (Formed Walked)

variable {a : Activation} {read : List String} {m : Machine} {value : Value} {s : BodyState}
  {slot : Slot} {sum : Int} {operand : Operand} {id : BindingId} {index : Nat}

/-! ## Machines with other bindings -/

/-- The machine with other bindings in the running frame. -/
def Machine.rebound (m : Machine) (bindings : List Binding) : Machine :=
  { m with current := { m.current with bindings := bindings } }

section Rebinding

variable {locals : Locals} {bindings : List Binding}

theorem Machine.local?_rebound_of_ne {n : Nat} (differs : n ≠ m.callers.length) (index : Nat) :
    (m.rebound bindings).local? n index = m.local? n index := by
  simp [local?_eq, frame?, rebound, differs]

theorem Machine.local?_rebound (height : m.callers.length = a.depth) (index : Nat) :
    (m.rebound bindings).local? a.depth index = (bindings[index]?).bind (·.value) := by
  have height' : (m.rebound bindings).callers.length = a.depth := height
  exact local?_of_height height' index

theorem Surroundings.rebound (surroundings : Surroundings a m) (valid : a.Valid)
    (height : m.callers.length = a.depth) : Surroundings a (m.rebound bindings) := by
  refine ⟨?_, surroundings.stored, surroundings.faithful, surroundings.hosts, surroundings.signers⟩
  intro frame index ty given
  rw [local?_rebound_of_ne (by rw [height]; exact Nat.ne_of_lt (valid.below_lt given))]
  exact surroundings.below given

theorem Matches.rebound {locals' : Locals} (frame : Matches a locals m)
    (names : bindings.map (·.name) = locals'.slots.map (·.name)) :
    Matches a locals' (m.rebound bindings) :=
  ⟨frame.function, frame.typeParams, frame.typeArgs, frame.height, names⟩

theorem leaves_rebound (height : m.callers.length = a.depth) : a.Leaves m (m.rebound bindings) := by
  refine ⟨.of_callers rfl rfl (Nat.le_of_eq height.symm),
    fun _ => spares_of_own (fun _ => rfl) rfl ?_⟩
  intro frame lower index
  refine local?_rebound_of_ne ?_ index
  rw [height]
  exact Nat.ne_of_lt lower

end Rebinding

/-! ## Giving up a binding -/

section GivingUp

theorem state_of_unowed (unowed : slot.isOwed = false) :
    slot.state = .consumed ∨ slot.canDrop = true := by
  unfold Slot.isOwed at unowed
  cases state : slot.state with
  | consumed => exact .inl rfl
  | _ =>
    right
    simpa [state, Ownership.holdsValue] using unowed

/-- A value that may be discarded is taken off the books. -/
theorem forgets_consume (found : s.locals.slot? id = some slot) (unowed : slot.isOwed = false) :
    Forgets a read s { s with locals := (s.locals.consume id).2 } where
  shapes := shapes_consume _ _
  live := by
    intro index old new before after live
    rw [slot?_consume] at after
    split at after
    · obtain ⟨_, _, rfl⟩ := Option.map_eq_some_iff.mp after
      cases live
    · obtain rfl := Option.mem_unique before after
      exact ⟨live, fun _ => .of_loans rfl⟩
  consumed := by
    intro index old new before after consumed
    rw [slot?_consume] at after
    split at after
    · rename_i here
      subst here
      obtain rfl := Option.mem_unique found before
      exact (state_of_unowed unowed).imp_right .inl
    · obtain rfl := Option.mem_unique before after
      exact .inl consumed

/-- What a binding owns that is not owed weighs nothing. -/
theorem weigh_of_unowed (valid : a.Valid) (formed : Formed a.ctx s) (agrees : Agrees a read s sum m)
    {owned : Nat → Bool} (owns : Owns s.locals owned) (found : s.locals.slot? index = some slot)
    (unowed : slot.isOwed = false) :
    (if owned index then weighSlot a.weight (m.current.value? index) else 0) = 0 := by
  cases mine : owned index with
  | false => simp
  | true =>
    cases present : m.current.value? index with
    | none => rfl
    | some value =>
      rcases state_of_unowed unowed with consumed | drops
      · rw [owns.consumed found consumed] at mine
        cases mine
      · obtain ⟨bindable, abilities⟩ := formed.slot found
        rw [Slot.canDrop, abilities] at drops
        have here : m.local? a.depth index = some value := by
          rw [local?_of_height agrees.frame.height, present]
        simpa using valid.weigh_eq_zero bindable .drop rfl drops (agrees.conforms found here)

/-- With nothing owed, the books show what the machine is worth. -/
theorem worth_of_unowed (valid : a.Valid) (formed : Formed a.ctx s) (agrees : Agrees a read s sum m)
    (unowed : ∀ id slot, s.locals.slot? id = some slot → slot.isOwed = false) :
    m.worth a.weight = sum := by
  obtain ⟨owned, owns, total⟩ := agrees.balanced
  have owed : m.current.owed a.weight owned = 0 := by
    refine Finset.sum_eq_zero fun index inside => ?_
    rw [Finset.mem_range, agrees.frame.length] at inside
    obtain ⟨slot, found⟩ := slot?_of_lt inside
    exact weigh_of_unowed valid formed agrees owns found (unowed index slot found)
  rw [← total, owed]
  simp

end GivingUp

/-! ## New bindings -/

section Declaring

/-- The machine behind the binding of a name. -/
def Machine.bound (m : Machine) (name : String) (value : Value) : Machine :=
  m.rebound (m.current.bindings ++ [{ name := name, value := some value }])

theorem ensures_bind (name : String) (value : Value) :
    Ensures a.toTerms (Exec.bind name value) m fun _ m' => m.bound name value = m' :=
  ensures_modify rfl rfl

theorem local?_bound_of_lt (agrees : Agrees a read s sum m) (name : String) (value : Value)
    (within : index < s.locals.size) :
    (m.bound name value).local? a.depth index = m.local? a.depth index := by
  rw [bound, local?_rebound agrees.frame.height,
    local?_of_height agrees.frame.height, Frame.value?,
    List.getElem?_append_left (by rw [agrees.frame.length]; exact within)]

theorem local?_bound_self (agrees : Agrees a read s sum m) (name : String) (value : Value) :
    (m.bound name value).local? a.depth s.locals.size = some value := by
  rw [bound, local?_rebound agrees.frame.height, ← agrees.frame.length]
  simp

theorem Balanced.declare (balanced : Balanced a s sum m) (frame : Matches a s.locals m)
    (slot : Slot) (live : slot.state = .live) (value : Value) :
    Balanced a { s with locals := (s.locals.declare slot).2 } (sum + value.weigh a.weight)
      (m.bound slot.name value) := by
  obtain ⟨owned, owns, total⟩ := balanced
  refine ⟨fun index => decide (index = s.locals.size) || owned index, ⟨?_, ?_⟩, ?_⟩
  · intro index slot' found live'
    rcases slot?_of_declare found with ⟨rfl, _⟩ | ⟨_, found⟩
    · simp
    · simp [owns.live found live']
  · intro index slot' found consumed
    rcases slot?_of_declare found with ⟨_, rfl⟩ | ⟨older, found⟩
    · cases live.symm.trans consumed
    · simp [older, owns.consumed found consumed]
  · have worth : (m.bound slot.name value).worth a.weight = m.worth a.weight :=
      worth_congr _ rfl rfl rfl
    have owed : (m.bound slot.name value).current.owed a.weight
        (fun index => decide (index = s.locals.size) || owned index) =
        m.current.owed a.weight owned + value.weigh a.weight := by
      simp only [Frame.owed, bound, rebound, Frame.value?, List.length_append,
        List.length_singleton, Finset.sum_range_succ]
      congr 1
      · refine Finset.sum_congr rfl fun index inside => ?_
        have within := Finset.mem_range.mp inside
        have older : index ≠ s.locals.size := by
          rw [← frame.length]
          exact Nat.ne_of_lt within
        rw [List.getElem?_append_left within]
        simp [older]
      · simp [frame.length]
    rw [worth, owed, ← total]
    push_cast
    ring

/-- A name is bound to a value in waiting. -/
theorem agrees_declare (valid : a.Valid) (agrees : Agrees a read s sum m) (slot : Slot)
    (live : slot.state = .live) (holds : Holds a s slot.loans m slot.ty value) :
    Agrees a read { s with locals := (s.locals.declare slot).2 } (sum + value.weigh a.weight)
      (m.bound slot.name value) := by
  have shapes : s.locals.shapes <+: (s.locals.declare slot).2.shapes := by
    rw [shapes_declare]
    exact List.prefix_append _ _
  have moves : ∀ {ids : LoanSet} {ty : Ty} {held : Value}, Holds a s ids m ty held →
      Holds a { s with locals := (s.locals.declare slot).2 } ids (m.bound slot.name value)
      ty held := by
    intro ids ty held holds
    refine holds.transfer shapes (.of_loans rfl)
      ⟨fun index _ there => ?_, fun _ _ _ _ stands => stands⟩
    obtain ⟨present, found⟩ := Option.isSome_iff_exists.mp there
    obtain ⟨slot', known⟩ := agrees.slot_of_value found
    rw [local?_bound_of_lt agrees _ _ (slot?_lt known)]
    exact there
  refine ⟨?_, ?_, ?_, agrees.surroundings.rebound valid agrees.frame.height,
    agrees.balanced.declare agrees.frame slot live value, agrees.lent⟩
  · refine agrees.frame.rebound ?_
    simp [declare, agrees.frame.names]
  · intro index slot' held found there
    rcases slot?_of_declare found with ⟨rfl, rfl⟩ | ⟨_, found⟩
    · obtain rfl := Option.mem_unique (local?_bound_self agrees _ _) there
      exact holds.conforms
    · rw [local?_bound_of_lt agrees _ _ (slot?_lt found)] at there
      exact agrees.conforms found there
  · intro index slot' found live'
    rcases slot?_of_declare found with ⟨rfl, rfl⟩ | ⟨_, found⟩
    · exact ⟨value, local?_bound_self agrees _ _, fun _ => moves holds⟩
    · obtain ⟨held, there, holdsHeld⟩ := agrees.live found live'
      exact ⟨held, by rw [local?_bound_of_lt agrees _ _ (slot?_lt found), there],
        fun mentioned => moves (holdsHeld mentioned)⟩

/-- A name is bound, and an older binding of that name in the scope given up. -/
theorem agrees_bind (valid : a.Valid) (formed : Formed a.ctx s) (agrees : Agrees a read s sum m)
    {name : String} (clean : (Check.bind a.ctx name operand s).2.problems = [])
    (holds : Holds a s operand.loans m operand.ty value) :
    Agrees a read (Check.bind a.ctx name operand s).2 (sum + value.weigh a.weight)
      (m.bound name value) := by
  obtain ⟨shadowed, same⟩ := Check.bind_accepted clean
  rw [same]
  rcases Check.dropShadowed_accepted formed.unpoisoned shadowed with
    ⟨_, step⟩ | ⟨id, slot, _, found, unowed, step⟩
  · rw [step]
    exact agrees_declare valid agrees (Check.boundSlot a.ctx name operand) rfl holds
  · rw [step]
    have given := agrees.forget valid formed (forgets_consume found unowed) fun _ inside => inside
    have shapes : s.locals.shapes <+: (s.locals.consume id).2.shapes :=
      isPrefix_of_eq (shapes_consume _ _).symm
    exact agrees_declare valid given (Check.boundSlot a.ctx name operand) rfl
      (holds.transfer shapes (.of_loans rfl) (.refl _ _ _ _))

end Declaring

/-! ## Assignment -/

section Assigning

/-- The state behind an assignment. -/
def assigned (s : BodyState) (id : BindingId) (operand : Operand) : BodyState :=
  { s with
    locals := s.locals.modify id fun slot =>
      { slot with state := .live, loans := operand.loans, place := operand.place } }

theorem slot?_assigned (s : BodyState) (id other : BindingId) (operand : Operand) :
    (assigned s id operand).locals.slot? other =
      if other = id then (s.locals.slot? other).map fun slot =>
        { slot with state := .live, loans := operand.loans, place := operand.place }
      else s.locals.slot? other :=
  slot?_modify _ _ _ _

theorem shapes_assigned (s : BodyState) (id : BindingId) (operand : Operand) :
    (assigned s id operand).locals.shapes = s.locals.shapes :=
  shapes_modify fun _ => rfl

theorem local?_assigned (agrees : Agrees a read s sum m) (found : s.locals.slot? id = some slot)
    (value : Value) :
    (m.setLocal a.depth id (some value)).local? a.depth id = some value := by
  have within : id < m.current.bindings.length := by
    rw [agrees.frame.length]
    exact slot?_lt found
  rw [local?_of_height ((height_setLocal _ _ _ _).trans agrees.frame.height),
    current_setLocal, if_pos agrees.frame.height, Frame.value?_put, if_pos rfl]
  simp [List.getElem?_eq_getElem within]

theorem balanced_assign (valid : a.Valid) (formed : Formed a.ctx s) (agrees : Agrees a read s sum m)
    (found : s.locals.slot? id = some slot) (unowed : slot.isOwed = false) :
    Balanced a (assigned s id operand) (sum + value.weigh a.weight)
      (m.setLocal a.depth id (some value)) := by
  obtain ⟨owned, owns, total⟩ := agrees.balanced
  have current : (m.setLocal a.depth id (some value)).current = m.current.put id (some value) := by
    rw [current_setLocal, if_pos agrees.frame.height]
  have within : id < m.current.bindings.length := by
    rw [agrees.frame.length]
    exact slot?_lt found
  refine ⟨fun index => decide (index = id) || owned index, ⟨?_, ?_⟩, ?_⟩
  · intro index slot' found' live
    rw [slot?_assigned] at found'
    split at found'
    · simp_all
    · simp [owns.live found' live]
  · intro index slot' found' consumed
    rw [slot?_assigned] at found'
    split at found'
    · obtain ⟨_, _, rfl⟩ := Option.map_eq_some_iff.mp found'
      cases consumed
    · rename_i differs
      simp [differs, owns.consumed found' consumed]
  · have length : (m.current.put id (some value)).bindings.length = m.current.bindings.length := by
      simpa using congrArg List.length (Frame.names_put m.current id (some value))
    have changed := Frame.owed_change a.weight owned
      (fun index => decide (index = id) || owned index) length within
      fun other _ differs => by simp [differs, Frame.value?_put]
    rw [weigh_of_unowed valid formed agrees owns found unowed, Frame.value?_put, if_pos rfl,
      List.getElem?_eq_getElem within, if_pos (by simp), Option.bind_some,
      weighSlot_some] at changed
    rw [worth_setLocal, current, ← total]
    omega

/-- A binding whose value is gone or may go is given another. -/
theorem agrees_assign (valid : a.Valid) (formed : Formed a.ctx s) (agrees : Agrees a read s sum m)
    (found : s.locals.slot? id = some slot) (unowed : slot.isOwed = false)
    (holds : Holds a s operand.loans m slot.ty value) :
    Agrees a read (assigned s id operand) (sum + value.weigh a.weight)
      (m.setLocal a.depth id (some value)) := by
  have shapes := shapes_assigned s id operand
  have elsewhere : ∀ {frame index}, ¬ (frame = a.depth ∧ index = id) →
      (m.setLocal a.depth id (some value)).local? frame index = m.local? frame index :=
    fun differs => local?_setLocal_of_ne _ _ _ _ differs
  have moves : ∀ {ids : LoanSet} {ty : Ty} {held : Value}, Holds a s ids m ty held →
      Holds a (assigned s id operand) ids (m.setLocal a.depth id (some value)) ty held := by
    intro ids ty held holds
    refine holds.transfer (isPrefix_of_eq shapes.symm) (.of_loans rfl) ⟨fun index _ there => ?_,
      fun _ _ _ _ stands key rooted => fills_setLocal id _ (stands key rooted)⟩
    by_cases here : index = id
    · rw [here, local?_assigned agrees found]
      rfl
    · rw [elsewhere fun both => here both.2]
      exact there
  refine ⟨(agrees.frame.setLocal id (some value)).of_shapes shapes, ?_, ?_,
    agrees.surroundings.setLocal valid id (some value),
    balanced_assign valid formed agrees found unowed,
    fun held _ given key rooted => fills_setLocal id _ (agrees.lent held given key rooted)⟩
  · intro index slot' held found' there
    rw [slot?_assigned] at found'
    split at found'
    · rename_i here
      subst here
      obtain ⟨old, before, rfl⟩ := Option.map_eq_some_iff.mp found'
      obtain rfl := Option.mem_unique found before
      rw [local?_assigned agrees found] at there
      obtain rfl := Option.some.inj there
      exact holds.conforms
    · rename_i differs
      rw [elsewhere fun both => differs both.2] at there
      exact agrees.conforms found' there
  · intro index slot' found' live
    rw [slot?_assigned] at found'
    split at found'
    · rename_i here
      subst here
      obtain ⟨old, before, rfl⟩ := Option.map_eq_some_iff.mp found'
      obtain rfl := Option.mem_unique found before
      exact ⟨value, local?_assigned agrees found value, fun _ => moves holds⟩
    · rename_i differs
      obtain ⟨held, there, holdsHeld⟩ := agrees.live found' live
      exact ⟨held, by rw [elsewhere fun both => differs both.2, there],
        fun mentioned => moves (holdsHeld mentioned)⟩

end Assigning

/-! ## The end of a block -/

section Leaving

variable {size : Nat}

/-- The machine behind a block: the bindings from a position on are gone. -/
def Machine.shrunk (m : Machine) (size : Nat) : Machine := m.rebound (m.current.bindings.take size)

theorem local?_shrunk (height : m.callers.length = a.depth) (index : Nat) :
    (m.shrunk size).local? a.depth index = if index < size then
    m.local? a.depth index else none := by
  rw [shrunk, local?_rebound height, local?_of_height height, Frame.value?,
    List.getElem?_take]
  split <;> rfl

theorem Leads.cut {locals : Locals} {origin : Place × LoanMode} {reference : Reference}
    (leads : Leads a locals origin reference)
    (lower : ∀ {id slot}, origin.1.root = .local id → locals.slot? id = some slot → id < size) :
    Leads a (locals.truncate size) origin reference := by
  cases leads with
  | whole rooted => exact .whole rooted
  | @field id name _ _ slot struct args definition index found typed declared placed rooted along =>
    have found' : (locals.truncate size).slot? id = some slot := by
      rw [slot?_truncate, if_pos (lower rfl found), found]
    exact .field found' typed declared placed rooted along
  | param given within writes => exact .param given within writes
  | global plain reached rooted tagged => exact .global plain reached rooted tagged

/-- A reference to what stays still leads there. -/
theorem Refers.shrunk {ids : LoanSet} {mutable : Bool} {reference : Reference} {target : Ty}
    (refers : Refers a s ids m mutable reference target) (height : m.callers.length = a.depth)
    (lower : ∀ binding ∈ s.loans.borrowed ids, ∀ slot, s.locals.slot? binding = some slot →
      binding < size) : Refers a (cut size s) ids (m.shrunk size) mutable reference target where
  kept := refers.kept
  typed := by
    obtain ⟨whole, typed, reached⟩ := refers.typed
    refine ⟨whole, ?_, reached⟩
    cases root : reference.root with
    | «local» frame index =>
      rw [root, Activation.rootType] at typed
      rw [Activation.rootType]
      split at typed
      · rename_i here
        obtain ⟨slot, found, rfl⟩ := Option.map_eq_some_iff.mp typed
        have inside := (refers.anchored index (here ▸ root)).2
        rw [if_pos here, cut, slot?_truncate, if_pos (lower index inside slot found), found]
        rfl
      · rename_i elsewhere
        rw [if_neg elsewhere]
        exact typed
    | global key => rw [root] at typed; exact typed
    | host index => rw [root] at typed; exact typed
  anchored index here := by
    obtain ⟨whole, typed, _⟩ := refers.typed
    rw [here, Activation.rootType, if_pos rfl] at typed
    obtain ⟨slot, found, _⟩ := Option.map_eq_some_iff.mp typed
    obtain ⟨present, inside⟩ := refers.anchored index here
    refine ⟨?_, inside⟩
    rw [local?_shrunk height, if_pos (lower index inside slot found)]
    exact present
  traced held := by
    obtain ⟨origin, known, exclusive, leads⟩ := refers.traced held
    refine ⟨origin, known, exclusive, leads.cut fun rooted found => ?_⟩
    obtain ⟨id, member, loan, granted, rfl⟩ := Loans.mem_origins.mp known
    exact lower _ (Loans.mem_borrowed.mpr ⟨id, member, loan, granted, rooted⟩) _ found
  stands := refers.stands

theorem balanced_shrunk (valid : a.Valid) (formed : Formed a.ctx s) (agrees : Agrees a read s sum m)
    (within : size ≤ s.locals.size)
    (unowed : ∀ id slot, size ≤ id → s.locals.slot? id = some slot → slot.isOwed = false) :
    Balanced a (cut size s) sum (m.shrunk size) := by
  obtain ⟨owned, owns, total⟩ := agrees.balanced
  refine ⟨owned, ⟨?_, ?_⟩, ?_⟩
  · exact fun found => owns.live (slot?_of_truncate found).2
  · exact fun found => owns.consumed (slot?_of_truncate found).2
  · have worth : (m.shrunk size).worth a.weight = m.worth a.weight :=
      worth_congr _ rfl rfl rfl
    have length : (m.shrunk size).current.bindings.length = size := by
      simp [shrunk, rebound, agrees.frame.length, within]
    have owed : (m.shrunk size).current.owed a.weight owned = m.current.owed a.weight owned := by
      unfold Frame.owed
      rw [length]
      have more : Finset.range size ⊆ Finset.range m.current.bindings.length := by
        rw [Finset.range_subset_range, agrees.frame.length]
        exact within
      rw [← Finset.sum_subset more fun index inside outside => ?_]
      · refine Finset.sum_congr rfl fun index inside => ?_
        have height : (m.shrunk size).callers.length = a.depth := agrees.frame.height
        rw [← local?_of_height height, local?_shrunk agrees.frame.height,
          if_pos (Finset.mem_range.mp inside), local?_of_height agrees.frame.height]
      · rw [Finset.mem_range, agrees.frame.length] at inside
        obtain ⟨slot, found⟩ := slot?_of_lt inside
        have beyond : size ≤ index :=
        Nat.le_of_not_lt fun lower => outside (Finset.mem_range.mpr lower)
        exact weigh_of_unowed valid formed agrees owns found (unowed index slot beyond found)
    rw [worth, owed, total]

/-- What a block leaves behind owes nothing and is not borrowed, so it may go. -/
theorem agrees_shrunk (valid : a.Valid) (formed : Formed a.ctx s) (agrees : Agrees a read s sum m)
    (within : size ≤ s.locals.size)
    (unowed : ∀ id slot, size ≤ id → s.locals.slot? id = some slot → slot.isOwed = false)
    (lower : ∀ index slot, index < size → s.locals.slot? index = some slot → slot.state = .live →
      ∀ binding ∈ s.loans.borrowed slot.loans, ∀ other, s.locals.slot? binding = some other →
        binding < size) :
    Agrees a read (cut size s) sum (m.shrunk size) := by
  have height := agrees.frame.height
  refine ⟨?_, ?_, ?_, agrees.surroundings.rebound valid height,
    balanced_shrunk valid formed agrees within unowed, agrees.lent⟩
  · refine agrees.frame.rebound ?_
    rw [List.map_take, agrees.frame.names, ← List.map_take]
    rfl
  · intro index slot value found there
    obtain ⟨inside, found⟩ := slot?_of_truncate found
    rw [local?_shrunk height, if_pos inside] at there
    exact agrees.conforms found there
  · intro index slot found live
    obtain ⟨inside, found⟩ := slot?_of_truncate found
    obtain ⟨value, there, holds⟩ := agrees.live found live
    refine ⟨value, by rw [local?_shrunk height, if_pos inside, there], fun mentioned => ?_⟩
    exact ⟨(holds mentioned).conforms, fun form same => ((holds mentioned).refers form same).shrunk
      height (lower index slot inside found live)⟩

end Leaving

end Custody
