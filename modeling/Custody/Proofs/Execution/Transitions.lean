import Custody.Proofs.Execution.Agreement
/-!
# Steps that keep the agreement

How one step of the checker and one step of the machine go together: what the checker forgets, what
it borrows and releases, where paths meet, and where a value is moved out of a binding. A stretch of
steps is summed up by what it leaves behind it, so that stretches can be put end to end.
-/

namespace Custody

open Locals
open Check (Formed Walked)

variable {loans : Loans} {locals : Locals} {s'' : BodyState} {a : Activation} {m : Machine}
  {read : List String} {size : Nat}

section Forgetting

variable {s s' : BodyState}

/-- Slot by slot. -/
theorem Forgets.of_each (shapes : s'.locals.shapes = s.locals.shapes)
    (each : ∀ {index slot slot'}, s.locals.slot? index = some slot →
      s'.locals.slot? index = some slot' →
      (slot'.state = .live → slot.state = .live ∧ (slot.name ∈ read →
        ∀ origin ∈ s.loans.origins slot.loans, origin ∈ s'.loans.origins slot'.loans)) ∧
      (slot'.state = .consumed → slot.state = .consumed)) : Forgets a read s s' where
  shapes := shapes
  live found found' live := by
    obtain ⟨live', known⟩ := (each found found').1 live
    exact ⟨live', fun mentioned => .of_origins (known mentioned)⟩
  consumed found found' consumed := .inl ((each found found').2 consumed)

/-- Bindings as they were, and no loan gone. -/
theorem forgets_of_slots (slots : s'.locals.slots = s.locals.slots)
    (loans : ∀ id loan, s.loans.get? id = some loan → s'.loans.get? id = some loan) :
    Forgets a read s s' := by
  refine .of_each (by rw [shapes, shapes, slots]) fun found found' => ?_
  rw [slot?, slots] at found'
  obtain rfl := Option.mem_unique found found'
  exact ⟨fun live => ⟨live, fun _ => Loans.origins_mono fun id member loan granted =>
    ⟨member, loans id loan granted⟩⟩, fun consumed => consumed⟩

theorem Vouches.trans {ids ids' ids'' : LoanSet} (first : Vouches a s ids s' ids')
    (second : Vouches a s' ids' s'' ids'') : Vouches a s ids s'' ids'' :=
  ⟨fun binding inside => second.borrowed binding (first.borrowed binding inside),
    fun held origin inside => second.origins held origin (first.origins held origin inside)⟩

theorem Forgets.trans (first : Forgets a read s s') (second : Forgets a read s' s'') :
    Forgets a read s s'' where
  shapes := second.shapes.trans first.shapes
  live := by
    intro index slot slot'' found found'' live''
    obtain ⟨slot', found', _⟩ := second.slot_before found''
    obtain ⟨live', known'⟩ := second.live found' found'' live''
    obtain ⟨live, known⟩ := first.live found found' live'
    obtain ⟨old, before, sameName, _⟩ := first.slot_before found'
    obtain rfl := Option.mem_unique found before
    exact ⟨live, fun mentioned => (known mentioned).trans (known' (sameName ▸ mentioned))⟩
  consumed := by
    intro index slot slot'' found found'' consumed''
    have more : s''.locals.shapes <+: s'.locals.shapes := isPrefix_of_eq second.shapes
    obtain ⟨slot', found', _⟩ := slot?_of_shapes more found''
    rcases second.consumed found' found'' consumed'' with consumed' | drops | zero
    · exact first.consumed found found' consumed'
    · have more : s'.locals.shapes <+: s.locals.shapes := isPrefix_of_eq first.shapes
      obtain ⟨old, before, shape⟩ := slot?_of_shapes more found'
      obtain rfl := Option.mem_unique found before
      have abilities : slot.abilities = slot'.abilities := congrArg (·.2.2) shape
      exact .inr (.inl (by rw [Slot.canDrop, abilities]; exact drops))
    · exact .inr (.inr zero)

/-- Loans may go as long as no binding that has a value holds them. -/
theorem forgets_of_loans {access : Access}
    (keeps : ∀ {index slot}, s.locals.slot? index = some slot → slot.state = .live →
      ∀ id ∈ slot.loans, ∀ loan, s.loans.get? id = some loan → loans.get? id = some loan) :
    Forgets a read s { s with loans := loans, access := access } := by
  refine .of_each rfl fun found found' => ?_
  obtain rfl := Option.mem_unique found found'
  exact ⟨fun live => ⟨live, fun _ => Loans.origins_mono fun id member loan granted =>
    ⟨member, keeps found live id member loan granted⟩⟩, fun consumed => consumed⟩

variable (formed : Formed a.ctx s)

include formed

theorem mem_heldLoans_of_live {index : Nat} {slot : Slot} (found : s.locals.slot? index = some slot)
    (live : slot.state = .live) {id : LoanId} (member : id ∈ slot.loans) :
    id ∈ s.locals.heldLoans :=
  mem_heldLoans.mpr
    ⟨index, formed.mem_visible found, slot, found, by rw [live]; rfl, member⟩

theorem forgets_release {given : LoanId → Prop}
    (releases : Check.Releases s.locals.heldLoans given s.loans loans) (access : Access) :
    Forgets a read s { s with loans := loans, access := access } :=
  forgets_of_loans fun found live id member loan granted => by
    rw [releases.keeps (.inl (mem_heldLoans_of_live formed found live member)), granted]

theorem forgets_grant (loan : Loan) (access : Access) :
    Forgets a read s { s with loans := (s.loans.insert loan).2, access := access } :=
  forgets_of_loans fun _ _ id _ other granted => by
    rw [Loans.get?_insert, if_neg (Nat.ne_of_lt (formed.bounded id other granted)), granted]

theorem forgets_released : Forgets a read s (Check.released s) :=
  forgets_of_loans fun found live id member loan granted => by
    rw [Loans.get?_retain, granted]
    simp [mem_heldLoans_of_live formed found live member]

/-- References that are not read again need no loan. -/
theorem forgets_expire (outer : List String) :
    Forgets a outer s { s with locals := s.locals.expire outer } := by
  refine .of_each (shapes_expire _ _) fun found found' => ?_
  rw [slot?_expire, if_pos (formed.mem_visible found), found, Option.map_some,
    Option.some.injEq] at found'
  subst found'
  unfold expired
  split
  · rename_i dead
    exact ⟨fun live => ⟨live, fun mentioned => by simp [mentioned] at dead⟩,
      fun consumed => consumed⟩
  · exact ⟨fun live => ⟨live, fun _ _ inside => inside⟩, fun consumed => consumed⟩

omit formed

/-- Where paths agree about a value, it is as on either. -/
theorem Ownership.of_join {one other state : Ownership} (settled : state ≠ .maybeConsumed)
    (both : one.join other = state) : one = state ∧ other = state := by
  unfold Ownership.join at both
  split at both
  · rename_i same
    exact ⟨both, same ▸ both⟩
  · exact absurd both.symm settled

/-- Where paths meet, what both say is left. -/
theorem forgets_join_left (same : locals.shapes = s.locals.shapes) :
    Forgets a read s { s with locals := s.locals.join locals, loans := s.loans.join loans } := by
  refine .of_each (shapes_join _ _) fun found found' => ?_
  rw [slot?_join (size_of_shapes same).symm, found, Option.bind_some,
    Option.map_eq_some_iff] at found'
  obtain ⟨other, _, rfl⟩ := found'
  refine ⟨fun both => ⟨(Ownership.of_join (by decide) both).1, fun _ => Loans.origins_mono ?_⟩,
    fun both => (Ownership.of_join (by decide) both).1⟩
  intro id member loan granted
  refine ⟨SortedSet.mem_union.mpr (.inl member), ?_⟩
  rw [Loans.get?_join, granted, Option.some_or]

theorem forgets_join_right (same : locals.shapes = s.locals.shapes)
    (agree : ∀ id loan other, loans.get? id = some loan → s.loans.get? id = some other →
      loan = other) :
    Forgets a read s { s with locals := locals.join s.locals, loans := loans.join s.loans } := by
  refine .of_each ((shapes_join _ _).trans same) fun found found' => ?_
  rw [slot?_join (size_of_shapes same), Option.bind_eq_some_iff] at found'
  obtain ⟨other, _, found'⟩ := found'
  rw [found, Option.map_some, Option.some.injEq] at found'
  subst found'
  refine ⟨fun both => ⟨(Ownership.of_join (by decide) both).2, fun _ => Loans.origins_mono ?_⟩,
    fun both => (Ownership.of_join (by decide) both).2⟩
  intro id member loan granted
  refine ⟨SortedSet.mem_union.mpr (.inr member), ?_⟩
  rw [Loans.get?_join, granted]
  cases first : loans.get? id with
  | none => rfl
  | some earlier => rw [agree id earlier loan first granted, Option.some_or]

/-- The state with the bindings of an ended block gone. -/
def cut (size : Nat) (s : BodyState) : BodyState := { s with locals := s.locals.truncate size }

/-- The path walked last, where it meets another. -/
theorem forgets_merged_last {first second : BodyState} (ended : Bool)
    (same : (first.locals.truncate size).shapes = (second.locals.truncate size).shapes) :
    Forgets a read (cut size second)
      (Check.merged size ⟨first.locals, first.loans, ended⟩ false second) := by
  cases ended with
  | true => exact forgets_of_slots rfl fun _ _ granted => granted
  | false =>
    have joined : Forgets a read (cut size second)
        { cut size second with
          locals := (cut size second).locals.join (first.locals.truncate size)
          loans := (cut size second).loans.join first.loans } := forgets_join_left same
    exact joined.trans (forgets_of_slots rfl fun _ _ granted => granted)

/-- The path walked first, where another meets it. -/
theorem forgets_merged_first {first second : BodyState} (ended : Bool)
    (same : (second.locals.truncate size).shapes = (first.locals.truncate size).shapes)
    (agree : ∀ id loan other, second.loans.get? id = some loan → first.loans.get? id = some other →
      loan = other) :
    Forgets a read (cut size first)
      (Check.merged size ⟨first.locals, first.loans, false⟩ ended second) := by
  cases ended with
  | true =>
    refine forgets_of_slots rfl fun id loan granted => ?_
    simpa [Check.merged, cut] using granted
  | false =>
    have joined : Forgets a read (cut size first)
        { cut size first with
          locals := (second.locals.truncate size).join (cut size first).locals
          loans := second.loans.join (cut size first).loans } := forgets_join_right same agree
    exact joined.trans (forgets_of_slots rfl fun _ _ granted => granted)

end Forgetting

/-! ## Stretches of steps -/

/-- What a stretch of steps leaves behind it: the agreement, values in every local and slot that a
loan from before it still vouches for, and the rest of the machine as it was. -/
structure After (a : Activation) (read : List String) (s : BodyState) (m : Machine) (s' : BodyState)
    (sum : Int) (m' : Machine) : Prop where
  agrees : Agrees a read s' sum m'
  follows : s.loans.Follows s'.loans
  kept : ∀ {id loan index}, id < s.loans.next → s'.loans.get? id = some loan →
    loan.place.root = .local index → (m.local? a.depth index).isSome = true →
    (m'.local? a.depth index).isSome = true
  stored : a.held → ∀ {id loan key}, id < s.loans.next → s'.loans.get? id = some loan →
    loan.place.IsFor a key → m.Fills key → m'.Fills key
  leaves : a.Leaves m m'

section Stretches

variable {s s' : BodyState} {m' m'' : Machine} {sum sum' : Int}

theorem After.of_sum (after : After a read s m s' sum m') (same : sum = sum') :
    After a read s m s' sum' m' := same ▸ after

/-- The checker went on while the machine stood. -/
theorem After.of_state (agrees : Agrees a read s' sum m) (follows : s.loans.Follows s'.loans) :
    After a read s m s' sum m :=
  ⟨agrees, follows, fun _ _ _ present => present, fun _ _ _ _ _ _ _ filled => filled, .refl _ _⟩

theorem After.refl (agrees : Agrees a read s sum m) : After a read s m s sum m :=
  .of_state agrees (.refl _)

theorem After.trans (first : After a read s m s' sum m')
    (second : After a read s' m' s'' sum' m'') : After a read s m s'' sum' m'' where
  agrees := second.agrees
  follows := first.follows.trans second.follows
  kept granted live rooted present := by
    have granted' := Nat.lt_of_lt_of_le granted first.follows.next_le
    have between := second.follows.old granted' live
    exact second.kept granted' live rooted (first.kept granted between rooted present)
  stored held _ _ _ granted live isFor filled := by
    have granted' := Nat.lt_of_lt_of_le granted first.follows.next_le
    have between := second.follows.old granted' live
    exact second.stored held granted' live isFor (first.stored held granted between isFor filled)
  leaves := first.leaves.trans second.leaves

/-- The machine went on while the checker stood. -/
theorem After.of_machine {change : Int} (valid : a.Valid) (agrees : Agrees a read s sum m)
    (alike : Alike a s m m') (surroundings : Surroundings a m') (leaves : a.Leaves m m')
    (stored : a.held → ∀ {id loan key}, s.loans.get? id = some loan →
      loan.place.IsFor a key → m.Fills key → m'.Fills key)
    (worth : m'.worth a.weight = m.worth a.weight + change) :
    After a read s m s (sum + change) m' :=
  ⟨agrees.alike valid alike surroundings leaves stored worth, .refl _,
    fun _ _ _ present => alike.isSome agrees present,
    fun held _ _ _ _ live isFor filled => stored held live isFor filled, leaves⟩

/-- At most one slot of storage changed; if it was filled, the call may reach it and has not lent
it. -/
theorem After.of_allBut {change : Int} {changed : Option SlotKey} (valid : a.Valid)
    (agrees : Agrees a read s sum m) (allBut : m.AllBut changed m')
    (freed : a.held → ∀ key, changed = some key → m.Fills key → key.tag.id ∈ a.reach ∧
      ∀ {id loan}, s.loans.get? id = some loan → ¬ loan.place.IsFor a key)
    (surroundings : Surroundings a m') (worth : m'.worth a.weight = m.worth a.weight + change) :
    After a read s m s (sum + change) m' := by
  refine .of_machine valid agrees (.of_frames agrees allBut.current allBut.callers) surroundings
    ⟨.of_frames allBut.current allBut.callers allBut.store,
      fun held => allBut.spares fun key same filled => (freed held key same filled).1⟩ ?_ worth
  intro held id loan key granted isFor filled
  exact allBut.fills (fun same => (freed held key same filled).2 granted isFor) filled

/-- Nothing that references lead to changed. -/
theorem After.of_quiet {change : Int} (valid : a.Valid) (agrees : Agrees a read s sum m)
    (quiet : m.AllBut none m') (surroundings : Surroundings a m')
    (worth : m'.worth a.weight = m.worth a.weight + change) :
    After a read s m s (sum + change) m' :=
  .of_allBut valid agrees quiet (fun _ _ absurd => by cases absurd) surroundings worth

/-- What is written through a mutable reference. -/
theorem After.of_write {ids : LoanSet} {reference : Reference} {target : Ty} (valid : a.Valid)
    (agrees : Agrees a read s sum m) (refers : Refers a s ids m true reference target)
    (rewritten : m.Rewritten reference m') (alike : Alike a s m m')
    (surroundings : Surroundings a m') (keeps : m.Keeps a.weight a.below a.depth m')
    (worth : m'.worth a.weight = m.worth a.weight) : After a read s m s sum m' := by
  have spares : a.held → a.Spares m m' := by
    intro held
    obtain ⟨⟨place, mode⟩, _, exclusive, leads⟩ := refers.traced held
    obtain rfl : mode = .exclusive := exclusive rfl
    exact ⟨fun _ filled => rewritten.fills filled, fun outside _ missed =>
      rewritten.at? (leads.misses outside missed)⟩
  have after := After.of_machine valid agrees alike surroundings ⟨keeps, spares⟩
    (fun _ _ _ _ _ _ filled => rewritten.fills filled) (worth.trans (Int.add_zero _).symm)
  exact after.of_sum (Int.add_zero _)

/-- The checker forgot something while the machine stood. -/
theorem After.forget (valid : a.Valid) (formed : Formed a.ctx s) (forgets : Forgets a read s s')
    (follows : s.loans.Follows s'.loans) (agrees : Agrees a read s sum m) :
    After a read s m s' sum m :=
  .of_state (agrees.forget valid formed forgets fun _ inside => inside) follows

theorem After.release (valid : a.Valid) (formed : Formed a.ctx s) {given : LoanId → Prop}
    {loans : Loans} (releases : Check.Releases s.locals.heldLoans given s.loans loans)
    (access : Access) (agrees : Agrees a read s sum m) :
    After a read s m { s with loans := loans, access := access } sum m :=
  .forget valid formed (forgets_release formed releases access) releases.follows agrees

theorem After.grant (valid : a.Valid) (formed : Formed a.ctx s) (loan : Loan) (access : Access)
    (agrees : Agrees a read s sum m) :
    After a read s m { s with loans := (s.loans.insert loan).2, access := access } sum m :=
  .forget valid formed (forgets_grant formed loan access) (Loans.follows_insert _ _) agrees

/-- A value in waiting still holds behind a stretch that takes none of its loans away. -/
theorem Holds.after {ids : LoanSet} {ty : Ty} {value : Value} (holds : Holds a s ids m ty value)
    (after : After a read s m s' sum m') (formed : Formed a.ctx s) (walked : Walked s s')
    (stays : Check.stay ids.toList s.loans s'.loans = true) : Holds a s' ids m' ty value := by
  have kept : ∀ id ∈ ids, ∀ loan, s.loans.get? id = some loan → s'.loans.get? id = some loan := by
    intro id member loan granted
    have still := List.all_eq_true.mp stays id member
    rw [granted] at still
    obtain ⟨loan', granted'⟩ := Option.isSome_iff_exists.mp (by simpa using still)
    have same := after.follows.old (formed.bounded id loan granted) granted'
    rw [granted', ← granted, same]
  refine holds.transfer walked.shapes (.of_origins (Loans.origins_mono fun id member loan granted =>
    ⟨member, kept id member loan granted⟩)) ⟨fun index inside present => ?_, ?_⟩
  · obtain ⟨id, member, loan, granted, rooted⟩ := Loans.mem_borrowed.mp inside
    exact after.kept (formed.bounded id loan granted) (kept id member loan granted) rooted present
  · intro held mutable reference traced stands
    refine traced.stands stands (after.agrees.lent held) ?_
    intro id loan key member granted isFor filled
    exact after.stored held (formed.bounded id loan granted) (kept id member loan granted) isFor
      filled

/-- A value in waiting does not notice what the machine does for its own sake. -/
theorem Holds.along {ids : LoanSet} {ty : Ty} {value : Value} (holds : Holds a s ids m ty value)
    (after : After a read s m s sum' m') (formed : Formed a.ctx s) : Holds a s ids m' ty value :=
  holds.after after formed (.refl formed) (List.all_eq_true.mpr fun id _ => by
    cases s.loans.get? id <;> rfl)

end Stretches

/-! ## Looking up names -/

section Names

theorem lastIndex?_eq_find? (name : String) (bindings : List Binding) :
    Binding.lastIndex? name bindings = (List.range bindings.length).reverse.find? fun index =>
      decide ((bindings[index]?).map (·.name) = some name) := by
  induction bindings with
  | nil => rfl
  | cons binding rest ih =>
    rw [Binding.lastIndex?, ih, List.length_cons, List.range_succ_eq_map,
      List.reverse_cons, List.find?_append, ← List.map_reverse, List.find?_map]
    have shifted : ((fun index => decide (((binding :: rest)[index]?).map (·.name) = some name)) ∘
        Nat.succ) = fun index => decide ((rest[index]?).map (·.name) = some name) := rfl
    rw [shifted]
    cases (List.range rest.length).reverse.find? fun index =>
        decide ((rest[index]?).map (·.name) = some name) with
    | some index => rfl
    | none => by_cases named : binding.name = name <;> simp [named]

/-- Checker and machine mean the same binding by a name. -/
theorem lookup_eq_lastIndex? {bindings : List Binding}
    (dense : locals.visible = List.range locals.size)
    (names : bindings.map (·.name) = locals.slots.map (·.name)) (name : String) :
    locals.lookup name = Binding.lastIndex? name bindings := by
  have count : bindings.length = locals.size := by
    simpa [size] using congrArg List.length names
  rw [lookup, dense, lastIndex?_eq_find?, count]
  congr 1
  funext index
  have same := congrArg (·[index]?) names
  simp only [List.getElem?_map] at same
  rw [same, isNamed, slot?]
  cases locals.slots[index]? <;> simp

variable {s : BodyState}

theorem ensures_bindingIndex (formed : Formed a.ctx s) (frame : Matches a s.locals m)
    {name : String} {id : BindingId} (found : s.locals.lookup name = some id) :
    Exec.Ensures a.toTerms (Exec.bindingIndex name) m fun index m' => id = index ∧ m = m' :=
  Exec.ensures_get (Exec.ensures_require
    ((lookup_eq_lastIndex? formed.dense frame.names name).symm.trans found) ⟨rfl, rfl⟩)

end Names

end Custody
