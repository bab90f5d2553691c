import Custody.Check.State
import Custody.Proofs.Tables
/-!
# Tables of loans and of locals

What the operations on loans and on locals do to a single loan and to a single slot.
-/

namespace Custody

variable {locals : Locals} {loans : Loans} {id : BindingId} {slot : Slot} {other : Locals}
  {change : Slot → Slot} {binding : BindingId} {size : Nat}

/-! ## Loans -/

namespace Loans

variable (loans)

@[simp] theorem get?_insert (loan : Loan) (id : LoanId) :
    (loans.insert loan).2.get? id = if id = loans.next then some loan else loans.get? id :=
  Table.get?_insert loans.live loans.next id loan

@[simp] theorem next_insert (loan : Loan) : (loans.insert loan).2.next = loans.next + 1 := rfl

@[simp] theorem get?_retain (held : LoanSet) (id : LoanId) :
    (loans.retain held).get? id = if held.contains id then loans.get? id else none :=
  Table.get?_filter_key held.contains loans.live id

@[simp] theorem get?_continueFrom (other : Loans) (id : LoanId) :
    (loans.continueFrom other).get? id = loans.get? id := rfl

/-- Where both tables know a loan, the first one counts. -/
@[simp] theorem get?_join (other : Loans) (id : LoanId) :
    (loans.join other).get? id = (loans.get? id).or (other.get? id) := by
  have folded : ∀ (entries : List (LoanId × Loan)) (table : Table LoanId Loan),
      (entries.foldl (fun (table : Table LoanId Loan) entry =>
        if table.contains entry.1 then table else table.insert entry.1 entry.2) table).get? id =
        (table.get? id).or (Table.find id entries) := by
    intro entries
    induction entries with
    | nil => intro table; simp [Table.find]
    | cons entry rest ih =>
      intro table
      rw [List.foldl_cons, ih]
      by_cases known : table.contains entry.1 = true
      · by_cases same : id = entry.1
        · subst same
          obtain ⟨loan, found⟩ := Option.isSome_iff_exists.mp known
          simp [known, found]
        · simp [known, Table.find, same]
      · by_cases same : id = entry.1
        · subst same
          have absent : table.get? entry.1 = none := by simpa [Table.contains] using known
          simp [known, Table.find, absent]
        · simp [known, Table.find, same]
  exact folded other.live.entries loans.live

@[simp] theorem next_join (other : Loans) :
    (loans.join other).next = max loans.next other.next := rfl

/-- Numbers of live loans have been given out. -/
def Bounded : Prop := ∀ id loan, loans.get? id = some loan → id < loans.next

/-- A later table: numbers go on, and of the loans that had been granted some are left. -/
structure Follows (before after : Loans) : Prop where
  next_le : before.next ≤ after.next
  old : ∀ {id loan}, id < before.next → after.get? id = some loan → before.get? id = some loan

theorem Follows.refl : Follows loans loans := ⟨Nat.le_refl _, fun _ found => found⟩

theorem Follows.trans {loans middle after : Loans} (first : Follows loans middle)
    (second : Follows middle after) : Follows loans after where
  next_le := Nat.le_trans first.next_le second.next_le
  old granted found := first.old granted
    (second.old (Nat.lt_of_lt_of_le granted first.next_le) found)

theorem follows_insert (loan : Loan) : Follows loans (loans.insert loan).2 where
  next_le := by simp
  old := by
    intro id other granted found
    simpa [Nat.ne_of_lt granted] using found

variable {loans}

theorem Bounded.insert (bounded : loans.Bounded) (loan : Loan) : (loans.insert loan).2.Bounded := by
  intro id other found
  rw [get?_insert] at found
  rw [next_insert]
  split at found
  · rename_i same
    rw [same]
    exact Nat.lt_succ_self _
  · exact Nat.lt_succ_of_lt (bounded _ _ found)

theorem get?_of_retain {held : LoanSet} {id : LoanId} {loan : Loan}
    (found : (loans.retain held).get? id = some loan) : loans.get? id = some loan :=
  (Option.ite_none_right_eq_some.mp (get?_retain loans held id ▸ found)).2

theorem follows_retain (loans : Loans) (held : LoanSet) : Follows loans (loans.retain held) :=
  ⟨Nat.le_refl _, fun _ found => get?_of_retain found⟩

theorem Bounded.retain (bounded : loans.Bounded) (held : LoanSet) : (loans.retain held).Bounded :=
  fun _ _ found => bounded _ _ (get?_of_retain found)

theorem Bounded.continueFrom (bounded : loans.Bounded) (other : Loans) :
    (loans.continueFrom other).Bounded :=
  fun _ _ found => Nat.lt_of_lt_of_le (bounded _ _ found) (Nat.le_max_left _ _)

theorem follows_continueFrom {loans after : Loans} (follows : Follows loans after) (other : Loans) :
    Follows loans (after.continueFrom other) where
  next_le := Nat.le_trans follows.next_le (Nat.le_max_left _ _)
  old granted found := follows.old granted found

theorem Bounded.join {loans other : Loans} (left : loans.Bounded) (right : other.Bounded) :
    (loans.join other).Bounded := by
  intro id loan found
  rw [get?_join, Option.or_eq_some_iff] at found
  rw [next_join]
  rcases found with here | ⟨_, there⟩
  · exact Nat.lt_of_lt_of_le (left _ _ here) (Nat.le_max_left _ _)
  · exact Nat.lt_of_lt_of_le (right _ _ there) (Nat.le_max_right _ _)

theorem Follows.join {before left right : Loans} (first : Follows before left)
    (second : Follows before right) : Follows before (left.join right) where
  next_le := Nat.le_trans first.next_le (Nat.le_max_left _ _)
  old := by
    intro id loan granted found
    rw [get?_join, Option.or_eq_some_iff] at found
    rcases found with here | ⟨_, there⟩
    · exact first.old granted here
    · exact second.old granted there

/-- Loans of one number along two paths from one point are the same: the number was given out before
the paths part, since the second path goes on where the numbers of the first one end. -/
theorem Follows.agree {before left right : Loans} (bounded : before.Bounded)
    (first : Follows before right) (rightBounded : right.Bounded)
    (second : Follows (before.continueFrom right) left) {id : LoanId} {loan other : Loan}
    (here : left.get? id = some loan) (there : right.get? id = some other) : loan = other := by
  have granted : id < (before.continueFrom right).next :=
    Nat.lt_of_lt_of_le (rightBounded _ _ there) (Nat.le_max_right _ _)
  have origin : before.get? id = some loan := second.old granted here
  have same := first.old (bounded _ _ origin) there
  exact Option.mem_unique origin same

/-- Without a loan in the way of a move, no live loan is one of that local. -/
theorem root_ne_of_conflicting?_eq_none
    (free : loans.conflicting? { root := .local binding } .exclusive = none) {id : LoanId}
    {loan : Loan} (live : loans.get? id = some loan) : loan.place.root ≠ .local binding := by
  intro rooted
  have unblocked := List.find?_eq_none.mp free loan (Table.mem_values_of_get? live)
  have meets : Place.chainsMeet loan.place.fields [] = true := by
    cases loan.place.fields <;> rfl
  simp [Loan.blocks, Place.overlaps, Root.mayAlias, rooted, meets, LoanMode.conflictsWith]
    at unblocked

/-- The locals that the given loans borrow, as far as the loans are live. -/
def borrowed (loans : Loans) (ids : LoanSet) : List BindingId :=
  ids.toList.filterMap fun id =>
    match loans.get? id with
    | some loan =>
      match loan.place.root with
      | .local binding => some binding
      | _ => none
    | none => none

theorem mem_borrowed {ids : LoanSet} :
    binding ∈ loans.borrowed ids ↔
      ∃ id ∈ ids, ∃ loan, loans.get? id = some loan ∧ loan.place.root = .local binding := by
  simp only [borrowed, List.mem_filterMap]
  constructor
  · rintro ⟨id, member, found⟩
    cases live : loans.get? id with
    | none => simp [live] at found
    | some loan =>
      refine ⟨id, member, loan, live, ?_⟩
      cases root : loan.place.root <;> simp_all
  · rintro ⟨id, member, loan, live, rooted⟩
    exact ⟨id, member, by simp [live, rooted]⟩

end Loans

/-! ## Locals -/

theorem isPrefix_of_eq {α : Type} {left right : List α} (same : left = right) : left <+: right :=
  same ▸ List.prefix_rfl

/-- What is fixed about a binding for as long as it exists. -/
def Slot.shape (slot : Slot) : String × Ty × AbilitySet := (slot.name, slot.ty, slot.abilities)

namespace Locals

@[simp] theorem size_modify (locals : Locals) (id : BindingId) (change : Slot → Slot) :
    (locals.modify id change).size = locals.size := by
  simp [size, modify]

theorem slot?_modify (locals : Locals) (id other : BindingId) (change : Slot → Slot) :
    (locals.modify id change).slot? other =
      if other = id then (locals.slot? other).map change else locals.slot? other := by
  simp only [slot?, modify, List.getElem?_modify]
  by_cases same : other = id
  · simp [same]
  · simp [same, Ne.symm same]

theorem slot?_lt (found : locals.slot? id = some slot) : id < locals.size :=
  (List.getElem?_eq_some_iff.mp found).1

theorem slot?_of_lt (within : id < locals.size) : ∃ slot, locals.slot? id = some slot :=
  ⟨locals.slots[id], List.getElem?_eq_getElem within⟩

theorem mem_foldl_union_loans {id : LoanId} (ids : List BindingId) (held : LoanSet) :
    id ∈ ids.foldl (fun held binding =>
        match locals.slot? binding with
        | some slot => if slot.state.holdsValue then held.union slot.loans else held
        | none => held) held ↔
      id ∈ held ∨ ∃ binding ∈ ids, ∃ slot,
        locals.slot? binding = some slot ∧ slot.state.holdsValue = true ∧ id ∈ slot.loans := by
  induction ids generalizing held with
  | nil => simp
  | cons binding rest ih =>
    rw [List.foldl_cons, ih]
    simp only [List.mem_cons, exists_eq_or_imp]
    cases found : locals.slot? binding with
    | none => simp
    | some slot =>
      cases holds : slot.state.holdsValue <;> simp [holds, or_assoc]

/-- A loan is held if a binding in scope that may still have its value keeps it alive. -/
theorem mem_heldLoans {id : LoanId} :
    id ∈ locals.heldLoans ↔ ∃ binding ∈ locals.visible, ∃ slot,
      locals.slot? binding = some slot ∧ slot.state.holdsValue = true ∧ id ∈ slot.loans := by
  refine (mem_foldl_union_loans locals.visible ∅).trans ?_
  simp

variable (locals)

/-- What is fixed about the bindings. -/
def shapes : List (String × Ty × AbilitySet) := locals.slots.map Slot.shape

theorem length_shapes : locals.shapes.length = locals.size := by
  simp [shapes, size]

theorem size_of_shapes {locals : Locals} (same : other.shapes = locals.shapes) :
    other.size = locals.size := by
  rw [← length_shapes, same, length_shapes]

theorem shapes_modify {locals : Locals} (same : ∀ slot, (change slot).shape = slot.shape) :
    (locals.modify id change).shapes = locals.shapes := by
  simp only [shapes, modify]
  apply List.ext_getElem?
  intro index
  simp only [List.getElem?_map, List.getElem?_modify]
  cases locals.slots[index]? with
  | none => rfl
  | some slot =>
    by_cases here : id = index <;> simp [here, same]

theorem shapes_consume (id : BindingId) : (locals.consume id).2.shapes = locals.shapes :=
  shapes_modify fun _ => rfl

theorem shape_of_slot? {locals : Locals} (found : locals.slot? id = some slot) :
    locals.shapes[id]? = some slot.shape := by
  simpa [shapes, slot?] using congrArg (Option.map Slot.shape) found

theorem slot?_of_shapes {locals : Locals} (more : locals.shapes <+: other.shapes)
    (found : locals.slot? id = some slot) :
    ∃ slot', other.slot? id = some slot' ∧ slot'.shape = slot.shape := by
  obtain ⟨rest, same⟩ := more
  have shape := shape_of_slot? found
  have within : id < locals.shapes.length := (List.getElem?_eq_some_iff.mp shape).1
  rw [← List.getElem?_append_left within, same] at shape
  simpa [shapes, slot?, Option.map_eq_some_iff] using shape

/-! ### Scopes -/

@[simp] theorem visible_pushScope : locals.pushScope.visible = locals.visible := by
  simp [pushScope, visible]

@[simp] theorem slots_pushScope : locals.pushScope.slots = locals.slots := rfl

@[simp] theorem slots_popScope : locals.popScope.2.slots = locals.slots := by
  unfold popScope
  split <;> rfl

@[simp] theorem size_declare (slot : Slot) : (locals.declare slot).2.size = locals.size + 1 := by
  simp [declare, size]

theorem slot?_of_declare {locals : Locals} {other : Slot}
    (found : (locals.declare slot).2.slot? id = some other) :
    id = locals.size ∧ slot = other ∨ id ≠ locals.size ∧ locals.slot? id = some other := by
  simp only [declare, slot?, List.getElem?_append] at found
  split at found
  · rename_i old
    exact .inr ⟨Nat.ne_of_lt old, found⟩
  · rename_i new
    obtain ⟨none, same⟩ := Option.ite_none_right_eq_some.mp (List.getElem?_singleton ▸ found)
    exact .inl ⟨Nat.le_antisymm (Nat.le_of_sub_eq_zero none) (Nat.not_lt.mp new),
      Option.some.inj same⟩

@[simp] theorem visible_declare (slot : Slot) :
    (locals.declare slot).2.visible = locals.visible ++ [locals.size] := by
  simp [declare, visible]

@[simp] theorem shapes_declare (slot : Slot) :
    (locals.declare slot).2.shapes = locals.shapes ++ [slot.shape] := by
  simp [declare, shapes]

/-! ### Truncation, joins and expiry -/

theorem slot?_truncate (size : Nat) (id : BindingId) :
    (locals.truncate size).slot? id = if id < size then locals.slot? id else none := by
  simp [truncate, slot?, List.getElem?_take]

theorem slot?_of_truncate {locals : Locals} (found : (locals.truncate size).slot? id = some slot) :
    id < size ∧ locals.slot? id = some slot :=
  Option.ite_none_right_eq_some.mp (slot?_truncate locals size id ▸ found)

@[simp] theorem shapes_truncate (size : Nat) :
    (locals.truncate size).shapes = locals.shapes.take size := by
  simp [truncate, shapes, List.map_take]

/-- Scopes whose bindings are all kept stay as they are. -/
theorem scopes_truncate {locals : Locals} (within : ∀ id ∈ locals.visible, id < size) :
    (locals.truncate size).scope = locals.scope ∧ (locals.truncate size).outer = locals.outer := by
  have whole : ∀ scope ∈ locals.scope :: locals.outer, scope.filter (· < size) = scope := by
    intro scope member
    refine List.filter_eq_self.mpr fun id inside => ?_
    simp only [decide_eq_true_eq]
    refine within id (List.mem_flatten.mpr ⟨scope, ?_, inside⟩)
    exact List.mem_reverse.mpr member
  refine ⟨whole locals.scope List.mem_cons_self, ?_⟩
  have others : ∀ scope ∈ locals.outer, scope.filter (· < size) = scope := fun scope member =>
    whole scope (List.mem_cons_of_mem _ member)
  simpa [truncate] using List.map_congr_left others

theorem getElem?_joinSlots (lefts rights : List Slot) (same : lefts.length = rights.length)
    (id : BindingId) :
    (joinSlots lefts rights)[id]? =
      (lefts[id]?).bind fun left => (rights[id]?).map fun right => left.join right := by
  induction lefts generalizing rights id with
  | nil => simp [joinSlots]
  | cons left lefts ih =>
    cases rights with
    | nil => simp at same
    | cons right rights =>
      cases id with
      | zero => simp [joinSlots]
      | succ id => simpa [joinSlots] using ih rights (by simpa using same) id

theorem map_shape_joinSlots (lefts rights : List Slot) :
    (joinSlots lefts rights).map Slot.shape = lefts.map Slot.shape := by
  induction lefts generalizing rights with
  | nil => simp [joinSlots]
  | cons left lefts ih =>
    cases rights with
    | nil => simp [joinSlots]
    | cons right rights => simp [joinSlots, ih, Slot.join, Slot.shape]

@[simp] theorem shapes_join (other : Locals) : (locals.join other).shapes = locals.shapes :=
  map_shape_joinSlots locals.slots other.slots

/-- A join has what both sides have. -/
theorem slot?_join {locals : Locals} (same : locals.size = other.size) (id : BindingId) :
    (locals.join other).slot? id =
      (locals.slot? id).bind fun left => (other.slot? id).map fun right => left.join right :=
  getElem?_joinSlots locals.slots other.slots same id

/-- What expiry makes of one slot. -/
def expired (read : List String) (slot : Slot) : Slot :=
  if slot.ty.isRef && !decide (slot.name ∈ read) then { slot with loans := ∅ } else slot

theorem shape_expired (read : List String) (slot : Slot) :
    (expired read slot).shape = slot.shape := by
  unfold expired
  split <;> rfl

theorem expired_expired (read : List String) (slot : Slot) :
    expired read (expired read slot) = expired read slot := by
  unfold expired
  split <;> simp_all

/-- Expiry concerns the bindings in scope, all of them alike. -/
theorem slot?_expire (read : List String) (id : BindingId) :
    (locals.expire read).slot? id =
      if id ∈ locals.visible then (locals.slot? id).map (expired read) else locals.slot? id := by
  have folded : ∀ (ids : List BindingId) (table : Locals),
      (ids.foldl (fun table id => table.modify id (expired read)) table).slot? id =
        if id ∈ ids then (table.slot? id).map (expired read) else table.slot? id := by
    intro ids
    induction ids with
    | nil => intro table; simp
    | cons head rest ih =>
      intro table
      rw [List.foldl_cons, ih, slot?_modify]
      by_cases here : id = head
      · subst here
        have twice : expired read ∘ expired read = expired read := funext (expired_expired read)
        by_cases again : id ∈ rest <;> simp [again, twice]
      · simp [here]
  exact folded locals.visible locals

theorem shapes_expire (read : List String) : (locals.expire read).shapes = locals.shapes :=
  List.foldlRecOn (motive := fun table : Locals => table.shapes = locals.shapes)
    locals.visible _ rfl fun _ same _ _ => (shapes_modify (shape_expired read)).trans same

theorem scopes_expire (read : List String) :
    (locals.expire read).scope = locals.scope ∧ (locals.expire read).outer = locals.outer :=
  List.foldlRecOn (motive := fun table : Locals =>
    table.scope = locals.scope ∧ table.outer = locals.outer) locals.visible _ ⟨rfl,
      rfl⟩ fun _ same _ _ => same

end Locals

/-! ### Loans that bindings keep alive -/

/-- All of the given loans are live. -/
def Loans.AllLive (loans : Loans) (ids : LoanSet) :
    Prop := ∀ id ∈ ids, (loans.get? id).isSome = true

theorem Loans.isSome_insert {id : LoanId} (live : (loans.get? id).isSome = true) (loan : Loan) :
    ((loans.insert loan).2.get? id).isSome = true := by
  rw [get?_insert]
  split
  · rfl
  · exact live

/-- What a new loan comes with. -/
theorem Loans.AllLive.granted {parents : LoanSet} (live : loans.AllLive parents) (loan : Loan) :
    (loans.insert loan).2.AllLive (parents.insert loans.next) := by
  intro id member
  rcases SortedSet.mem_insert.mp member with rfl | inside
  · simp
  · exact isSome_insert (live id inside) loan

theorem Ownership.holdsValue_join {left right : Ownership}
    (holds : left.holdsValue = true ∨ right.holdsValue = true) :
    (left.join right).holdsValue = true := by
  revert holds
  cases left <;> cases right <;> decide

namespace Locals

/-- A binding in scope that keeps loans alive has a value, and the loans are live. -/
def Backed (locals : Locals) (loans : Loans) : Prop :=
  ∀ id ∈ locals.visible, ∀ slot, locals.slot? id = some slot → ∀ loan ∈ slot.loans,
    slot.state.holdsValue = true ∧ (loans.get? loan).isSome = true

section Backed

variable {locals locals' : Locals} {loans loans' : Loans} (backed : locals.Backed loans)

include backed

/-- Bindings may come to keep nothing, or loans that are live; the others stay as they are. -/
theorem Backed.revise (each : ∀ id ∈ locals'.visible, ∀ slot, locals'.slot? id = some slot →
      slot.loans = ∅ ∨ (slot.state.holdsValue = true ∧ loans.AllLive slot.loans) ∨
        (id ∈ locals.visible ∧ locals.slot? id = some slot)) : locals'.Backed loans := by
  intro id visible slot found loan member
  rcases each id visible slot found with empty | ⟨holds, live⟩ | ⟨listed, same⟩
  · rw [empty] at member
    exact absurd member (SortedSet.not_mem_empty loan)
  · exact ⟨holds, live loan member⟩
  · exact backed id listed slot same loan member

/-- Loans that bindings keep alive do not end. -/
theorem Backed.release
    (kept : ∀ loan ∈ locals.heldLoans,
      (loans.get? loan).isSome = true → (loans'.get? loan).isSome = true) :
    locals.Backed loans' := by
  intro id visible slot found loan member
  obtain ⟨holds, live⟩ := backed id visible slot found loan member
  exact ⟨holds, kept loan (mem_heldLoans.mpr ⟨id, visible, slot, found, holds, member⟩) live⟩

theorem Backed.retain : locals.Backed (loans.retain locals.heldLoans) := by
  refine backed.release fun loan held live => ?_
  rwa [Loans.get?_retain, if_pos (SortedSet.contains_iff.mpr held)]

theorem Backed.modify (id : BindingId) (each : ∀ slot, (change slot).loans = ∅ ∨
      ((change slot).state.holdsValue = true ∧ loans.AllLive (change slot).loans)) :
    (locals.modify id change).Backed loans := by
  refine backed.revise fun other visible slot found => ?_
  rw [slot?_modify] at found
  split at found
  · obtain ⟨earlier, _, rfl⟩ := Option.map_eq_some_iff.mp found
    exact (each earlier).imp_right .inl
  · exact .inr (.inr ⟨visible, found⟩)

theorem Backed.declare (holds : slot.state.holdsValue = true) (live : loans.AllLive slot.loans) :
    (locals.declare slot).2.Backed loans := by
  refine backed.revise fun id visible other found => ?_
  rcases slot?_of_declare found with ⟨_, rfl⟩ | ⟨old, found⟩
  · exact .inr (.inl ⟨holds, live⟩)
  · rw [visible_declare, List.mem_append, List.mem_singleton] at visible
    exact .inr (.inr ⟨visible.resolve_right old, found⟩)

theorem Backed.expire (read : List String) : (locals.expire read).Backed loans := by
  have scopes := scopes_expire locals read
  refine backed.revise fun id visible slot found => ?_
  have listed : id ∈ locals.visible := by simpa [Locals.visible, scopes] using visible
  rw [slot?_expire, if_pos listed] at found
  obtain ⟨earlier, here, rfl⟩ := Option.map_eq_some_iff.mp found
  unfold expired
  split
  · exact .inl rfl
  · exact .inr (.inr ⟨listed, here⟩)

theorem Backed.truncate (size : Nat) : (locals.truncate size).Backed loans := by
  refine backed.revise fun id visible slot found =>
    .inr (.inr ⟨?_, (slot?_of_truncate found).2⟩)
  simp only [Locals.visible, Locals.truncate, List.mem_flatten, List.mem_reverse] at visible ⊢
  obtain ⟨scope, listed, inside⟩ := visible
  rcases List.mem_cons.mp listed with rfl | listed
  · exact ⟨locals.scope, List.mem_cons_self, (List.mem_filter.mp inside).1⟩
  · obtain ⟨whole, among, rfl⟩ := List.mem_map.mp listed
    exact ⟨whole, List.mem_cons_of_mem _ among, (List.mem_filter.mp inside).1⟩

omit backed

/-- Where two paths with the same bindings in scope meet, a binding keeps what it keeps on
either. -/
theorem Backed.join (left : locals.Backed loans) (right : locals'.Backed loans')
    (sizes : locals.size = locals'.size) (scopes : locals.visible = locals'.visible) :
    (locals.join locals').Backed (loans.join loans') := by
  intro id visible slot found loan member
  rw [slot?_join sizes, Option.bind_eq_some_iff] at found
  obtain ⟨one, here, found⟩ := found
  obtain ⟨other, there, rfl⟩ := Option.map_eq_some_iff.mp found
  have listed : id ∈ locals.visible := visible
  rw [Loans.get?_join, Option.isSome_or, Bool.or_eq_true]
  rcases SortedSet.mem_union.mp member with first | second
  · obtain ⟨holds, live⟩ := left id listed one here loan first
    exact ⟨Ownership.holdsValue_join (.inl holds), .inl live⟩
  · obtain ⟨holds, live⟩ := right id (scopes ▸ listed) other there loan second
    exact ⟨Ownership.holdsValue_join (.inr holds), .inr live⟩

end Backed

end Locals

end Custody
