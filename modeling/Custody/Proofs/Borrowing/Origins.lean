import Custody.Proofs.Execution.Activation
import Custody.Proofs.Types.Aliasing
/-!
# What a call may touch

A call is given values for its parameters and a set of structs that it may reach in storage. Beyond
its own frame it may change what its mutable arguments lead to and the slots it may reach, and
nothing else. The checker knows where a reference comes from by the loans it holds: each loan has an
origin, and a reference leads where one of its origins says. So a slot that a reference starts in is
filled: either the caller keeps it filled, or a loan of the call itself stands in the way of
emptying it.
-/

namespace Custody

open Activation

variable {reference : Reference} {m m' : Machine} {mutable : Bool} {place : Place}

namespace Activation

/-- The call was given the reference to write through. -/
def Writes (a : Activation) (reference : Reference) : Prop :=
  ∃ index, a.Mutable index ∧ a.args[index]? = some (.ref reference)

theorem outside_within {a : Activation} {inner outer : Reference} (within : inner.Within outer) :
    a.Outside inner ↔ a.Outside outer := by
  rw [Outside, Outside, within.1]

end Activation

/-! ## Origins -/

/-- A reference leads where the origin of a loan says. A loan that was derived from others says
nothing that they do not say, so the origins that count are whole locals, fields of locals, what a
parameter leads to, and slots of storage. -/
inductive Leads (a : Activation) (locals : Locals) : Place × LoanMode → Reference → Prop
  | whole {id : BindingId} {mode : LoanMode} {reference : Reference}
      (rooted : reference.root = .local a.depth id) :
      Leads a locals ({ root := .local id }, mode) reference
  | field {id : BindingId} {name : String} {mode : LoanMode} {reference : Reference} {slot : Slot}
      {struct : StructId} {args : List Ty} {definition : StructDef} {index : Nat}
      (found : locals.slot? id = some slot) (typed : slot.ty = .struct struct args)
      (declared : a.ctx.types.struct? struct = some definition)
      (placed : definition.fieldIndex? name = some index)
      (rooted : reference.root = .local a.depth id) (along : [index] <+: reference.path) :
      Leads a locals ({ root := .local id, fields := [name] }, mode) reference
  | param {id : BindingId} {mode : LoanMode} {reference argument : Reference}
      (given : a.args[id]? = some (.ref argument)) (within : reference.Within argument)
      (writes : mode = .exclusive → a.Mutable id) :
      Leads a locals ({ root := .param id }, mode) reference
  | global {tag : StructTag} {mode : LoanMode} {key : SlotKey} {reference : Reference}
      (plain : a.ctx.Plain tag.ty)
      (reached : tag.id ∈ a.reach) (rooted : reference.root = .global key)
      (tagged : key.tag = tag.subst a.types) :
      Leads a locals ({ root := .global tag }, mode) reference

/-- The place is the slot, as the call instantiates its type. -/
def Place.IsFor (place : Place) (a : Activation) (key : SlotKey) : Prop :=
  ∃ tag, place.root = .global tag ∧ key.tag = tag.subst a.types

section Leading

variable {a : Activation} {locals locals' : Locals} {origin : Place × LoanMode}
  {reference other : Reference}

theorem Leads.of_shapes (leads : Leads a locals origin reference)
    (shapes : locals.shapes <+: locals'.shapes) : Leads a locals' origin reference := by
  cases leads with
  | whole rooted => exact .whole rooted
  | field found typed declared placed rooted along =>
    obtain ⟨slot', found', shape⟩ := Locals.slot?_of_shapes shapes found
    have sameType : slot'.ty = _ := congrArg (·.2.1) shape
    exact .field found' (sameType.trans typed) declared placed rooted along
  | param given within writes => exact .param given within writes
  | global plain reached rooted tagged => exact .global plain reached rooted tagged

/-- What leads to a part of what is led to is led to. -/
theorem Leads.within (leads : Leads a locals origin reference) (within : other.Within reference) :
    Leads a locals origin other := by
  cases leads with
  | whole rooted => exact .whole (within.1.trans rooted)
  | field found typed declared placed rooted along =>
    exact .field found typed declared placed (within.1.trans rooted) (along.trans within.2)
  | param given inside writes => exact .param given (within.trans inside) writes
  | global plain reached rooted tagged => exact .global plain reached (within.1.trans rooted) tagged

/-- The slot a reference starts in is filled if the caller keeps those of the arguments filled, and
those that loans are for are filled. -/
theorem Leads.stands {m : Machine} (leads : Leads a locals origin reference)
    (lent : ∀ {argument}, .ref argument ∈ a.args → argument.Stands m)
    (stored : ∀ {key}, origin.1.IsFor a key → reference.root = .global key → m.Fills key) :
    reference.Stands m := by
  intro key here
  cases leads with
  | whole rooted => cases rooted.symm.trans here
  | field _ _ _ _ rooted _ => cases rooted.symm.trans here
  | param given within _ =>
    exact lent (List.mem_of_getElem? given) key (within.1.symm.trans here)
  | global _ _ rooted tagged =>
    obtain rfl := RefRoot.global.inj (rooted.symm.trans here)
    exact stored ⟨_, rfl, tagged⟩ here

/-- A reference that may be written through leads to nothing outside that was not given to write
to. -/
theorem Leads.misses (leads : Leads a locals (place, .exclusive) reference)
    (outside : a.Outside other)
    (missed : ∀ {argument}, a.Writes argument → ¬ argument.Meets other) :
    ¬ reference.Meets other := by
  intro meets
  have root := meets.root
  unfold Outside at outside
  rw [← root] at outside
  cases leads with
  | whole rooted =>
    rw [rooted] at outside
    exact Nat.lt_irrefl _ outside
  | field _ _ _ _ rooted _ =>
    rw [rooted] at outside
    exact Nat.lt_irrefl _ outside
  | param given within writes =>
    exact missed ⟨_, writes rfl, given⟩ (meets.outward within)
  | global _ reached rooted tagged =>
    rw [rooted] at outside
    apply outside
    rw [tagged]
    exact reached

/-- Only what comes from a parameter leads outside. -/
theorem Leads.outside_iff (valid : a.Valid) (held : a.held)
    (leads : Leads a locals origin reference) :
    a.Outside reference ↔ ∃ id, origin.1.root = .param id := by
  cases leads with
  | whole rooted => simp [Outside, rooted]
  | field _ _ _ _ rooted _ => simp [Outside, rooted]
  | param given within _ =>
    have outside := valid.outside held (List.mem_of_getElem? given)
    simp [outside_within within, outside]
  | global _ reached rooted tagged =>
    simpa [Outside, rooted, tagged, StructTag.subst] using reached

/-- Fields of one struct are found at different positions. -/
theorem index_ne_of_ne {definition : StructDef} {left right : String} {index index' : Nat}
    (differs : left ≠ right) (first : definition.fieldIndex? left = some index)
    (second : definition.fieldIndex? right = some index') : index ≠ index' := by
  rintro rfl
  obtain ⟨inside, named, _⟩ := List.findIdx?_eq_some_iff_getElem.mp first
  obtain ⟨_, named', _⟩ := List.findIdx?_eq_some_iff_getElem.mp second
  exact differs ((of_decide_eq_true named).symm.trans (of_decide_eq_true named'))

/-- References that meet lie on one path. -/
theorem Reference.Meets.common {left right : Reference} (meets : left.Meets right) :
    ∃ path, left.path <+: path ∧ right.path <+: path := by
  rcases meets with within | within
  · exact ⟨left.path, List.prefix_rfl, within.2⟩
  · exact ⟨right.path, within.2, List.prefix_rfl⟩

/-- References whose origins do not overlap do not meet, if one of them may be written through. -/
theorem Leads.apart (valid : a.Valid) (held : a.held) (strict : a.guard.apart = true)
    {place' : Place} {mode : LoanMode} (left : Leads a locals (place, .exclusive) reference)
    (right : Leads a locals (place', mode) other)
    (disjoint : place'.overlaps place = false) : ¬ reference.Meets other := by
  intro meets
  have root := meets.root
  -- Either both come from parameters or neither does.
  have alike : (∃ id, place.root = .param id) ↔ ∃ id, place'.root = .param id := by
    rw [← left.outside_iff valid held, ← right.outside_iff valid held, Outside,
      Outside, root]
  cases left with
  | @whole id _ _ rooted =>
    cases right with
    | whole rooted' =>
      have same := RefRoot.local.inj (rooted.symm.trans (root.trans rooted'))
      simp [Place.overlaps, Root.mayAlias, Place.chainsMeet, same.2] at disjoint
    | field _ _ _ _ rooted' _ =>
      have same := RefRoot.local.inj (rooted.symm.trans (root.trans rooted'))
      simp [Place.overlaps, Root.mayAlias, Place.chainsMeet, same.2] at disjoint
    | param _ _ _ => simp at alike
    | global _ _ rooted' _ => cases rooted.symm.trans (root.trans rooted')
  | @field id name _ _ slot struct args definition index found typed declared placed rooted along =>
    cases right with
    | whole rooted' =>
      have same := RefRoot.local.inj (rooted.symm.trans (root.trans rooted'))
      simp [Place.overlaps, Root.mayAlias, Place.chainsMeet, same.2] at disjoint
    | @field id' name' _ _ slot' struct' args' definition' index' found' typed' declared' placed'
        rooted' along' =>
      obtain ⟨_, rfl⟩ := RefRoot.local.inj (rooted.symm.trans (root.trans rooted'))
      obtain rfl := Option.mem_unique found found'
      obtain ⟨rfl, rfl⟩ := Ty.struct.inj (typed.symm.trans typed')
      obtain rfl := Option.mem_unique declared declared'
      have differs : name' ≠ name := by
        simpa [Place.overlaps, Root.mayAlias, Place.chainsMeet] using disjoint
      -- On the path on which both lie, the first step leads to one field only.
      obtain ⟨path, first, second⟩ := meets.common
      have step := List.prefix_of_prefix_length_le (along'.trans second) (along.trans first)
        (Nat.le_refl 1)
      exact index_ne_of_ne differs placed' placed (List.cons_prefix_cons.mp step).1
    | param _ _ _ => simp at alike
    | global _ _ rooted' _ => cases rooted.symm.trans (root.trans rooted')
  | @param id _ _ argument given within writes =>
    cases right with
    | @param id' _ _ argument' given' within' _ =>
      have differs : id ≠ id' := by
        rintro rfl
        simp [Place.overlaps, Root.mayAlias, Place.chainsMeet] at disjoint
      have outward := ((meets.outward within).symm.outward within').symm
      exact valid.apart held strict differs (writes rfl) given given' outward
    | _ => simp at alike
  | @global tag _ key _ plain reached rooted tagged =>
    cases right with
    | whole rooted' => cases rooted.symm.trans (root.trans rooted')
    | field _ _ _ _ rooted' _ => cases rooted.symm.trans (root.trans rooted')
    | param _ _ _ => simp at alike
    | @global tag' _ key' _ plain' _ rooted' tagged' =>
      obtain rfl := RefRoot.global.inj (rooted.symm.trans (root.trans rooted'))
      have may := StructTag.mayAlias_of_subst plain' (tagged'.symm.trans tagged)
      simp [Place.overlaps, Root.mayAlias, Place.chainsMeet, may] at disjoint

end Leading

/-! ## References in hand -/

/-- Of the given loans one is live from whose origin the reference comes, and by which it may be
written through if it is mutable. -/
def Traced (a : Activation) (s : BodyState) (ids : LoanSet) (mutable : Bool)
    (reference : Reference) : Prop :=
  ∃ origin ∈ s.loans.origins ids, (mutable = true → origin.2 = .exclusive) ∧
    Leads a s.locals origin reference

section Tracing

variable {a : Activation} {s s' : BodyState} {ids ids' : LoanSet}

/-- A reference that may be written through may be read through. -/
theorem Traced.weaken {mutable' : Bool} (traced : Traced a s ids mutable reference)
    (weaker : mutable' = true → mutable = true) : Traced a s ids mutable' reference := by
  obtain ⟨origin, known, exclusive, leads⟩ := traced
  exact ⟨origin, known, fun wanted => exclusive (weaker wanted), leads⟩

theorem Traced.within {inner outer : Reference} (traced : Traced a s ids mutable outer)
    (within : inner.Within outer) : Traced a s ids mutable inner := by
  obtain ⟨origin, known, exclusive, leads⟩ := traced
  exact ⟨origin, known, exclusive, leads.within within⟩

/-- The checker knows no fewer origins. -/
theorem Traced.transfer (traced : Traced a s ids mutable reference)
    (shapes : s.locals.shapes <+: s'.locals.shapes)
    (known : ∀ origin ∈ s.loans.origins ids, origin ∈ s'.loans.origins ids') :
    Traced a s' ids' mutable reference := by
  obtain ⟨origin, here, exclusive, leads⟩ := traced
  exact ⟨origin, known origin here, exclusive, leads.of_shapes shapes⟩

/-- The slot that a reference starts in stays filled where those of the arguments are filled, and
those stay so that the loans are for. -/
theorem Traced.stands (traced : Traced a s ids mutable reference) (stands : reference.Stands m)
    (lent : ∀ {argument}, .ref argument ∈ a.args → argument.Stands m')
    (stored : ∀ {id loan key}, id ∈ ids → s.loans.get? id = some loan →
      loan.place.IsFor a key → m.Fills key → m'.Fills key) :
    reference.Stands m' := by
  obtain ⟨origin, known, _, leads⟩ := traced
  obtain ⟨id, member, loan, granted, rfl⟩ := Loans.mem_origins.mp known
  exact leads.stands lent fun isFor start => stored member granted isFor (stands _ start)

end Tracing

/-! ## What a stretch of steps spares -/

/-- What a call leaves as it was: slots that it may not reach stay filled, and what references
outside lead to is the same, unless the call was given a reference to write to it. -/
structure Activation.Spares (a : Activation) (m m' : Machine) : Prop where
  fills : ∀ {key}, ¬ key.tag.id ∈ a.reach → m.Fills key → m'.Fills key
  same : ∀ {reference}, a.Outside reference → reference.Stands m →
    (∀ {argument}, a.Writes argument → ¬ argument.Meets reference) →
    m'.at? reference = m.at? reference

section Sparing

variable {a : Activation} {m m' m'' : Machine}

/-- A slot outside that was filled stays filled. -/
theorem Activation.Spares.stands (spares : a.Spares m m') (outside : a.Outside reference)
    (stands : reference.Stands m) : reference.Stands m' := by
  intro key rooted
  rw [Outside, rooted] at outside
  exact spares.fills outside (stands key rooted)

theorem Activation.Spares.refl (a : Activation) (m : Machine) : a.Spares m m :=
  ⟨fun _ filled => filled, fun _ _ _ => rfl⟩

theorem Activation.Spares.trans (first : a.Spares m m') (second : a.Spares m' m'') :
    a.Spares m m'' where
  fills apart filled := second.fills apart (first.fills apart filled)
  same outside stands missed :=
    (second.same outside (first.stands outside stands) missed).trans
      (first.same outside stands missed)

/-- A slot that changed was empty, or one that the call may reach. -/
theorem Machine.AllBut.spares {changed : Option SlotKey} (allBut : m.AllBut changed m')
    (reached : ∀ key, changed = some key → m.Fills key → key.tag.id ∈ a.reach) : a.Spares m m' where
  fills apart filled := allBut.fills (fun same => apart (reached _ same filled)) filled
  same := by
    intro reference outside stands _
    refine Machine.at?_congr (allBut.root? fun key same rooted => ?_)
    rw [Outside, rooted] at outside
    exact outside (reached key same (stands key rooted))

/-- Storage, cells and the frames below the call are what they were. -/
theorem spares_of_own (sees : ∀ key, m'.tx.sees m'.store key = m.tx.sees m.store key)
    (host : m'.host = m.host)
    (below : ∀ {frame}, frame < a.depth → ∀ index, m'.local? frame index = m.local? frame index) :
    a.Spares m m' where
  fills _ filled := by
    rw [Machine.Fills, sees]
    exact filled
  same := by
    intro reference outside _ _
    apply Machine.at?_congr
    unfold Outside at outside
    cases rooted : reference.root with
    | «local» frame index =>
      rw [rooted] at outside
      exact below outside index
    | global key => exact sees key
    | host index => rw [Machine.root?, Machine.root?, host]

/-- What a call leaves of the rest of the machine. -/
structure Activation.Leaves (a : Activation) (m m' : Machine) : Prop where
  keeps : m.Keeps a.weight a.below a.depth m'
  spares : a.held → a.Spares m m'

theorem Activation.Leaves.refl (a : Activation) (m : Machine) : a.Leaves m m :=
  ⟨.refl _ _ _ _, fun _ => .refl _ _⟩

theorem Activation.Leaves.trans (first : a.Leaves m m') (second : a.Leaves m' m'') :
    a.Leaves m m'' :=
  ⟨first.keeps.trans second.keeps, fun held => (first.spares held).trans (second.spares held)⟩

end Sparing

end Custody
