import Mathlib.Data.List.Pairwise
import Custody.Proofs.Checking.Honest
import Custody.Proofs.Checking.Loans
/-!
# Checking stays within its tables

Every slot that checking looks up is a slot its table has, whatever is checked: types need not fit,
and names may be unknown or repeated. A strict watch stops the check at the first lookup beyond the
end of a table. It never does: under it each step leaves what it leaves unwatched. A recording watch
keeps what it is told of loans: which numbers they get, and which tables of them are joined.

The invariant is that scopes list slots of the table. Steps keep it and do not shrink the table.
Where two paths meet the table is cut back to what it was in front of them, and so are its scopes. A
path starts with loans that were live where it parts from another one, and some of them may have
ended on the other one since. They are still on record, with numbers that are not given out again.
-/

namespace Custody

variable {s : BodyState} {id : BindingId} {locals : Locals} {least : Nat} {past : Loans}
  {ctx : BodyContext} {name : String} {ended : Bool} {size : Nat}

/-! ## A strict watch -/

/-- A lookup beyond the end of a table. -/
structure Stray where
  ids : List BindingId
  size : Nat

/-- Whoever watches strictly stops the check where a slot is looked up that its table does not
have. -/
@[reducible] def strictly : Watch where
  Effect := Except Stray
  monad := inferInstance
  look ids size := if ∀ id ∈ ids, id < size then .ok ⟨⟩ else .error ⟨ids, size⟩

/-- It is stopped by a slot that is not there. -/
example : (@Check.look strictly {} [0] {}).toOption.isNone := by decide

/-! ## A recording watch -/

/-- Whoever records keeps what is told of loans, the latest first. -/
@[reducible] def recording : Watch where
  Effect α := α × List Notice
  monad := { pure := fun a => (a, []), bind := fun x f => ((f x.1).1, (f x.1).2 ++ x.2) }
  look _ _ := (⟨⟩, [])
  tell notice := (⟨⟩, [notice])

/-- The loans of a table are on record. -/
def Covers (told : List Notice) (loans : Loans) : Prop :=
  ∀ id loan, loans.get? id = some loan → .issued id loan ∈ told

/-- The notices do not both give the same number out. -/
def Notice.Apart (first second : Notice) : Prop :=
  ∀ id loan other, first = .issued id loan → second ≠ .issued id other

instance : Std.Symm Notice.Apart :=
  ⟨fun _ _ apart id loan other here there => apart id other loan there here⟩

/-- No number is given out twice, and the loans of tables that are joined are on record. -/
structure Fair (told : List Notice) : Prop where
  apart : told.Pairwise Notice.Apart
  traced : ∀ {here there}, .joined here there ∈ told → Covers told here ∧ Covers told there

/-- The record is fair and has the loans of the table, but no number that is still to be given
out. -/
structure Attests (told : List Notice) (loans : Loans) : Prop extends Fair told where
  covers : Covers told loans
  fresh : ∀ {id loan}, .issued id loan ∈ told → id < loans.next

section Recording

variable {told : List Notice} {loans other : Loans}

theorem Fair.unique (fair : Fair told) {id : LoanId} {loan other : Loan}
    (first : .issued id loan ∈ told) (second : .issued id other ∈ told) : loan = other := by
  by_contra differ
  exact fair.apart.forall first second (fun same => differ (Notice.issued.inj same).2) id loan
    other rfl rfl

theorem Covers.later (covers : Covers told loans) (notice : Notice) :
    Covers (notice :: told) loans :=
  fun id loan found => List.mem_cons_of_mem _ (covers id loan found)

theorem Covers.join (here : Covers told loans) (there : Covers told other) :
    Covers told (loans.join other) := by
  intro id loan found
  rw [Loans.get?_join] at found
  rcases Option.or_eq_some_iff.mp found with found | ⟨_, found⟩
  · exact here id loan found
  · exact there id loan found

namespace Attests

theorem empty : Attests [] {} := ⟨⟨.nil, (by cases ·)⟩, fun _ _ found => (by cases found),
    (by cases ·)⟩

variable (attests : Attests told loans)

include attests

theorem change (later : loans.next ≤ other.next) (covers : Covers told other) :
    Attests told other :=
  ⟨attests.toFair, covers, fun listed => Nat.lt_of_lt_of_le (attests.fresh listed) later⟩

theorem shrink (later : loans.next ≤ other.next)
    (old : ∀ {id loan}, other.get? id = some loan → loans.get? id = some loan) :
    Attests told other :=
  attests.change later fun id loan found => attests.covers id loan (old found)

theorem issue (loan : Loan) : Attests (.issued loans.next loan :: told) (loans.insert loan).2 where
  apart := by
    refine List.pairwise_cons.mpr ⟨fun notice listed id _ other new old => ?_, attests.apart⟩
    obtain ⟨rfl, _⟩ := Notice.issued.inj new
    exact Nat.lt_irrefl _ (attests.fresh (old ▸ listed))
  traced listed :=
    (attests.traced ((List.mem_cons.mp listed).resolve_left (by simp))).imp (·.later _) (·.later _)
  covers id loan' found := by
    rw [Loans.get?_insert] at found
    split at found
    · rename_i same
      rw [same, Option.some.inj found]
      exact List.mem_cons_self
    · exact List.mem_cons_of_mem _ (attests.covers id loan' found)
  fresh listed := by
    rw [Loans.next_insert]
    rcases List.mem_cons.mp listed with new | old
    · exact (Notice.issued.inj new).1 ▸ Nat.lt_succ_self _
    · exact Nat.lt_succ_of_lt (attests.fresh old)

theorem join (covers : Covers told other) : Attests (.joined loans other :: told) loans where
  apart := List.pairwise_cons.mpr ⟨fun _ _ _ _ _ never => (by cases never), attests.apart⟩
  traced listed := by
    rcases List.mem_cons.mp listed with new | old
    · obtain ⟨rfl, rfl⟩ := Notice.joined.inj new
      exact ⟨attests.covers.later _, covers.later _⟩
    · exact (attests.traced old).imp (·.later _) (·.later _)
  covers := attests.covers.later _
  fresh listed := attests.fresh ((List.mem_cons.mp listed).resolve_left (by simp))

end Attests

end Recording

/-! ## Tables whose scopes are within them -/

namespace Locals

/-- Every binding in scope has a slot. -/
def InBounds (locals : Locals) : Prop := ∀ id ∈ locals.visible, id < locals.size

theorem mem_visible : id ∈ locals.visible ↔ ∃ scope ∈ locals.scope :: locals.outer, id ∈ scope := by
  simp only [visible, List.mem_flatten, List.mem_reverse]

theorem mem_visible_of_scope (inside : id ∈ locals.scope) : id ∈ locals.visible :=
  mem_visible.mpr ⟨locals.scope, List.mem_cons_self, inside⟩

theorem mem_visible_of_lookup (found : locals.lookup name = some id) : id ∈ locals.visible :=
  List.mem_reverse.mp (List.mem_of_find?_eq_some found)

theorem mem_visible_of_lookupScope (found : locals.lookupScope name = some id) :
    id ∈ locals.visible :=
  mem_visible_of_scope (List.mem_reverse.mp (List.mem_of_find?_eq_some found))

namespace InBounds

variable {locals : Locals} (inBounds : locals.InBounds)

include inBounds

theorem modify (id : BindingId) (change : Slot → Slot) : (locals.modify id change).InBounds := by
  intro other visible
  rw [size_modify]
  exact inBounds other visible

theorem declare (slot : Slot) : (locals.declare slot).2.InBounds := by
  intro id visible
  rw [visible_declare] at visible
  rw [size_declare]
  rcases List.mem_append.mp visible with old | new
  · exact Nat.lt_succ_of_lt (inBounds id old)
  · rw [List.mem_singleton.mp new]
    exact Nat.lt_succ_self locals.size

theorem pushScope : locals.pushScope.InBounds := by
  intro id visible
  rw [visible_pushScope] at visible
  exact inBounds id visible

/-- What leaves scope, and what stays. -/
theorem popScope : (∀ id ∈ locals.popScope.1, id < locals.size) ∧ locals.popScope.2.InBounds := by
  unfold Locals.popScope
  split
  · exact ⟨by simp, inBounds⟩
  · rename_i next rest outer
    refine ⟨fun id inside => inBounds id (mem_visible_of_scope inside), fun id visible => ?_⟩
    obtain ⟨scope, listed, inside⟩ := mem_visible.mp visible
    refine inBounds id (mem_visible.mpr ⟨scope, ?_, inside⟩)
    rw [outer]
    exact List.mem_cons_of_mem _ listed

theorem expire (read : List String) : (locals.expire read).InBounds := by
  obtain ⟨scope, outer⟩ := scopes_expire locals read
  intro id visible
  rw [size_of_shapes (shapes_expire locals read)]
  refine inBounds id ?_
  rwa [mem_visible, scope, outer, ← mem_visible] at visible

theorem join (other : Locals) : (locals.join other).InBounds := by
  intro id visible
  rw [size_of_shapes (shapes_join locals other)]
  exact inBounds id visible

/-- Bindings that are cut off leave scope as well. -/
theorem truncate (size : Nat) : (locals.truncate size).InBounds := by
  have kept : ∀ scope ∈ locals.scope :: locals.outer, ∀ id ∈ scope.filter (· < size),
      id < (locals.truncate size).size := by
    intro scope listed id inside
    obtain ⟨inside, below⟩ := List.mem_filter.mp inside
    have here := inBounds id (mem_visible.mpr ⟨scope, listed, inside⟩)
    simp only [Locals.truncate, Locals.size, List.length_take]
    exact Nat.lt_min.mpr ⟨of_decide_eq_true below, here⟩
  intro id visible
  obtain ⟨scope, listed, inside⟩ := mem_visible.mp visible
  rcases List.mem_cons.mp listed with rfl | listed
  · exact kept locals.scope List.mem_cons_self id inside
  · obtain ⟨whole, among, rfl⟩ := List.mem_map.mp listed
    exact kept whole (List.mem_cons_of_mem _ among) id inside

end InBounds

theorem size_truncate (locals : Locals) (enough : size ≤ locals.size) :
    (locals.truncate size).size = size := by
  simp only [Locals.truncate, Locals.size, List.length_take]
  exact Nat.min_eq_left enough

theorem size_lt_declare (locals : Locals) (slot : Slot) :
    locals.size < (locals.declare slot).2.size :=
  Nat.lt_of_lt_of_eq (Nat.lt_succ_self _) (size_declare locals slot).symm

theorem size_popScope (locals : Locals) : locals.popScope.2.size = locals.size :=
  congrArg List.length locals.slots_popScope

end Locals

namespace Check

/-! ## Steps that stay within bounds -/

/-- Whatever was reported in between is about the function whose body is checked, and whatever call
was recorded is of a declared function. -/
structure Told (ctx : BodyContext) (before after : BodyState) : Prop where
  located : ∀ problem ∈ after.problems, problem ∈ before.problems ∨
    ∃ site, problem.location = .inFunction ctx.signature.id site
  declared : ∀ callee ∈ after.access.calls, callee ∈ before.access.calls ∨
    ∃ signature, ctx.types.function? callee = some signature

instance reading_told (ctx : BodyContext) : Reading (Told ctx) :=
  ⟨fun problems access =>
    ⟨fun _ listed => .inl (problems ▸ listed), fun _ listed => .inl (access ▸ listed)⟩⟩

instance recording_told (ctx : BodyContext) : Recording ctx (Told ctx) where
  quiet problems access _ := Reading.reading problems access
  trans one two :=
    ⟨fun problem listed => (two.located problem listed).elim (one.located problem) .inr,
      fun callee listed => (two.declared callee listed).elim (one.declared callee) .inr⟩
  report s site faults := by
    refine ⟨fun problem listed => ?_, fun _ listed => .inl listed⟩
    rcases List.mem_append.mp listed with before | here
    · exact .inl before
    · obtain ⟨fault, _, rfl⟩ := List.mem_map.mp here
      exact .inr ⟨site, rfl⟩
  direct _ _ := ⟨fun _ listed => .inl listed, fun _ listed => .inl listed⟩
  call s {_ callee} found := by
    refine ⟨fun _ listed => .inl listed, fun other listed => ?_⟩
    rcases SortedSet.mem_insert.mp listed with rfl | before
    · exact .inr ⟨callee, found⟩
    · exact .inl before

section Staying

variable {α β : Type} {x : (watch : Watch) → @Check watch α}
  {f : (watch : Watch) → α → @Check watch β}

/-- From this state the step does the same under either watch as unwatched, its scopes stay within
the table, and the table keeps so many slots at least. A record that attests the loans does so
behind the step, if it has the loans of an earlier point as well. -/
structure StaysAbove (least : Nat) (past : Loans) (x : (watch : Watch) → @Check watch α)
    (s : BodyState) : Prop where
  strict : x strictly s = .ok (x unwatched s)
  faithful : (x recording s).1 = x unwatched s
  attested : ∀ {told}, Attests told s.loans → Covers told past →
    Attests ((x recording s).2 ++ told) (x unwatched s).2.loans
  inBounds : (x unwatched s).2.locals.InBounds
  enough : least ≤ (x unwatched s).2.locals.size

/-- The table does not shrink. -/
abbrev StaysAt (x : (watch : Watch) → @Check watch α) (s : BodyState) : Prop :=
  StaysAbove s.locals.size s.loans x s

/-- The step advances from every state, and stays from every state whose scopes are within the
table. The unwatched step determines how it is watched. -/
class Follows (later : BodyState → BodyState → Prop) (step : Check α)
    (x : outParam ((watch : Watch) → @Check watch α)) : Prop extends Advances later step where
  same : x unwatched = step
  stays : ∀ s : BodyState, s.locals.InBounds → StaysAt x s

/-- A step that can be watched follows itself. -/
abbrev Stays (later : BodyState → BodyState → Prop) (x : (watch : Watch) → @Check watch α) : Prop :=
  Follows later (x unwatched) x

theorem stays_at [here : Stays Kept x] (inBounds : s.locals.InBounds) : StaysAt x s :=
  here.stays s inBounds

/-- A record that attests the loans has them. -/
theorem StaysAt.above (here : StaysAt x s) (enough : least ≤ s.locals.size) :
    StaysAbove least past x s :=
  { here with
    attested := fun attests _ => here.attested attests attests.covers
    enough := Nat.le_trans enough here.enough }

theorem StaysAbove.bind {least first : Nat} (before : StaysAbove first past x s)
    (rest : StaysAbove least past (fun watch => f watch (x unwatched s).1) (x unwatched s).2) :
    StaysAbove least past (fun watch => x watch >>= f watch) s where
  strict := by
    show (x strictly s >>= fun result => f strictly result.1 result.2) = _
    rw [before.strict]
    exact rest.strict
  faithful := by
    show (f recording (x recording s).1.1 (x recording s).1.2).1 = _
    rw [before.faithful]
    exact rest.faithful
  attested attests covers := by
    show Attests (((f recording (x recording s).1.1 (x recording s).1.2).2 ++ (x recording s).2) ++
      _) _
    rw [before.faithful, List.append_assoc]
    exact rest.attested (before.attested attests covers) fun id loan found =>
      List.mem_append_right _ (covers id loan found)
  inBounds := rest.inBounds
  enough := rest.enough

theorem StaysAbove.followed (before : StaysAbove least past x s)
    [rest : ∀ a, Stays Kept fun watch => f watch a] :
    StaysAbove least past (fun watch => x watch >>= f watch) s :=
  before.bind (((rest (x unwatched s).1).stays _ before.inBounds).above before.enough)

theorem StaysAt.bind (first : StaysAt x s)
    (rest : StaysAt (fun watch => f watch (x unwatched s).1) (x unwatched s).2) :
    StaysAt (fun watch => x watch >>= f watch) s :=
  StaysAbove.bind first (rest.above first.enough)

theorem StaysAt.then [first : Stays Kept x] (inBounds : s.locals.InBounds)
    (rest : StaysAt (fun watch => f watch (x unwatched s).1) (x unwatched s).2) :
    StaysAt (fun watch => x watch >>= f watch) s :=
  (first.stays s inBounds).bind rest

/-- What depends on the state may depend on its scopes being within the table. -/
theorem staysAt_get {f : (watch : Watch) → BodyState → @Check watch β}
    (inBounds : s.locals.InBounds) (rest : StaysAt (fun watch => f watch s) s) :
    StaysAt (fun watch => (get : @Check watch BodyState) >>= f watch) s :=
  StaysAt.bind (x := fun watch => (get : @Check watch BodyState))
    ⟨rfl, rfl, fun attests _ => attests, inBounds, Nat.le_refl _⟩ rest

theorem staysAbove_modify {f : BodyState → BodyState}
    (attested : ∀ {told}, Attests told s.loans → Covers told past → Attests told (f s).loans)
    (inBounds : (f s).locals.InBounds) (enough : least ≤ (f s).locals.size) :
    StaysAbove least past (fun watch => (modify f : @Check watch PUnit)) s :=
  ⟨rfl, rfl, attested, inBounds, enough⟩

theorem staysAbove_set {s t : BodyState} (same : t.loans = s.loans) (inBounds : t.locals.InBounds)
    (enough : least ≤ t.locals.size) :
    StaysAbove least past (fun watch => (set t : @Check watch PUnit)) s :=
  ⟨rfl, rfl, fun attests _ => same.symm ▸ attests, inBounds, enough⟩

/-- A loan gets its number where it enters the table. -/
theorem staysAt_issue {next : (watch : Watch) → @Check watch β} {t : BodyState} (loan : Loan)
    (made : t.loans = (s.loans.insert loan).2) (enough : s.locals.size ≤ t.locals.size)
    (rest : StaysAt next t) : StaysAt (fun watch => (do
      tell (.issued s.loans.next loan)
      set t
      next watch : @Check watch β)) s where
  strict := rest.strict
  faithful := rest.faithful
  attested {told} attests _ := by
    have issued := made ▸ attests.issue loan
    show Attests ((((next recording t).2 ++ []) ++ [.issued s.loans.next loan]) ++ told) _
    simpa using rest.attested issued issued.covers
  inBounds := rest.inBounds
  enough := Nat.le_trans enough rest.enough

/-- Another path starts from an earlier point; the loans of the path that was left are still on
record. -/
theorem staysAbove_rewind {next : (watch : Watch) → @Check watch β} {before : BodyState}
    (rest : StaysAbove least s.loans next (rewind s before.locals before.loans)) :
    StaysAbove least before.loans (fun watch => (do
      set (rewind s before.locals before.loans)
      next watch : @Check watch β)) s where
  strict := rest.strict
  faithful := rest.faithful
  attested {told} attests covers := by
    have rewound : Attests told (rewind s before.locals before.loans).loans :=
      attests.change (Nat.le_max_right _ _) covers
    show Attests (((next recording (rewind s before.locals before.loans)).2 ++ []) ++ told) _
    simpa using rest.attested rewound attests.covers
  inBounds := rest.inBounds
  enough := rest.enough

theorem staysAt_look {ids : List BindingId} (inBounds : s.locals.InBounds)
    (inside : ∀ id ∈ ids, id < locals.size) : StaysAt (fun _ => look locals ids) s where
  strict := by
    show ((if ∀ id ∈ ids, id < locals.size then Except.ok ⟨⟩ else .error ⟨ids, locals.size⟩ :
      Except Stray PUnit) >>= fun result => pure (result, s)) = _
    rw [if_pos inside]
    rfl
  faithful := rfl
  attested attests _ := attests
  inBounds := inBounds
  enough := Nat.le_refl _

/-- Each item may need a table that is large enough. -/
theorem staysAt_forM {f : (watch : Watch) → α → @Check watch PUnit} (items : List α)
    (each : ∀ item ∈ items, ∀ s : BodyState, s.locals.InBounds → least ≤ s.locals.size →
      StaysAt (fun watch => f watch item) s) (inBounds : s.locals.InBounds)
    (enough : least ≤ s.locals.size) : StaysAt (fun watch => items.forM (f watch)) s := by
  induction items generalizing s with
  | nil => exact ⟨rfl, rfl, fun attests _ => attests, inBounds, Nat.le_refl _⟩
  | cons item rest ih =>
    have first := each item List.mem_cons_self s inBounds enough
    exact first.bind (ih
      (fun other member => each other (List.mem_cons_of_mem _ member)) first.inBounds
      (Nat.le_trans enough first.enough))

variable {step : Check α} {next : α → Check β} {later : BodyState → BodyState → Prop}

instance stays_ite (p : Prop) [Decidable p] (x y : (watch : Watch) → @Check watch α)
    (step other : Check α) [Follows later step x] [Follows later other y] :
    Follows later (if p then step else other) fun watch => if p then x watch else y watch := by
  split <;> assumption

variable [course : Course later]

instance stays_bind (x : (watch : Watch) → @Check watch α)
    (f : (watch : Watch) → α → @Check watch β) (step : Check α) (next : α → Check β)
    [first : Follows later step x] [rest : ∀ a, Follows later (next a) fun watch => f watch a] :
    Follows later (step >>= next) fun watch => x watch >>= f watch where
  advances s := course.trans (first.advances s) ((rest _).advances _)
  same := by
    have behind : f unwatched = next := funext fun a => (rest a).same
    rw [first.same, behind]
  stays s inBounds := (first.stays s inBounds).bind
    ((rest _).stays _ (first.stays s inBounds).inBounds)

theorem Follows.bind [Follows later step x] (rest : ∀ a, Follows later (next a) fun watch =>
    f watch a) : Follows later (step >>= next) fun watch => x watch >>= f watch :=
  stays_bind x f step next

instance stays_pure (a : α) : Stays later fun watch => (pure a : @Check watch α) :=
  ⟨rfl, fun _ inBounds => ⟨rfl, rfl, fun attests _ => attests, inBounds, Nat.le_refl _⟩⟩

instance stays_get : Stays later fun watch => (get : @Check watch BodyState) :=
  ⟨rfl, fun _ inBounds => ⟨rfl, rfl, fun attests _ => attests, inBounds, Nat.le_refl _⟩⟩

omit course in
theorem stays_modify {f : BodyState → BodyState} (same : ∀ s, (f s).locals = s.locals)
    (attested : ∀ s told, Attests told s.loans → Attests told (f s).loans)
    (step : ∀ s, later s (f s)) : Stays later fun watch => (modify f : @Check watch PUnit) where
  advances := step
  same := rfl
  stays s inBounds := staysAbove_modify (fun attests _ => attested s _ attests)
    ((same s).symm ▸ inBounds) (Nat.le_of_eq (by rw [same s]))

theorem stays_forM {f : (watch : Watch) → α → @Check watch PUnit} {step : α → Check PUnit}
    (items : List α) (each : ∀ item ∈ items, Follows later (step item) fun watch => f watch item) :
    Follows later (items.forM step) fun watch => items.forM (f watch) := by
  induction items with
  | nil => exact inferInstanceAs (Stays later fun watch => (pure ⟨⟩ : @Check watch PUnit))
  | cons item rest ih =>
    have first := each item List.mem_cons_self
    have others := ih fun other member => each other (List.mem_cons_of_mem _ member)
    exact inferInstanceAs (Follows later (step item >>= fun _ => rest.forM step)
      fun watch => f watch item >>= fun _ => rest.forM (f watch))

end Staying

/-! ### Steps that report nothing -/

/-- What is left of the loans if only those of the given ones that are not held end. -/
structure Releases (held : LoanSet) (given : LoanId → Prop) (before after : Loans) : Prop where
  next : after.next = before.next
  shrinks : ∀ {id loan}, after.get? id = some loan → before.get? id = some loan
  keeps : ∀ {id}, id ∈ held ∨ ¬ given id → after.get? id = before.get? id

theorem Releases.refl (held : LoanSet) (given : LoanId → Prop) (loans : Loans) :
    Releases held given loans loans :=
  ⟨rfl, fun found => found, fun _ => rfl⟩

theorem Releases.trans {given given' : LoanId → Prop} {loans middle after : Loans}
    (first : Releases held given loans middle) (second : Releases held given' middle after) :
    Releases held (fun id => given id ∨ given' id) loans after where
  next := second.next.trans first.next
  shrinks found := first.shrinks (second.shrinks found)
  keeps := by
    intro id kept
    rw [second.keeps (kept.imp_right fun neither right => neither (.inr right)),
      first.keeps (kept.imp_right fun neither left => neither (.inl left))]

theorem Releases.mono {given given' : LoanId → Prop} {before after : Loans}
    (releases : Releases held given before after) (wider : ∀ id, given id → given' id) :
    Releases held given' before after :=
  ⟨releases.next, releases.shrinks, fun kept => releases.keeps
    (kept.imp_right fun outside inside => outside (wider _ inside))⟩

theorem releases_foldl (held : LoanSet) (ids : List LoanId) (loans : Loans) :
    Releases held (· ∈ ids) loans
      (ids.foldl (fun loans id => if held.contains id then loans else loans.release id) loans) := by
  induction ids generalizing loans with
  | nil => exact Releases.refl held _ loans
  | cons id rest ih =>
    have first : Releases held (· = id) loans
        (if held.contains id then loans else loans.release id) := by
      by_cases kept : id ∈ held
      · simpa [kept] using Releases.refl held (· = id) loans
      · refine ⟨by simp [kept, Loans.release], ?_, ?_⟩
        · intro other loan found
          by_cases same : other = id
          · simp [kept, Loans.release, Loans.get?, same] at found
          · simpa [kept, Loans.release, Loans.get?, same] using found
        · intro other outside
          have differs : other ≠ id := by
            rintro rfl
            exact outside.elim kept fun absurd => absurd rfl
          simp [kept, Loans.release, Loans.get?, differs]
    exact (first.trans (ih _)).mono fun other either =>
      either.elim (fun same => same ▸ List.mem_cons_self) (List.mem_cons_of_mem _)

section Quiet

variable {later : BodyState → BodyState → Prop} [course : Course later]

instance stays_lookAround : Stays later fun _ => lookAround where
  advances _ := course.quiet rfl rfl rfl
  same := rfl
  stays _ inBounds := staysAt_get inBounds (staysAt_look inBounds inBounds)

instance stays_releaseTemporaries : Stays later fun _ => releaseTemporaries :=
  .bind fun _ => stays_modify (fun _ => rfl)
    (fun _ _ attests => attests.shrink (Nat.le_refl _) Loans.get?_of_retain)
    fun _ => course.quiet rfl rfl rfl

instance stays_releaseUnheld (ids : LoanSet) : Stays later fun _ => releaseUnheld ids :=
  .bind fun _ => stays_modify (fun _ => rfl)
    (fun s _ attests =>
      have releases := releases_foldl s.locals.heldLoans ids.toList s.loans
      attests.shrink (Nat.le_of_eq releases.next.symm) releases.shrinks)
    fun _ => course.quiet rfl rfl rfl

instance stays_recordAccess (struct : StructId) : Stays later fun _ => recordAccess struct :=
  stays_modify (fun _ => rfl) (fun _ _ attests => attests) fun s => course.direct s struct

instance advances_withOperand (operand : Option Operand) (next : Operand → Check (Option Operand))
    [∀ value, Advances later (next value)] : Advances later (withOperand operand next) := by
  cases operand <;> (unfold withOperand; infer_instance)

instance stays_withOperand (operand : Option Operand)
    (next : (watch : Watch) → Operand → @Check watch (Option Operand))
    (step : Operand → Check (Option Operand))
    [∀ value, Follows later (step value) fun watch => next watch value] :
    Follows later (withOperand operand step) fun watch => withOperand operand (next watch) := by
  cases operand <;> (unfold withOperand; infer_instance)

instance advances_consume (id : BindingId) : Advances later (consume id) :=
  advances_modify fun _ => course.quiet rfl rfl rfl

/-- Merging drops nothing from the record that both paths share. -/
instance advances_mergePaths (size : Nat) (other : Path) (ended : Bool) :
    Advances later (mergePaths size other ended) := by
  refine ⟨fun s => course.quiet ?_ ?_ ?_⟩ <;>
    (cases first : other.ended <;> cases ended <;> simp [mergePaths, first])

end Quiet

section Steps

variable {site : Site} {later : BodyState → BodyState → Prop} [rec : Recording ctx later]

instance stays_reportAll (faults : List Fault) : Stays later fun _ => reportAll ctx site faults :=
  stays_modify (fun _ => rfl) (fun _ _ attests => attests) fun s => rec.report s site faults

instance stays_report (fault : Fault) : Stays later fun _ => report ctx site fault :=
  inferInstanceAs (Stays later fun _ => reportAll ctx site [fault])

instance stays_expect (found expected : Ty) :
    Stays later fun _ => expect ctx site found expected := by
  unfold expect
  infer_instance

instance stays_resolveType (top : Bool) (type : TypeExpr) :
    Stays later fun _ => resolveType ctx site top type := by
  unfold resolveType
  split <;> infer_instance

instance stays_ownStruct (action : StructUse) (struct : StructExpr) :
    Stays later fun _ => ownStruct ctx action struct := by
  unfold ownStruct
  split <;> infer_instance

instance stays_storedStruct (action : StructUse) (struct : StructExpr) :
    Stays later fun _ => storedStruct ctx action struct := by
  unfold storedStruct
  refine .bind fun tag => ?_
  split <;> infer_instance

instance stays_coversFields (action : StructUse) (struct : String) (tag : StructTag)
    (fields given : List String) :
    Stays later fun _ => coversFields ctx action struct tag fields given := by
  unfold coversFields
  have reports : Stays later fun _ => (coverageFaults action struct tag fields given).forM
      fun entry => report ctx entry.1 entry.2 :=
    stays_forM _ fun _ _ => inferInstance
  infer_instance

instance stays_grant (place : Place) (mutable : Bool) (parents : LoanSet) (referent : Ty) :
    Stays later fun _ => grant ctx site place mutable parents referent where
  advances s := by
    cases granted : s.loans.grant ⟨place, .ofMutable mutable, parents⟩ with
    | ok entry =>
      simp only [grant, bind_apply, get_apply, granted]
      exact rec.quiet rfl rfl rfl
    | error existing =>
      simp only [grant, bind_apply, get_apply, granted]
      exact Advances.advances s
  same := rfl
  stays s inBounds := by
    simp only [grant]
    refine staysAt_get inBounds ?_
    split
    · rename_i loans granted
      unfold Loans.grant at granted
      split at granted <;> cases granted
      exact staysAt_issue _ rfl (Nat.le_refl _) (stays_at inBounds)
    · exact stays_at inBounds

instance stays_checkAccess (mode : LoanMode) (reference : Operand) :
    Stays later fun _ => checkAccess ctx site mode reference := by
  unfold checkAccess
  repeat' first | infer_instance | split | refine .bind fun _ => ?_

/-! ### Expressions -/

theorem staysAt_change {change : Slot → Slot} (inBounds : s.locals.InBounds)
    (inside : id < s.locals.size) : StaysAt (fun watch => (do
      look (← get).locals [id]
      modify fun state => { state with locals := state.locals.modify id change } :
        @Check watch PUnit)) s := by
  refine StaysAt.bind (stays_at inBounds) ?_
  refine StaysAt.bind (staysAt_look inBounds (List.forall_mem_singleton.mpr inside)) ?_
  exact staysAbove_modify (fun attests _ => attests) (inBounds.modify id _)
    (Nat.le_of_eq (Locals.size_modify _ _ _).symm)

instance advances_useLocal (use : LocalUse) (name : String) :
    Advances later (useLocal ctx use name) := by
  cases use <;>
    (simp only [useLocal]
     repeat' first | infer_instance | split | refine .bind fun _ => ?_)

instance stays_useLocal (use : LocalUse) (name : String) :
    Stays later fun _ => useLocal ctx use name := by
  refine ⟨rfl, fun s inBounds => ?_⟩
  simp only [useLocal]
  refine staysAt_get inBounds ((staysAt_look inBounds inBounds).bind ?_)
  split
  · exact stays_at inBounds
  · rename_i id found
    have inside := inBounds id (Locals.mem_visible_of_lookup found)
    split
    · exact stays_at inBounds
    · refine (staysAt_look inBounds (List.forall_mem_singleton.mpr inside)).bind ?_
      -- The value is moved out behind every report, and no report changes the table.
      have moves : ∀ t : BodyState, t.locals = s.locals → ∀ result : Option Operand,
          StaysAt (fun watch => do consume id; return result) t :=
        fun t same result => StaysAbove.followed (staysAt_change (same ▸ inBounds) (same ▸ inside))
      cases use <;>
        repeat' first
          | exact stays_at inBounds
          | (refine moves _ ?_ _; rfl)
          | split
          | refine StaysAt.then inBounds ?_

instance advances_borrowable (name : String) : Advances later (borrowable ctx site name) := by
  unfold borrowable
  repeat' first | infer_instance | split | refine .bind fun _ => ?_

instance stays_borrowable (name : String) : Stays later fun _ => borrowable ctx site name := by
  refine ⟨rfl, fun s inBounds => ?_⟩
  unfold borrowable
  refine staysAt_get inBounds ((staysAt_look inBounds inBounds).bind ?_)
  split
  · exact stays_at inBounds
  · rename_i id found
    have inside := inBounds id (Locals.mem_visible_of_lookup found)
    split
    · exact stays_at inBounds
    · refine (staysAt_look inBounds (List.forall_mem_singleton.mpr inside)).bind ?_
      split <;> exact stays_at inBounds

instance stays_borrowLocal (mutable : Bool) (name : String) :
    Stays later fun _ => borrowLocal ctx mutable name := by
  simp only [borrowLocal]
  refine .bind fun found => ?_
  split <;> infer_instance

instance stays_localBase (mutable : Bool) (name : String) :
    Stays later fun _ => localBase ctx site mutable name := by
  unfold localBase
  refine .bind fun found => ?_
  split <;> infer_instance

instance stays_borrowField (mutable : Bool) (field : String) (base : Operand) :
    Stays later fun _ => borrowField ctx mutable field base := by
  simp only [borrowField]
  repeat' first | infer_instance | split

instance stays_freeze (operand : Operand) : Stays later fun _ => freeze ctx operand := by
  unfold freeze
  split <;> infer_instance

instance stays_dereference (operand : Operand) : Stays later fun _ => dereference ctx operand := by
  unfold dereference
  split <;> infer_instance

instance stays_signerAddress (operand : Operand) :
    Stays later fun _ => signerAddress ctx operand := by
  unfold signerAddress
  infer_instance

instance stays_negate (operand : Operand) : Stays later fun _ => negate ctx operand := by
  unfold negate
  infer_instance

instance stays_expectFields (struct : String) (fields : List (String × Ty))
    (given : List (String × Option Operand)) :
    Stays later fun _ => expectFields ctx struct fields given := by
  induction given with
  | nil =>
    unfold expectFields
    infer_instance
  | cons entry rest ih =>
    obtain ⟨name, value⟩ := entry
    cases value with
    | none =>
      unfold expectFields
      infer_instance
    | some value =>
      unfold expectFields
      split <;> infer_instance

instance stays_pack (struct : StructExpr) (given : List (String × Option Operand)) :
    Stays later fun _ => pack ctx struct given := by
  unfold pack
  repeat' first | infer_instance | split | refine .bind fun _ => ?_

instance stays_expectItems (elem : Ty) (items : List (Option Operand)) :
    Stays later fun _ => expectItems ctx elem items := by
  induction items with
  | nil =>
    unfold expectItems
    infer_instance
  | cons item rest ih => cases item <;> (unfold expectItems; infer_instance)

instance stays_vector (elem : TypeExpr) (items : List (Option Operand)) :
    Stays later fun _ => vector ctx elem items := by
  unfold vector
  refine .bind fun ty => ?_
  split <;> infer_instance

instance stays_binary (op : BinOp) (left right : Operand) :
    Stays later fun _ => binary ctx op left right := by
  simp only [binary]
  infer_instance

instance stays_logical (op : BinOp) (left right : Operand) :
    Stays later fun _ => logical ctx op left right := by
  simp only [logical]
  infer_instance

instance stays_resolveTypeArgs (types : List TypeExpr) :
    Stays later fun _ => resolveTypeArgs ctx site types := by
  induction types with
  | nil | cons type rest ih =>
    unfold resolveTypeArgs
    infer_instance

instance stays_expectArguments (callee : FunctionId) (types : List Ty)
    (params : List (String × Ty)) (values : List Operand) :
    Stays later fun _ => expectArguments ctx callee types params values := by
  induction params generalizing values with
  | nil =>
    unfold expectArguments
    infer_instance
  | cons param rest ih =>
    cases values <;> (unfold expectArguments; infer_instance)

instance stays_checkAliasing (values : List Operand) :
    Stays later fun _ => checkAliasing ctx site values := by
  unfold checkAliasing
  refine .bind fun state => ?_
  split <;> infer_instance

instance stays_checkAcquired (callee : Signature) :
    Stays later fun _ => checkAcquired ctx site callee := by
  unfold checkAcquired
  refine stays_forM _ fun name _ => ?_
  refine .bind fun state => ?_
  simp only
  split <;> infer_instance

instance stays_applyCall (callee : Signature) (types : List Ty) (values : List Operand) :
    Stays later fun _ => applyCall ctx site callee types values := by
  have releases : Stays later fun _ => values.forM fun value =>
      releaseUnheld (value.loans.diff (callResult (callee.ret.subst types) values).loans) :=
    stays_forM _ fun _ _ => inferInstance
  unfold applyCall
  infer_instance

instance stays_call (module : Option String) (function : String) (typeArgs : List TypeExpr)
    (values : List (Option Operand)) :
    Stays later fun _ => call ctx module function typeArgs values := by
  simp only [call]
  split
  · infer_instance
  · rename_i callee found
    have records : Stays later fun watch => (modify fun s : BodyState => { s with access :=
        { s.access with calls := s.access.calls.insert ⟨module.getD ctx.module, function⟩ } } :
          @Check watch PUnit) :=
      stays_modify (fun _ => rfl) (fun _ _ attests => attests) fun s => rec.call s found
    repeat' first | infer_instance | split | refine .bind fun _ => ?_

instance stays_moveTo (tag : StructTag) (signer value : Operand) :
    Stays later fun _ => moveTo ctx tag signer value := by
  simp only [moveTo]
  infer_instance

instance stays_moveFrom (tag : StructTag) (addr : Operand) :
    Stays later fun _ => moveFrom ctx tag addr := by
  unfold moveFrom
  repeat' first | infer_instance | split | refine .bind fun _ => ?_

instance stays_borrowGlobal (tag : StructTag) (mutable : Bool) (addr : Operand) :
    Stays later fun _ => borrowGlobal ctx tag mutable addr := by
  unfold borrowGlobal
  infer_instance

instance stays_existsAt (addr : Operand) : Stays later fun _ => existsAt ctx addr := by
  unfold existsAt
  infer_instance

/-- Where two paths meet, the table is the one in front of them. -/
theorem staysAbove_mergePaths {other : Locals} {left : Bool} (inBounds : s.locals.InBounds)
    (otherInBounds : other.InBounds) (here : size ≤ s.locals.size) (there : size ≤ other.size) :
    StaysAbove size past (fun _ => mergePaths size ⟨other, past, left⟩ ended) s := by
  have cut := s.locals.size_truncate here
  have otherCut := other.size_truncate there
  have inside := inBounds.truncate size
  simp only [mergePaths]
  refine StaysAbove.bind (staysAbove_modify (fun attests _ => attests) inside (Nat.le_refl _)) ?_
  split
  · exact ⟨rfl, rfl, fun attests _ => attests, inside, Nat.le_of_eq cut.symm⟩
  · exact StaysAbove.followed (staysAbove_modify
      (fun attests covers => attests.change (Nat.le_max_right _ _) covers)
      (otherInBounds.truncate size) (Nat.le_of_eq otherCut.symm))
  · refine StaysAbove.bind ((stays_at inside).above (Nat.le_refl _)) ?_
    refine StaysAbove.bind ((staysAt_look inside fun id shared => ?_).above (Nat.le_refl _)) ?_
    · exact Nat.lt_of_lt_of_le (List.mem_range.mp shared) (Nat.min_le_left _ _)
    refine StaysAbove.bind ((staysAt_look inside fun id shared => ?_).above (Nat.le_refl _)) ?_
    · exact Nat.lt_of_lt_of_le (List.mem_range.mp shared) (Nat.min_le_right _ _)
    refine StaysAbove.bind (x := fun _ => tell (.joined s.loans past))
      ⟨rfl, rfl, fun attests covers => attests.join covers, inside, Nat.le_refl _⟩ ?_
    refine StaysAbove.followed (staysAbove_modify (fun attests covers =>
      attests.change (Nat.le_max_left _ _) (attests.covers.join covers)) (inside.join _) ?_)
    exact Nat.le_of_eq ((Locals.size_of_shapes (Locals.shapes_join _ _)).trans cut).symm

/-- Going back to an earlier point and merging there with what was walked since. -/
theorem staysAbove_rejoin {β : Type} {next : (watch : Watch) → @Check watch β} [Stays Kept next]
    {before s : BodyState} (earlier : before.locals.InBounds) (inBounds : s.locals.InBounds)
    (grown : before.locals.size ≤ s.locals.size) :
    StaysAbove before.locals.size before.loans (fun watch => (do
      let after ← get
      set (rewind after before.locals before.loans)
      let _ ← mergePaths before.locals.size ⟨after.locals, after.loans, ended⟩ false
      next watch : @Check watch β)) s := by
  have met : StaysAbove before.locals.size s.loans (fun _ => mergePaths before.locals.size
      ⟨s.locals, s.loans, ended⟩ false) (rewind s before.locals before.loans) :=
    staysAbove_mergePaths earlier inBounds (Nat.le_refl _) grown
  exact StaysAbove.bind ((stays_at inBounds).above grown) (staysAbove_rewind met.followed)

mutual

theorem stays_expr : (e : Expr) → Stays later fun _ => expr ctx e
  | .unit | .bool _ | .u8 _ | .u64 _ | .u128 _ | .address _ | .var _ | .move _ | .copy _
  | .borrow _ _ => by
    unfold expr
    infer_instance
  | .borrowField mutable base field => by
    have inner := stays_expr base
    cases base <;> (unfold expr; infer_instance)
  | .freeze inner | .deref inner | .not inner | .signerAddress inner => by
    have operand := stays_expr inner
    unfold expr
    infer_instance
  | .pack struct fields => by
    have inner := stays_fieldValues fields
    unfold expr
    infer_instance
  | .call _ _ _ args | .vector _ args => by
    have inner := stays_exprs args
    unfold expr
    infer_instance
  | .binary op left right => by
    have leftStays := stays_expr left
    have rightStays := stays_expr right
    unfold expr
    refine @stays_ite _ _ _ _ _ _ _ _ ?_ inferInstance
    refine .bind fun leftOperand => { advances := fun s => ?_, same := rfl, stays :=
      fun before inBounds => ?_ }
    · simp only [bind_apply, get_apply, set_apply]
      exact later_after (later_after
        (later_around s (expr ctx right) (rec.quiet rfl rfl rfl) (rec.quiet rfl rfl rfl)))
    · have walked := rightStays.stays before inBounds
      exact staysAt_get inBounds
        (StaysAbove.bind walked (staysAbove_rejoin inBounds walked.inBounds walked.enough))
  | .moveTo struct signer value => by
    have signerStays := stays_expr signer
    have valueStays := stays_expr value
    unfold expr
    refine .bind fun signer => .bind fun value =>
      .bind fun tag => @stays_withOperand _ _ _ _ _ fun signer =>
        @stays_withOperand _ _ _ _ _ fun value => ?_
    split <;> infer_instance
  | .moveFrom struct addr | .borrowGlobal struct _ addr | .existsAt struct addr => by
    have inner := stays_expr addr
    unfold expr
    refine .bind fun operand => .bind fun tag =>
      @stays_withOperand _ _ _ _ _ fun value => ?_
    split <;> infer_instance

theorem stays_exprs : (es : List Expr) → Stays later fun _ => exprs ctx es
  | [] => by
    unfold exprs
    infer_instance
  | head :: tail => by
    have first := stays_expr head
    have rest := stays_exprs tail
    unfold exprs
    infer_instance

theorem stays_fieldValues : (fields : List (String × Expr)) → Stays later fun _ =>
    fieldValues ctx fields
  | [] => by
    unfold fieldValues
    infer_instance
  | (field, value) :: tail => by
    have first := stays_expr value
    have rest := stays_fieldValues tail
    unfold fieldValues
    infer_instance

end

attribute [instance] stays_expr stays_exprs stays_fieldValues

end Steps

end Check

end Custody
