import Custody.Name
import Custody.SortedSet
import Custody.Table
/-!
# Storage reached by functions

A function reaches the structs it takes out of storage or borrows there, and all that the functions
it calls reach. The sets are grown along calls, round by round, until a round leaves every set at
its size. The sets change while a round goes over them. Looked at for one struct, a round that
changes no size leaves a set that is closed under calls; a round that changes one finds a function
that was not known to reach the struct before, and there are not more of them than functions.
-/

namespace List

/-- Fewer items pass a stronger test if one of them passes only the weaker. -/
theorem countP_lt_countP_of_imp {α : Type} {strong weak : α → Bool} {items : List α} {item : α}
    (implies : ∀ item ∈ items, strong item = true → weak item = true) (listed : item ∈ items)
    (passes : weak item = true) (fails : ¬ strong item = true) :
    items.countP strong < items.countP weak := by
  induction items with
  | nil => cases listed
  | cons head tail ih =>
    have implies' : ∀ item ∈ tail, strong item = true → weak item = true :=
      fun item later => implies item (mem_cons_of_mem _ later)
    rcases mem_cons.mp listed with rfl | later
    · rw [countP_cons_of_neg fails, countP_cons_of_pos passes]
      exact Nat.lt_succ_of_le (countP_mono_left implies')
    · have fewer := ih implies' later
      by_cases here : strong head = true
      · rw [countP_cons_of_pos here, countP_cons_of_pos (implies head mem_cons_self here)]
        exact Nat.succ_lt_succ fewer
      · rw [countP_cons_of_neg here, countP_cons]
        exact Nat.lt_add_right _ fewer

end List

namespace Custody

/-- What one function body does by itself. -/
structure Access where
  /-- Structs taken out of storage or borrowed there. -/
  direct : SortedSet StructId := ∅
  calls : SortedSet FunctionId := ∅

namespace Access

/-- For each function what it is known to reach. -/
abbrev Reach := Table FunctionId (SortedSet StructId)

/-- What the functions of a list are known to reach together. -/
def reachOf (reach : Reach) (callees : List FunctionId) : SortedSet StructId :=
  callees.foldl
    (fun set callee =>
      match reach.get? callee with
      | some reached => set.union reached
      | none => set)
    ∅

/-- Add to one function's set what its callees reach. -/
def grow (reach : Reach) (entry : FunctionId × Access) : Reach :=
  match reach.get? entry.1 with
  | some own => reach.insert entry.1 (own.union (reachOf reach entry.2.calls.toList))
  | none => reach

/-- How many structs the function is known to reach. -/
def sizeAt (reach : Reach) (id : FunctionId) : Option Nat := (reach.get? id).map (·.size)

/-- The turn of one function in a round; it is noted if the size of its set changes. -/
def turn (state : Reach × Bool) (entry : FunctionId × Access) : Reach × Bool :=
  let grown := grow state.1 entry
  (grown, state.2 || decide (sizeAt grown entry.1 ≠ sizeAt state.1 entry.1))

/-- One round over all functions, in the order of their names, and whether it changed a size. -/
def round (accesses : Table FunctionId Access) (reach : Reach) : Reach × Bool :=
  accesses.entries.foldl turn (reach, false)

/-- What each function reaches by itself. -/
def ownReach (accesses : Table FunctionId Access) : Reach := accesses.rewrite fun _ access =>
    access.direct

/-! ## One struct at a time -/

/-- The function is known to reach the struct. -/
def knows (struct : StructId) (reach : Reach) (id : FunctionId) : Bool :=
  (reach.get? id).any (·.contains struct)

section Rounds

variable {reach : Reach} {id : FunctionId} {struct : StructId} {entry : FunctionId × Access}
  {entries : List (FunctionId × Access)}

theorem knows_iff : knows struct reach id = true ↔ ∃ set, reach.get? id = some set ∧
    struct ∈ set := by
  simp [knows, Option.any_eq_true]

theorem mem_reachOf {callees : List FunctionId} :
    struct ∈ reachOf reach callees ↔ ∃ callee ∈ callees, knows struct reach callee = true := by
  unfold reachOf
  rw [SortedSet.mem_foldl_of_adds, or_iff_right (SortedSet.not_mem_empty struct)]
  intro set callee
  cases found : reach.get? callee <;> simp [knows, found]

/-- Growing a set changes the set of one function, and by what its callees reach. -/
theorem knows_grow :
    knows struct (grow reach entry) id = true ↔ knows struct reach id = true ∨
      id = entry.1 ∧ (reach.get? id).isSome = true ∧
        ∃ callee ∈ entry.2.calls, knows struct reach callee = true := by
  cases found : reach.get? entry.1 with
  | none =>
    have unchanged : grow reach entry = reach := by simp [grow, found]
    rw [unchanged]
    constructor
    · exact Or.inl
    · rintro (known | ⟨rfl, present, _⟩)
      · exact known
      · simp [found] at present
  | some own =>
    have grown : grow reach entry =
        reach.insert entry.1 (own.union (reachOf reach entry.2.calls.toList)) := by
      simp [grow, found]
    by_cases same : id = entry.1
    · subst same
      simp only [knows_iff, grown, Table.get?_insert, if_true, Option.some.injEq, exists_eq_left',
        SortedSet.mem_union, mem_reachOf, found, Option.isSome_some, true_and]
      rfl
    · simp [knows_iff, grown, same]

theorem isSome_grow : ((grow reach entry).get? id).isSome = (reach.get? id).isSome := by
  cases found : reach.get? entry.1 with
  | none => simp [grow, found]
  | some own =>
    by_cases same : id = entry.1
    · simp [grow, same, found]
    · simp [grow, found, same]

theorem knows_foldl_grow (entries : List (FunctionId × Access))
    (known : knows struct reach id = true) : knows struct (entries.foldl grow reach) id = true := by
  induction entries generalizing reach with
  | nil => exact known
  | cons entry rest ih => exact ih (knows_grow.mpr (.inl known))

theorem isSome_foldl_grow (entries : List (FunctionId × Access)) :
    ((entries.foldl grow reach).get? id).isSome = (reach.get? id).isSome := by
  induction entries generalizing reach with
  | nil => rfl
  | cons entry rest ih => exact ih.trans isSome_grow

/-! ## Rounds that change nothing -/

/-- Who calls a function that reaches the struct is known to reach it. -/
def Closed (struct : StructId) (entries : List (FunctionId × Access)) (reach : Reach) : Prop :=
  ∀ entry ∈ entries, (reach.get? entry.1).isSome = true →
    ∀ callee ∈ entry.2.calls, knows struct reach callee = true → knows struct reach entry.1 = true

theorem Closed.congr {reach' : Reach} (closed : Closed struct entries reach)
    (same : ∀ id, knows struct reach' id = true ↔ knows struct reach id = true)
    (present : ∀ id, (reach'.get? id).isSome = (reach.get? id).isSome) :
    Closed struct entries reach' := by
  intro entry listed there callee called known
  rw [present] at there
  exact (same _).mpr (closed entry listed there callee called ((same _).mp known))

/-- A round over a closed set adds nothing. -/
theorem Closed.knows_foldl (closed : Closed struct entries reach) :
    knows struct (entries.foldl grow reach) id = true ↔ knows struct reach id = true := by
  induction entries generalizing reach with
  | nil => rfl
  | cons entry rest ih =>
    have same : ∀ id, knows struct (grow reach entry) id = true ↔ knows struct reach id = true := by
      intro id
      rw [knows_grow, or_iff_left_iff_imp]
      rintro ⟨rfl, present, callee, called, known⟩
      exact closed entry List.mem_cons_self present callee called known
    have closed' : Closed struct rest (grow reach entry) :=
      Closed.congr (fun other listed => closed other (List.mem_cons_of_mem _ listed)) same
        fun _ => isSome_grow
    exact (ih closed').trans (same id)

/-- A round that adds nothing leaves a closed set. -/
theorem closed_of_unchanged (unchanged : ∀ id, knows struct (entries.foldl grow reach) id = true →
      knows struct reach id = true) : Closed struct entries reach := by
  induction entries generalizing reach with
  | nil => simp [Closed]
  | cons entry rest ih =>
    have same : ∀ id, knows struct (grow reach entry) id = true ↔ knows struct reach id = true :=
      fun id => ⟨fun known => unchanged id (knows_foldl_grow rest known),
        fun known => knows_grow.mpr (.inl known)⟩
    have closed : Closed struct rest (grow reach entry) :=
      ih fun id known => (same id).mpr (unchanged id known)
    intro other listed present callee called known
    rcases List.mem_cons.mp listed with rfl | listed
    · exact (same _).mp (knows_grow.mpr (.inr ⟨rfl, present, callee, called, known⟩))
    · exact closed.congr (fun id => (same id).symm) (fun _ => isSome_grow.symm) other listed present
        callee called known

/-- A turn leaves the set of its function at its size if the function knows what its callees
know. -/
theorem sizeAt_grow_iff :
    sizeAt (grow reach entry) entry.1 = sizeAt reach entry.1 ↔ ∀ struct, Closed struct
    [entry] reach := by
  cases found : reach.get? entry.1 with
  | none => simp [grow, sizeAt, Closed, found]
  | some own =>
    have grown : sizeAt (grow reach entry) entry.1 =
        some (own.union (reachOf reach entry.2.calls.toList)).size := by
      simp [grow, sizeAt, found]
    have knowsOwn : ∀ struct, knows struct reach entry.1 = true ↔ struct ∈ own := by
      simp [knows_iff, found]
    rw [grown, sizeAt, found, Option.map_some, Option.some.injEq, SortedSet.size_union_eq_iff]
    constructor
    · intro within struct other listed _ callee called known
      obtain rfl := List.mem_singleton.mp listed
      exact (knowsOwn struct).mpr (within struct (mem_reachOf.mpr ⟨callee, called, known⟩))
    · intro closed struct added
      obtain ⟨callee, called, known⟩ := mem_reachOf.mp added
      exact (knowsOwn struct).mp (closed struct entry (List.mem_singleton_self entry)
        (by rw [found]; rfl) callee called known)

theorem foldl_turn_fst (entries : List (FunctionId × Access)) (state : Reach × Bool) :
    (entries.foldl turn state).1 = entries.foldl grow state.1 := by
  induction entries generalizing state with
  | nil => rfl
  | cons entry rest ih => exact ih (turn state entry)

theorem foldl_turn_snd_of_changed (entries : List (FunctionId × Access)) (reach : Reach) :
    (entries.foldl turn (reach, true)).2 = true := by
  induction entries generalizing reach with
  | nil => rfl
  | cons entry rest ih => exact ih (grow reach entry)

/-- A turn whose function knows what its callees know changes nothing for the others. -/
theorem closed_grow_iff (still : Closed struct [entry] reach) :
    Closed struct entries (grow reach entry) ↔ Closed struct entries reach := by
  have same : ∀ id, knows struct (grow reach entry) id = true ↔ knows struct reach id = true :=
    fun _ => still.knows_foldl
  exact ⟨fun closed => closed.congr (fun id => (same id).symm) fun _ => isSome_grow.symm,
    fun closed => closed.congr same fun _ => isSome_grow⟩

/-- A round notes no change exactly if the sets were closed before it. -/
theorem foldl_turn_snd_iff (reach : Reach) (entries : List (FunctionId × Access)) :
    (entries.foldl turn (reach, false)).2 = false ↔ ∀ struct, Closed struct entries reach := by
  induction entries generalizing reach with
  | nil => simp [Closed]
  | cons entry rest ih =>
    have split : ∀ struct, Closed struct (entry :: rest) reach ↔
        Closed struct [entry] reach ∧ Closed struct rest reach := by
      simp [Closed]
    by_cases still : ∀ struct, Closed struct [entry] reach
    · have next : turn (reach, false) entry = (grow reach entry, false) := by
        simp [turn, sizeAt_grow_iff.mpr still]
      rw [List.foldl_cons, next, ih]
      refine forall_congr' fun struct => ?_
      rw [split, closed_grow_iff (still struct), and_iff_right (still struct)]
    · have next : turn (reach, false) entry = (grow reach entry, true) := by
        simp [turn, mt sizeAt_grow_iff.mp still]
      rw [List.foldl_cons, next, foldl_turn_snd_of_changed]
      simp only [Bool.true_eq_false, false_iff]
      exact fun closed => still fun struct => ((split struct).mp (closed struct)).1

section Noted

variable {accesses : Table FunctionId Access} {grown : Reach}

theorem eq_foldl_of_round {changed : Bool} (noted : round accesses reach = (grown, changed)) :
    accesses.entries.foldl grow reach = grown :=
  (foldl_turn_fst _ (reach, false)).symm.trans (congrArg Prod.fst noted)

theorem closed_of_round (noted : round accesses reach = (grown, false)) (struct : StructId) :
    Closed struct accesses.entries reach :=
  (foldl_turn_snd_iff _ _).mp (congrArg Prod.snd noted) struct

end Noted

/-! ## Rounds come to an end -/

/-- What the functions are known to reach, taken together. -/
def pool (reach : Reach) : SortedSet StructId := reachOf reach reach.keys

theorem mem_pool : struct ∈ pool reach ↔ ∃ id, knows struct reach id = true := by
  rw [pool, mem_reachOf]
  constructor
  · exact fun ⟨id, _, known⟩ => ⟨id, known⟩
  · rintro ⟨id, known⟩
    obtain ⟨set, found, _⟩ := knows_iff.mp known
    exact ⟨id, Table.mem_keys_of_get? found, known⟩

/-- A round finds only structs that some function was known to reach. -/
theorem mem_pool_of_knows_foldl (known : knows struct (entries.foldl grow reach) id = true) :
    struct ∈ pool reach := by
  induction entries generalizing reach with
  | nil => exact mem_pool.mpr ⟨id, known⟩
  | cons entry rest ih =>
    obtain ⟨other, known⟩ := mem_pool.mp (ih known)
    rcases knows_grow.mp known with earlier | ⟨_, _, callee, _, earlier⟩
    · exact mem_pool.mpr ⟨other, earlier⟩
    · exact mem_pool.mpr ⟨callee, earlier⟩

theorem pool_foldl_grow : pool (entries.foldl grow reach) = pool reach := by
  refine SortedSet.ext_mem fun struct => ⟨fun inside => ?_, fun inside => ?_⟩
  · obtain ⟨id, known⟩ := mem_pool.mp inside
    exact mem_pool_of_knows_foldl known
  · obtain ⟨id, known⟩ := mem_pool.mp inside
    exact mem_pool.mpr ⟨id, knows_foldl_grow entries known⟩

/-- Only the functions that have their turn in a round find something out. -/
theorem mem_of_knows_foldl (known : knows struct (entries.foldl grow reach) id = true)
    (new : ¬ knows struct reach id = true) : id ∈ entries.map (·.1) := by
  induction entries generalizing reach with
  | nil => exact absurd known new
  | cons entry rest ih =>
    by_cases here : knows struct (grow reach entry) id = true
    · rcases knows_grow.mp here with earlier | ⟨same, _⟩
      · exact absurd earlier new
      · exact List.mem_cons.mpr (.inl same)
    · exact List.mem_cons_of_mem _ (ih known here)

/-- How many pairs of a function and a struct are left to find. -/
def left (accesses : Table FunctionId Access) (reach : Reach) : Nat :=
  (accesses.keys.flatMap fun id => (pool reach).toList.map (id, ·)).countP
    fun pair => !knows pair.2 reach pair.1

/-- A round that changes a size leaves less to find. -/
theorem left_lt_of_round {accesses : Table FunctionId Access} {grown : Reach}
    (changed : round accesses reach = (grown, true)) :
    left accesses grown < left accesses reach := by
  obtain rfl := eq_foldl_of_round changed
  have found : ∃ struct id, knows struct (accesses.entries.foldl grow reach) id = true ∧
      ¬ knows struct reach id = true := by
    refine Classical.byContradiction fun none => ?_
    have closed : ∀ struct, Closed struct accesses.entries reach := fun struct =>
      closed_of_unchanged fun id known => Classical.byContradiction fun new =>
        none ⟨struct, id, known, new⟩
    cases ((foldl_turn_snd_iff _ _).mpr closed).symm.trans (congrArg Prod.snd changed)
  obtain ⟨struct, id, known, new⟩ := found
  rw [left, left, pool_foldl_grow]
  have listed : (id, struct) ∈ accesses.keys.flatMap fun id => (pool reach).toList.map (id, ·) :=
    List.mem_flatMap.mpr ⟨id, mem_of_knows_foldl known new,
      List.mem_map.mpr ⟨struct, mem_pool_of_knows_foldl known, rfl⟩⟩
  refine List.countP_lt_countP_of_imp (fun pair _ unknown => ?_) listed (by simp [new])
    (by simp [known])
  simp only [Bool.not_eq_true'] at unknown ⊢
  exact Bool.eq_false_iff.mpr fun earlier =>
    absurd (knows_foldl_grow _ earlier) (Bool.eq_false_iff.mp unknown)

end Rounds

/-- Rounds until one changes no size. -/
def settle (accesses : Table FunctionId Access) (reach : Reach) : Reach :=
  match _noted : round accesses reach with
  | (grown, true) => settle accesses grown
  | (grown, false) => grown
termination_by left accesses reach
decreasing_by exact left_lt_of_round _noted

/-- The structs each function reaches, itself or through calls. -/
def closure (accesses : Table FunctionId Access) : Reach := settle accesses (ownReach accesses)

end Access

end Custody
