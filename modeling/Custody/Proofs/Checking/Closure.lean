import Mathlib.Logic.Relation
import Mathlib.Order.Monotone.Basic
import Custody.Proofs.Checking.Reach
/-!
# Reached structs are those behind a chain of calls

What a function finds out in a round depends on who had its turn before. In the end it does not
matter. Whatever is in a set is there because of a chain of calls, and a round that changes no size
leaves sets that are closed under calls, so they have everything that such a chain leads to. Looked
at for one struct, each round before the set is closed adds at least one function to those known to
reach it. So a round that changes nothing comes at the latest behind as many others as there are
functions, whether calls run in circles or leave the table, and in whatever order each round goes
over the functions.
-/

namespace Custody.Access

variable {accesses : Table FunctionId Access} {struct : StructId} {id : FunctionId}
  {access : Access} {motive : FunctionId → Prop} {count : Nat}

/-! ## Chains of calls -/

/-- The function is in the table and calls the other one. -/
def Calls (accesses : Table FunctionId Access) (caller callee : FunctionId) : Prop :=
  ∃ access, accesses.get? caller = some access ∧ callee ∈ access.calls

/-- A chain of calls leads from the function to one in the table that reaches the struct by
itself. -/
def Reaches (accesses : Table FunctionId Access) (struct : StructId) (id : FunctionId) : Prop :=
  ∃ last access, Relation.ReflTransGen (Calls accesses) id last ∧
    accesses.get? last = some access ∧ struct ∈ access.direct

theorem reaches_of_direct (entry : FunctionId × Access) (listed : entry ∈ accesses.entries)
    (reaches : struct ∈ entry.2.direct) : Reaches accesses struct entry.1 :=
  ⟨entry.1, entry.2, .refl, Table.get?_of_mem listed, reaches⟩

theorem Reaches.of_call (entry : FunctionId × Access) (listed : entry ∈ accesses.entries)
    (callee : FunctionId) (called : callee ∈ entry.2.calls) :
    Reaches accesses struct callee → Reaches accesses struct entry.1
  | ⟨last, access, chain, found, reaches⟩ =>
    ⟨last, access, .head ⟨entry.2, Table.get?_of_mem listed, called⟩ chain, found, reaches⟩

/-- What holds of the functions that reach the struct by themselves, and is passed on to callers,
holds along chains of calls. -/
theorem Reaches.induction (reaches : Reaches accesses struct id)
    (own : ∀ {id access}, accesses.get? id = some access → struct ∈ access.direct → motive id)
    (call : ∀ {id access callee}, accesses.get? id = some access → callee ∈ access.calls →
      motive callee → motive id) : motive id := by
  obtain ⟨last, access, chain, found, direct⟩ := reaches
  induction chain using Relation.ReflTransGen.head_induction_on with
  | refl => exact own found direct
  | head step _ ih =>
    obtain ⟨_, present, called⟩ := step
    exact call present called ih

/-- The closure knows what chains of calls lead to. -/
theorem knows_closure_iff : knows struct (closure accesses) id = true ↔ Reaches accesses
    struct id :=
  ⟨of_knows_closure reaches_of_direct Reaches.of_call,
    fun reaches => reaches.induction knows_closure_of_direct knows_closure_of_call⟩

/-! ## Rounds in any order -/

/-- Closedness does not depend on the order of the functions. -/
theorem Closed.perm {entries others : List (FunctionId × Access)} {reach : Reach}
    (closed : Closed struct entries reach) (perm : others.Perm entries) :
    Closed struct others reach :=
  fun entry listed => closed entry (perm.mem_iff.mp listed)

/-- For every round an order in which it goes over the functions. -/
structure Schedule (accesses : Table FunctionId Access) where
  order : Nat → List (FunctionId × Access)
  perm : ∀ count, (order count).Perm accesses.entries

namespace Schedule

/-- The sets after a number of rounds. -/
def after (schedule : Schedule accesses) : Nat → Reach
  | 0 => ownReach accesses
  | count + 1 => (schedule.order count).foldl grow (schedule.after count)

variable (schedule : Schedule accesses)

theorem isSome_after (count : Nat) (id : FunctionId) :
    ((schedule.after count).get? id).isSome = (accesses.get? id).isSome := by
  induction count with
  | zero => rw [after, get?_ownReach, Option.isSome_map]
  | succ count ih => exact (isSome_foldl_grow _).trans ih

/-- How many functions are known to reach the struct after some rounds. -/
def knowing (struct : StructId) (count : Nat) : Nat :=
  accesses.keys.countP (knows struct (schedule.after count))

theorem monotone_knowing : Monotone (schedule.knowing struct) :=
  monotone_nat_of_le_succ fun _ => List.countP_mono_left fun _ _ known => knows_foldl_grow _ known

/-- While the number of functions stays the same, the set is closed. -/
theorem closed_of_knowing
    (same : schedule.knowing struct count = schedule.knowing struct (count + 1)) :
    Closed struct (schedule.order count) (schedule.after count) := by
  refine closed_of_unchanged fun id known => ?_
  have listed : id ∈ accesses.keys := by
    obtain ⟨set, found, _⟩ := knows_iff.mp known
    have present := (isSome_foldl_grow _).symm.trans (Option.isSome_of_eq_some found)
    rw [isSome_after] at present
    obtain ⟨access, there⟩ := Option.isSome_iff_exists.mp present
    exact Table.mem_keys_of_get? there
  by_contra new
  exact absurd same (Nat.ne_of_lt (List.countP_lt_countP_of_imp
    (fun id _ earlier => knows_foldl_grow _ earlier) listed known new))

/-- A set that is closed before a round is closed behind it, whatever the order of the rounds. -/
theorem closed_succ (closed : Closed struct accesses.entries (schedule.after count)) :
    Closed struct accesses.entries (schedule.after (count + 1)) :=
  (closed.perm (schedule.perm count)).foldl_grow.perm (schedule.perm count).symm

/-- As many rounds as there are functions close every set. -/
theorem closed_after (struct : StructId) (enough : accesses.size ≤ count) :
    Closed struct accesses.entries (schedule.after count) := by
  have settles : ∀ count, accesses.size ≤ count →
      schedule.knowing struct count = schedule.knowing struct accesses.size := by
    refine fun count => Nat.stabilises_of_monotone schedule.monotone_knowing (fun count => ?_)
      (fun count same => ?_)
    · exact List.countP_le_length.trans (Nat.le_of_eq (List.length_map _))
    · have closed := (schedule.closed_of_knowing same).perm (schedule.perm count).symm
      have once := (schedule.closed_succ closed).perm (schedule.perm (count + 1))
      exact List.countP_congr fun id _ => once.knows_foldl.symm
  have same := (settles count enough).trans (settles (count + 1) (Nat.le_succ_of_le enough)).symm
  exact (schedule.closed_of_knowing same).perm (schedule.perm count).symm

theorem knows_after_of_direct {id : FunctionId} (found : accesses.get? id = some access)
    (reaches : struct ∈ access.direct) (count : Nat) :
    knows struct (schedule.after count) id = true := by
  induction count with
  | zero => exact knows_ownReach.mpr ⟨access, found, reaches⟩
  | succ count ih => exact knows_foldl_grow _ ih

/-- After any number of rounds only chains of calls are known; where the set is closed, all are. -/
theorem knows_after_iff (closed : Closed struct accesses.entries (schedule.after count)) :
    knows struct (schedule.after count) id = true ↔ Reaches accesses struct id := by
  constructor
  · clear closed
    induction count generalizing id with
    | zero =>
      intro known
      obtain ⟨access, found, reaches⟩ := knows_ownReach.mp known
      exact ⟨id, access, .refl, found, reaches⟩
    | succ count ih =>
      exact of_knows_foldl_grow (fun _ => ih) (fun entry listed =>
        Reaches.of_call entry ((schedule.perm count).mem_iff.mp listed)) id
  · intro reaches
    refine reaches.induction
      (fun found direct => schedule.knows_after_of_direct found direct count) ?_
    intro caller own callee present called known
    refine closed (caller, own) (Table.mem_entries_of_get? present) ?_ callee called known
    rw [schedule.isSome_after, present]
    rfl

/-- Closed sets are those of the closure, whatever the rounds that led to them. -/
theorem after_eq_closure
    (closed : ∀ struct, Closed struct accesses.entries (schedule.after count)) :
    schedule.after count = closure accesses := by
  refine Table.ext_get? fun id => ?_
  have present : ((schedule.after count).get? id).isSome = ((closure accesses).get? id).isSome := by
    rw [isSome_after, isSome_closure]
  have same (struct : StructId) : knows struct (schedule.after count) id = true ↔
      knows struct (closure accesses) id = true :=
    (schedule.knows_after_iff (closed struct)).trans knows_closure_iff.symm
  cases found : (schedule.after count).get? id with
  | none =>
    rw [found] at present
    exact (Option.isSome_eq_false_iff.mp present.symm |> Option.isNone_iff_eq_none.mp).symm
  | some set =>
    rw [found] at present
    obtain ⟨set', found'⟩ := Option.isSome_iff_exists.mp present.symm
    rw [found']
    refine congrArg some (SortedSet.ext_mem fun struct => ?_)
    simpa [knows_iff, found, found'] using same struct

/-- Rounds until one changes no size. There is no answer if that takes more rounds than allowed. -/
def search (schedule : Schedule accesses) : (limit count : Nat) → Reach → Option Reach
  | 0, _, _ => none
  | limit + 1, count, reach =>
    let result := (schedule.order count).foldl turn (reach, false)
    if result.2 then schedule.search limit (count + 1) result.1 else some result.1

/-- The search ends, at the latest in the round behind as many others as there are functions. -/
theorem search_after (limit : Nat) : ∀ count, count ≤ accesses.size → accesses.size <
    count + limit → schedule.search limit count (schedule.after count) = some
    (closure accesses) := by
  induction limit with
  | zero =>
    intro count within enough
    omega
  | succ limit ih =>
    intro count within enough
    have next : ((schedule.order count).foldl turn (schedule.after count, false)).1 =
        schedule.after (count + 1) := foldl_turn_fst _ _
    have noted := foldl_turn_snd_iff (schedule.after count) (schedule.order count)
    cases changed : ((schedule.order count).foldl turn (schedule.after count, false)).2 with
    | false =>
      have closed : ∀ struct, Closed struct accesses.entries (schedule.after count) :=
        fun struct => (noted.mp changed struct).perm (schedule.perm count).symm
      rw [search]
      simp only [changed, Bool.false_eq_true, if_false, next]
      rw [schedule.after_eq_closure fun struct => schedule.closed_succ (closed struct)]
    | true =>
      have earlier : count ≠ accesses.size := by
        rintro rfl
        have still := noted.mpr fun struct =>
          (schedule.closed_after struct (Nat.le_refl _)).perm (schedule.perm accesses.size)
        rw [changed] at still
        cases still
      rw [search]
      simp only [changed, if_true, next]
      exact ih (count + 1) (by omega) (by omega)

end Schedule

/-- The closure is reachability. It has a set for every function in the table, and a struct is in
that set if and only if a chain of calls through functions in the table leads to one that reaches
the struct by itself, whatever the calls are: in circles, of a function to itself or to one that the
table does not have. The search that repeats its rounds until one changes no size ends with it after
at most one round more than there are functions, in whatever order each round goes over them. -/
theorem closure_is_reachability (accesses : Table FunctionId Access) :
    (∀ id, ((closure accesses).get? id).isSome = (accesses.get? id).isSome) ∧
    (∀ id struct, (∃ set, (closure accesses).get? id = some set ∧ struct ∈ set) ↔
      Reaches accesses struct id) ∧
    ∀ (schedule : Schedule accesses) (limit : Nat), accesses.size < limit →
      schedule.search limit 0 (ownReach accesses) = some (closure accesses) := by
  refine ⟨isSome_closure, fun id struct => knows_iff.symm.trans knows_closure_iff, ?search⟩
  case search =>
    intro schedule limit enough
    exact schedule.search_after limit 0 (Nat.zero_le _) (by omega)

/-- Two functions that call each other, one of them also itself and a function of the host, and one
that calls the first of them. -/
def circle : List (FunctionId × Access) := [
  (⟨"Ring", "even"⟩, { direct := .ofList [⟨"Ring", "A"⟩], calls := .ofList [⟨"Ring", "odd"⟩] }),
  (⟨"Ring", "odd"⟩,
    { direct := .ofList [⟨"Ring", "B"⟩]
      calls := .ofList [⟨"Ring", "even"⟩, ⟨"Ring", "odd"⟩, ⟨"Host", "log"⟩] }),
  (⟨"Ring", "start"⟩, { calls := .ofList [⟨"Ring", "even"⟩] })]

/-- Every other round goes over the functions backwards. -/
def swinging : Schedule (.ofList circle) where
  order count := if count % 2 = 0 then (Table.ofList circle).entries.reverse else
    (Table.ofList circle).entries
  perm count := by
    split
    · exact List.reverse_perm _
    · exact .refl _

theorem circle_closure_is_reachability :
    (∃ set, (closure (.ofList circle)).get? ⟨"Ring", "start"⟩ = some set ∧ ⟨"Ring", "B"⟩ ∈ set) ∧
      swinging.search 4 0 (ownReach (.ofList circle)) = some (closure (.ofList circle)) := by
  have distinct : (circle.map (·.1)).Nodup := by decide
  obtain ⟨_, reachable, search⟩ := closure_is_reachability (.ofList circle)
  refine ⟨(reachable _ _).mpr ?_, search swinging 4 (by decide +kernel)⟩
  have start := Table.get?_ofList_of_mem distinct (.tail _ (.tail _ (.head _)))
  have even := Table.get?_ofList_of_mem distinct (.head _)
  have odd := Table.get?_ofList_of_mem distinct (.tail _ (.head _))
  exact ⟨_, _, .head ⟨_, start, SortedSet.mem_ofList.mpr (.head _)⟩
    (.head ⟨_, even, SortedSet.mem_ofList.mpr (.head _)⟩ .refl), odd,
    SortedSet.mem_ofList.mpr (.head _)⟩

end Custody.Access
