import Custody.Place
import Custody.SortedSet
import Custody.Table
/-!
# Loans

A loan records that a place is borrowed, in which mode, and which loans it was derived from. A new
loan is refused while an overlapping loan excludes it, except where that loan is one of its own
ancestors: a field borrowed through a reference does not conflict with the borrow of the whole.
-/

namespace Custody

/-- Number of a loan; numbers are given out in increasing order. -/
abbrev LoanId := Nat

abbrev LoanSet := SortedSet LoanId

/-- A borrow that is in force. -/
structure Loan where
  place : Place
  mode : LoanMode
  /-- The loans this one was derived from. -/
  parents : LoanSet := ∅
deriving DecidableEq

/-- The loan stands in the way of an access to a place. -/
def Loan.blocks (loan : Loan) (place : Place) (mode : LoanMode) : Bool :=
  loan.place.overlaps place && loan.mode.conflictsWith mode

/-- The live loans, and the number the next one gets. -/
structure Loans where
  live : Table LoanId Loan := ∅
  next : LoanId := 0

namespace Loans

def get? (loans : Loans) (id : LoanId) : Option Loan := loans.live.get? id

def isEmpty (loans : Loans) : Bool := loans.live.isEmpty

variable (loans : Loans)

/-- The loans that a live loan was derived from; none where no live loan has the number. -/
def parentsOf (id : LoanId) : List LoanId :=
  match loans.get? id with
  | some loan => loan.parents.toList
  | none => []

/-- A search for ancestors: what it has found, and what it still has to look at, the next loan
first. -/
structure Search where
  found : LoanSet := ∅
  work : List LoanId

namespace Search

/-- Look at one loan. A loan that was found before is passed over; another one is noted, and what it
was derived from is put in front of the rest. -/
def step (search : Search) : Option Search :=
  match search.work with
  | [] => none
  | id :: work =>
    if search.found.contains id then some { search with work }
    else some ⟨search.found.insert id, (loans.parentsOf id).reverse ++ work⟩

/-- Number of parents of the loans that are not found yet. -/
def unlisted (found : LoanSet) : List (LoanId × Loan) → Nat
  | [] => 0
  | (id, loan) :: rest => (if found.contains id then 0 else loan.parents.size) + unlisted found rest

/-- How many loans the search looks at from here on, at most: those on the list, and the parents
that live loans may still put there. -/
def left (search : Search) : Nat := search.work.length + unlisted search.found loans.live.entries

section Ends

variable {loans : Loans} {search next : Search} {found : LoanSet} {id : LoanId} {loan : Loan}

theorem unlisted_insert_le (found : LoanSet) (id : LoanId) (entries : List (LoanId × Loan)) :
    unlisted (found.insert id) entries ≤ unlisted found entries := by
  induction entries with
  | nil => exact Nat.le_refl 0
  | cons entry rest ih =>
    refine Nat.add_le_add ?_ ih
    by_cases old : entry.1 ∈ found <;> by_cases same : entry.1 = id <;> simp [old, same]

/-- The parents that a loan puts on the list are not waiting any more. -/
theorem size_add_unlisted_insert_le {entries : List (LoanId × Loan)}
    (fresh : ¬ found.contains id = true)
    (live : (id, loan) ∈ entries) :
    loan.parents.size + unlisted (found.insert id) entries ≤ unlisted found entries := by
  induction entries with
  | nil => cases live
  | cons entry rest ih =>
    rcases List.mem_cons.mp live with rfl | later
    · have others := unlisted_insert_le found id rest
      simp only [unlisted, if_neg fresh, SortedSet.contains_iff, SortedSet.mem_insert, true_or,
        if_true]
      omega
    · have here := unlisted_insert_le found id [entry]
      have others := ih later
      simp only [unlisted] at here ⊢
      omega

/-- A loan that is looked at leaves less to look at. -/
theorem left_lt_of_step (taken : search.step loans = some next) :
    next.left loans < search.left loans := by
  obtain ⟨found, _ | ⟨id, work⟩⟩ := search
  · cases taken
  simp only [step] at taken
  split at taken
  · obtain rfl := Option.some.inj taken
    simp only [left, List.length_cons]
    omega
  · rename_i fresh
    obtain rfl := Option.some.inj taken
    simp only [left, List.length_append, List.length_reverse, List.length_cons]
    cases live : loans.get? id with
    | none =>
      have := unlisted_insert_le found id loans.live.entries
      simp only [parentsOf, live, List.length_nil]
      omega
    | some loan =>
      have := size_add_unlisted_insert_le fresh (Table.mem_entries_of_get? live)
      simp only [parentsOf, live, SortedSet.size] at this ⊢
      omega

end Ends

/-- Look at one loan after the other until none is left. -/
def result (search : Search) : LoanSet :=
  match _taken : search.step loans with
  | none => search.found
  | some next => next.result
termination_by search.left loans
decreasing_by exact left_lt_of_step _taken

end Search

/-- The given loans and everything they were derived from. -/
def ancestors (ids : LoanSet) : LoanSet := Search.result loans { work := ids.toList.reverse }

/-- The first live loan, in the order of numbers, that stands in the way of an access. -/
def conflicting? (place : Place) (mode : LoanMode) : Option Loan :=
  loans.live.values.find? (·.blocks place mode)

/-- As `conflicting?`, for an access through a reference: what the reference holds and its ancestors
do not stand in its way. -/
def conflictingAccess? (place : Place) (mode : LoanMode) (held : LoanSet) : Option Loan :=
  let own := loans.ancestors held
  (loans.live.entries.find? fun entry => !own.contains entry.1 && entry.2.blocks place mode).map
    (·.2)

/-- Record a loan without asking; for what reference parameters point at, which the caller keeps
free of conflicts. -/
def insert (loans : Loans) (loan : Loan) : LoanId × Loans :=
  (loans.next, { live := loans.live.insert loans.next loan, next := loans.next + 1 })

/-- Record a loan, or answer with the first one that excludes it. -/
def grant (loan : Loan) : Except Loan (LoanId × Loans) :=
  match loans.conflictingAccess? loan.place loan.mode loan.parents with
  | some existing => .error existing
  | none => .ok (loans.insert loan)

def release (id : LoanId) : Loans := { loans with live := loans.live.erase id }

/-- Keep the given loans only. -/
def retain (held : LoanSet) : Loans :=
  { loans with live := loans.live.filter fun id _ => held.contains id }

/-- Give out no number that the other table may have given out. -/
def continueFrom (other : Loans) : Loans := { loans with next := max loans.next other.next }

/-- The loans live along either of two paths. -/
def join (other : Loans) : Loans :=
  let merged := other.live.entries.foldl
    (fun (table : Table LoanId Loan) entry =>
      if table.contains entry.1 then table else table.insert entry.1 entry.2)
    loans.live
  { live := merged, next := max loans.next other.next }

end Loans

end Custody
