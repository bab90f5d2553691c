import Mathlib.Logic.Relation
import Custody.Loans
/-!
# Ancestors of loans

The parents of a loan may run in circles, or name loans that have ended or are still to come. The
search looks at one loan after the other and passes over those it has found before, so each live
loan puts its parents on the list once, and the search comes to an end. All along, what it has found
or has still to look at is reached from the loans it started with, and the parents of what it has
found are found or on the list. When the list is empty, everything that is reached has been found.
-/

namespace Custody.Loans

open Relation

variable {loans : Loans} {ids : LoanSet} {id child parent : LoanId}

/-- The loan is live and was derived from the other one. -/
def Derives (loans : Loans) (child parent : LoanId) : Prop :=
  ∃ loan, loans.get? child = some loan ∧ parent ∈ loan.parents

theorem mem_parentsOf : parent ∈ loans.parentsOf child ↔ loans.Derives child parent := by
  cases live : loans.get? child with
  | none => simp [parentsOf, Derives, live]
  | some loan =>
    simp only [parentsOf, Derives, live, Option.some.injEq, exists_eq_left']
    rfl

/-- A chain of parents leads from one of the given loans to this one. -/
def Reached (loans : Loans) (ids : LoanSet) (id : LoanId) : Prop :=
  ∃ start ∈ ids, ReflTransGen loans.Derives start id

namespace Search

variable {search next : Search}

/-- The loan is found, or is on the list. -/
def Seen (search : Search) (id : LoanId) : Prop := id ∈ search.found ∨ id ∈ search.work

/-- What holds of a search for the ancestors of `ids` between two looks. -/
structure Searches (loans : Loans) (ids : LoanSet) (search : Search) : Prop where
  given : ∀ id ∈ ids, search.Seen id
  reached : ∀ id, search.Seen id → loans.Reached ids id
  parents : ∀ child ∈ search.found, ∀ parent, loans.Derives child parent → search.Seen parent

theorem searches_start (loans : Loans) (ids : LoanSet) :
    Searches loans ids { work := ids.toList.reverse } where
  given id given := .inr (List.mem_reverse.mpr given)
  reached id := by
    rintro (none | given)
    · exact absurd none (SortedSet.not_mem_empty id)
    · exact ⟨id, List.mem_reverse.mp given, .refl⟩
  parents child none := absurd none (SortedSet.not_mem_empty child)

theorem Searches.step (searches : Searches loans ids search)
    (taken : search.step loans = some next) : Searches loans ids next := by
  obtain ⟨found, _ | ⟨id, work⟩⟩ := search
  · cases taken
  simp only [Search.step] at taken
  split at taken
  · rename_i old
    rw [SortedSet.contains_iff] at old
    obtain rfl := Option.some.inj taken
    have seen (other : LoanId) : Seen ⟨found, work⟩ other ↔ Seen ⟨found, id :: work⟩ other := by
      by_cases same : other = id <;> simp [Seen, same, old]
    exact ⟨fun other given => (seen other).mpr (searches.given other given),
      fun other earlier => searches.reached other ((seen other).mp earlier),
      fun child earlier parent derives => (seen parent).mpr
      (searches.parents child earlier parent derives)⟩
  · obtain rfl := Option.some.inj taken
    have seen (other : LoanId) :
        Seen ⟨found.insert id, (loans.parentsOf id).reverse ++ work⟩ other ↔
        Seen ⟨found, id :: work⟩ other ∨ loans.Derives id other := by
      simp only [Seen, SortedSet.mem_insert, List.mem_append, List.mem_reverse, mem_parentsOf,
        List.mem_cons]
      grind
    refine ⟨fun other given => (seen other).mpr (.inl (searches.given other given)),
      fun other reached => ?_, fun child inside parent derives => (seen parent).mpr ?_⟩
    · rcases (seen other).mp reached with earlier | derives
      · exact searches.reached other earlier
      · obtain ⟨start, given, path⟩ := searches.reached id (.inr List.mem_cons_self)
        exact ⟨start, given, path.tail derives⟩
    · rcases SortedSet.mem_insert.mp inside with rfl | earlier
      · exact .inr derives
      · exact .inl (searches.parents child earlier parent derives)

/-- A search that is at its end has found what is reached. -/
theorem Searches.mem_found_iff (searches : Searches loans ids search)
    (ended : search.step loans = none) : id ∈ search.found ↔ loans.Reached ids id := by
  have empty : search.work = [] := by
    cases listed : search.work with
    | nil => rfl
    | cons id work =>
      simp only [Search.step, listed] at ended
      split at ended <;> cases ended
  have found {other : LoanId} (seen : search.Seen other) : other ∈ search.found :=
    seen.resolve_right (empty ▸ List.not_mem_nil)
  constructor
  · exact fun inside => searches.reached id (.inl inside)
  · rintro ⟨start, given, path⟩
    induction path with
    | refl => exact found (searches.given start given)
    | tail _ derives ih => exact found (searches.parents _ ih _ derives)

/-- The loop takes steps up to the end of the search, and answers with what is found there. -/
theorem exists_last (searches : Searches loans ids search) :
    ∃ last, ReflTransGen (fun before after => step loans before = some after) search last ∧
      last.step loans = none ∧ last.found = search.result loans ∧ Searches loans ids last := by
  fun_induction result loans search with
  | case1 search ended => exact ⟨search, .refl, ended, rfl, searches⟩
  | case2 search next taken ih =>
    obtain ⟨last, path, ended, found, kept⟩ := ih (searches.step taken)
    exact ⟨last, .head taken path, ended, found, kept⟩

end Search

theorem mem_ancestors_iff : id ∈ loans.ancestors ids ↔ loans.Reached ids id := by
  obtain ⟨last, _, ended, found, searches⟩ := Search.exists_last (Search.searches_start loans ids)
  rw [ancestors, ← found, searches.mem_found_iff ended]

/-- The search ends and is exact, whatever the parents are: loans in a circle, loans that have
ended, numbers not given out yet. Each look leaves less to look at. The looks that begin with the
given loans come to an end, and what is found there is what the search answers: exactly what the
given loans reach along parents of live loans. -/
theorem ancestor_search_ends (loans : Loans) (ids : LoanSet) :
    (∀ before after : Search, before.step loans = some after →
      after.left loans < before.left loans) ∧
    (∃ last : Search,
      ReflTransGen (fun before after => Search.step loans before = some after)
        { work := ids.toList.reverse } last ∧
      last.step loans = none ∧ last.found = loans.ancestors ids) ∧
    ∀ id, id ∈ loans.ancestors ids ↔ ∃ start ∈ ids, ReflTransGen loans.Derives start id := by
  refine ⟨fun _ _ taken => Search.left_lt_of_step taken, ?_, fun id => mem_ancestors_iff⟩
  obtain ⟨last, path, ended, found, _⟩ := Search.exists_last (Search.searches_start loans ids)
  exact ⟨last, path, ended, found⟩

end Custody.Loans
