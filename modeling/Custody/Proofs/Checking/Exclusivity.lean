import Custody.Proofs.Checking.Ancestors
import Custody.Proofs.Types.Aliasing
/-!
# Loans that exclude each other

A table of loans that is filled by grants alone never holds two loans that exclude each other,
unless one was derived from the other. The test that a grant makes follows parents through live
loans only, and loans may have ended in between. Where the parents handed to it come with the
parents of the live ones among them, the search finds nothing that was not handed to it, so a loan
that is spared is a parent.
-/

namespace Custody

variable {loans : Loans} {id : LoanId} {ids : LoanSet}

/-! ## Overlap is symmetric -/

theorem Root.mayAlias_comm (left right : Root) : left.mayAlias right = right.mayAlias left := by
  cases left <;> cases right <;> simp [mayAlias, eq_comm, StructTag.mayAlias_comm]

theorem Place.chainsMeet_comm (left right : List String) :
    chainsMeet left right = chainsMeet right left := by
  induction left generalizing right with
  | nil => cases right <;> rfl
  | cons head tail ih =>
    cases right with
    | nil => rfl
    | cons other rest => simp [chainsMeet, ih rest, eq_comm]

theorem Place.overlaps_comm (left right : Place) : left.overlaps right = right.overlaps left := by
  rw [overlaps, overlaps, Root.mayAlias_comm, chainsMeet_comm]

theorem LoanMode.conflictsWith_comm (left right : LoanMode) :
    left.conflictsWith right = right.conflictsWith left := Bool.or_comm _ _

namespace Loans

/-! ## Parents among the loans -/

/-- The set has the parents of its live members. -/
def Closed (loans : Loans) (ids : LoanSet) : Prop :=
  ∀ id ∈ ids.toList, ∀ loan ∈ loans.get? id, ∀ parent ∈ loan.parents.toList, parent ∈ ids.toList

instance (loans : Loans) (ids : LoanSet) : Decidable (loans.Closed ids) :=
  inferInstanceAs (Decidable (∀ id ∈ ids.toList, ∀ loan ∈ loans.get? id,
    ∀ parent ∈ loan.parents.toList, parent ∈ ids.toList))

/-- Nothing is found above a set that has its parents. -/
theorem mem_of_mem_ancestors (closed : loans.Closed ids) (found : id ∈ loans.ancestors ids) :
    id ∈ ids := by
  obtain ⟨start, given, path⟩ := mem_ancestors_iff.mp found
  clear found
  induction path with
  | refl => exact given
  | tail _ derives ih =>
    obtain ⟨loan, live, parent⟩ := derives
    exact closed _ ih loan live _ parent

/-! ## Requests -/

/-- What may be asked of a table. -/
inductive Request where
  | grant (loan : Loan)
  | release (id : LoanId)
  | retain (held : LoanSet)

/-- The table behind a request; a grant that is refused leaves it alone. -/
def serve (loans : Loans) : Request → Loans
  | .grant loan =>
    match loans.grant loan with
    | .ok (_, granted) => granted
    | .error _ => loans
  | .release id => loans.release id
  | .retain held => loans.retain held

/-- Every grant that is asked for along the way is handed the parents of its live parents. -/
def Proper : Loans → List Request → Prop
  | _, [] => True
  | loans, .grant loan :: rest =>
    loans.Closed loan.parents ∧ Proper (loans.serve (.grant loan)) rest
  | loans, request :: rest => Proper (loans.serve request) rest

/-- Of two live loans that exclude each other the later one was derived from the earlier one. -/
structure Exclusive (loans : Loans) : Prop where
  bounded : loans.Bounded
  related : ∀ {older younger first second}, older < younger → loans.get? older = some first →
    loans.get? younger = some second → first.blocks second.place second.mode = true →
    older ∈ second.parents

theorem Exclusive.shrink
    {left : Loans} (exclusive : loans.Exclusive) (next : left.next = loans.next)
    (old : ∀ {id loan}, left.get? id = some loan → loans.get? id = some loan) : left.Exclusive where
  bounded id loan found := next ▸ exclusive.bounded id loan (old found)
  related earlier found found' blocks := exclusive.related earlier (old found) (old found') blocks

theorem Exclusive.grant {granted : Loans} {loan : Loan} (exclusive : loans.Exclusive)
    (closed : loans.Closed loan.parents) (answer : loans.grant loan = .ok (id, granted)) :
    granted.Exclusive := by
  have unblocked : loans.conflictingAccess? loan.place loan.mode loan.parents = none := by
    cases blocked : loans.conflictingAccess? loan.place loan.mode loan.parents with
    | none => rfl
    | some existing => simp [Loans.grant, blocked] at answer
  obtain ⟨_, rfl⟩ : loans.next = id ∧ (loans.insert loan).2 = granted := by
    simpa [Loans.grant, unblocked, Loans.insert] using answer
  refine ⟨exclusive.bounded.insert loan, ?_⟩
  intro older younger first second earlier found found' blocks
  rw [get?_insert] at found found'
  split at found'
  · rename_i newest
    obtain rfl := Option.some.inj found'
    rw [if_neg (Nat.ne_of_lt (newest ▸ earlier))] at found
    have spared := List.find?_eq_none.mp (Option.map_eq_none_iff.mp unblocked) _
      (Table.mem_entries_of_get? found)
    rw [Bool.not_eq_true, Bool.and_eq_false_iff, Bool.not_eq_false', blocks] at spared
    exact mem_of_mem_ancestors closed
      (SortedSet.contains_iff.mp (spared.resolve_right Bool.noConfusion))
  · have given : younger < loans.next := exclusive.bounded _ _ found'
    rw [if_neg (Nat.ne_of_lt (Nat.lt_trans earlier given))] at found
    exact exclusive.related earlier found found' blocks

theorem Exclusive.serve_release (exclusive : loans.Exclusive) (id : LoanId) :
    (loans.release id).Exclusive := by
  refine exclusive.shrink rfl fun {other loan} found => ?_
  have erased : (loans.release id).get? other = if other = id then none else loans.get? other :=
    Table.get?_erase loans.live id other
  rw [erased] at found
  split at found
  · cases found
  · exact found

theorem Exclusive.serveAll {requests : List Request} : ∀ {loans : Loans}, loans.Exclusive →
    Proper loans requests → (requests.foldl serve loans).Exclusive := by
  induction requests with
  | nil => exact fun exclusive _ => exclusive
  | cons request rest ih =>
    intro loans exclusive proper
    cases request with
    | grant loan =>
      obtain ⟨closed, proper⟩ := proper
      refine ih ?_ proper
      cases answer : loans.grant loan with
      | error existing => simpa only [serve, answer] using exclusive
      | ok entry => simpa only [serve, answer] using exclusive.grant closed answer
    | release id => exact ih (exclusive.serve_release id) proper
    | retain held =>
      refine ih (exclusive.shrink rfl fun {id loan} found => ?_) proper
      exact (follows_retain loans held).old
        (exclusive.bounded.retain held id loan found) found

/-- Whatever is asked of an empty table, as long as every grant is handed the parents of its live
parents: of two live loans that exclude each other the older one is among the parents of the
younger. So loans of overlapping places of which neither is a parent of the other are shared. A
grant is refused because of a live loan, and then the table stays as it is. -/
theorem conflicting_loans_are_related (requests : List Request) (proper : Proper {} requests) :
    let loans := requests.foldl serve {}
    (∀ (id other : LoanId) (first second : Loan), id ≠ other → loans.get? id = some first →
      loans.get? other = some second → first.place.overlaps second.place = true →
        (first.mode.conflictsWith second.mode = true →
          (id < other ∧ id ∈ second.parents) ∨ (other < id ∧ other ∈ first.parents)) ∧
        (¬ id ∈ second.parents → ¬ other ∈ first.parents →
          first.mode = .shared ∧ second.mode = .shared)) ∧
    ∀ (loan existing : Loan), loans.grant loan = .error existing →
      existing ∈ loans.live.values ∧ existing.blocks loan.place loan.mode = true ∧
        loans.serve (.grant loan) = loans := by
  intro loans
  have exclusive : loans.Exclusive :=
    Exclusive.serveAll ⟨fun _ _ found => (nomatch found), fun _ found => (nomatch found)⟩ proper
  refine ⟨?related, ?refused⟩
  case related =>
    intro id other first second apart found found' overlaps
    have related : first.mode.conflictsWith second.mode = true →
        (id < other ∧ id ∈ second.parents) ∨ (other < id ∧ other ∈ first.parents) := by
      intro conflicts
      rcases Nat.lt_or_gt_of_ne apart with earlier | later
      · refine .inl ⟨earlier, exclusive.related earlier found found' ?_⟩
        rw [Loan.blocks, overlaps, conflicts, Bool.and_self]
      · refine .inr ⟨later, exclusive.related later found' found ?_⟩
        rw [Loan.blocks, Place.overlaps_comm, overlaps, LoanMode.conflictsWith_comm, conflicts,
          Bool.and_self]
    refine ⟨related, fun notFirst notSecond => ?_⟩
    have peaceful : ¬ first.mode.conflictsWith second.mode = true := fun conflicts =>
      (related conflicts).elim (fun here => notFirst here.2) fun here => notSecond here.2
    revert peaceful
    cases first.mode <;> cases second.mode <;> decide
  case refused =>
    intro loan existing answer
    have left : loans.serve (.grant loan) = loans := by simp only [serve, answer]
    cases blocked : loans.conflictingAccess? loan.place loan.mode loan.parents with
    | none => simp [Loans.grant, blocked] at answer
    | some other =>
      obtain rfl : other = existing := by simpa [Loans.grant, blocked] using answer
      obtain ⟨entry, found, rfl⟩ := Option.map_eq_some_iff.mp blocked
      have blocks := List.find?_some found
      rw [Bool.and_eq_true] at blocks
      exact ⟨List.mem_map_of_mem (List.mem_of_find?_eq_some found), blocks.2, left⟩

/-- A struct is borrowed, then a field of it through that borrow, and then the first loan ends. The
loan of the field is still there, and stands in the way of another loan of the struct. -/
theorem field_loan_outlives_its_parent :
    let place : Place := { root := .local 0 }
    let requests : List Request := [.grant ⟨place, .exclusive, ∅⟩,
      .grant ⟨place.child "x", .exclusive, .ofList [0]⟩, .release 0]
    Proper {} requests ∧ ((requests.foldl serve {}).get? 1).isSome = true ∧
      ∀ (existing : Loan), (requests.foldl serve {}).grant ⟨place, .shared, ∅⟩ = .error existing →
        (requests.foldl serve {}).serve (.grant ⟨place, .shared, ∅⟩) = requests.foldl serve {} := by
  have proper : Proper {} [.grant ⟨{ root := .local 0 }, .exclusive, ∅⟩,
      .grant ⟨Place.child { root := .local 0 } "x", .exclusive, .ofList [0]⟩, .release 0] :=
    ⟨by decide, by decide +kernel, trivial⟩
  exact ⟨proper, by decide +kernel, fun existing refused =>
    ((conflicting_loans_are_related _ proper).2 _ existing refused).2.2⟩

end Loans

end Custody
