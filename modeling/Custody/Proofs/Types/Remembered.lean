import Custody.Proofs.Types.Substitution
import Custody.Universe.AbilityMemo
/-!
# Answers from memory

Ability queries share one memory while the parameters in scope change from query to query, and
inside a query every part of the type is asked for in the same way. Only answers for types without
parameters are written down. Such an answer is right under every assumption, so it may be read under
another one than it was written under, at whatever depth. No answer differs from what the formula
gives without any memory.
-/

namespace Custody

namespace Universe

variable {α β : Type} {u : Universe} {memo : AbilityMemo} {params : List AbilitySet} {ty : Ty}

/-- What is written down about a type is right, whatever is assumed of the parameters in scope. -/
def Faithful (u : Universe) (memo : AbilityMemo) : Prop :=
  ∀ (ty : Ty) (set : AbilitySet), memo.get? ty = some set →
    ∀ params : List AbilitySet, u.abilities params ty = set

/-- The answer is the expected one. The memory left behind is faithful, and nothing is forgotten. -/
structure Answers (u : Universe) (memo : AbilityMemo) (expected : α) (answer : α × AbilityMemo) :
    Prop where
  right : answer.1 = expected
  faithful : u.Faithful answer.2
  kept : ∀ (ty : Ty) (set : AbilitySet), memo.get? ty = some set → answer.2.get? ty = some set

/-- An answer for which the memory is not needed. -/
theorem Faithful.answers (faithful : u.Faithful memo) (expected : α) :
    u.Answers memo expected (expected, memo) :=
  ⟨rfl, faithful, fun _ _ found => found⟩

theorem Answers.map {expected : α} {answer : α × AbilityMemo}
    (answers : u.Answers memo expected answer) (f : α → β) :
    u.Answers memo (f expected) (f answer.1, answer.2) :=
  ⟨congrArg f answers.right, answers.faithful, answers.kept⟩

/-- Two answers, the second from the memory that the first leaves behind. -/
theorem Answers.andThen {first : α} {rest : List α} {answer : α × AbilityMemo}
    {answers : List α × AbilityMemo} (one : u.Answers memo first answer)
    (others : u.Answers answer.2 rest answers) :
    u.Answers memo (first :: rest) (answer.1 :: answers.1, answers.2) :=
  ⟨by rw [one.right, others.right], others.faithful,
    fun ty set found => others.kept ty set (one.kept ty set found)⟩

/-! ## One query -/

section Remember

variable {compute : AbilityMemo → AbilitySet × AbilityMemo}

/-- Reading an answer and writing one down are both in order, if what is computed is. -/
theorem Faithful.remember (faithful : u.Faithful memo)
    (computed : u.Answers memo (u.abilities params ty) (compute memo)) :
    u.Answers memo (u.abilities params ty) (remember ty memo compute) := by
  cases concrete : ty.isConcrete with
  | false => simpa only [Universe.remember, concrete, Bool.false_eq_true, if_false] using computed
  | true =>
    cases found : memo.get? ty with
    | some set =>
      simp only [Universe.remember, concrete, if_true, found]
      exact ⟨(faithful ty set found params).symm, faithful, fun _ _ found => found⟩
    | none =>
      simp only [Universe.remember, concrete, if_true, found]
      refine ⟨computed.right, ?_, ?_⟩
      · intro other set written others
        rw [Table.get?_insert] at written
        split at written
        · rename_i same
          obtain rfl := Option.some.inj written
          -- The answer was computed under one assumption and is read under another.
          rw [same, computed.right, u.abilities_of_isConcrete others concrete,
            u.abilities_of_isConcrete params concrete]
        · exact computed.faithful other set written others
      · intro other set earlier
        have fresh : other ≠ ty := by
          rintro rfl
          simp [found] at earlier
        rw [Table.get?_insert, if_neg fresh]
        exact computed.kept other set earlier

/-- Behind a query the answer for a type without parameters is written down. -/
theorem get?_remember (concrete : ty.isConcrete = true) :
    (remember ty memo compute).2.get? ty = some (remember ty memo compute).1 := by
  cases found : memo.get? ty with
  | some set => simp [remember, concrete, found]
  | none => simp [remember, concrete, found]

end Remember

mutual

/-- The induction is on the type, as the queries for its parts are; each part is asked of the memory
that the parts before it leave behind. -/
theorem answers_memoizedAbilities (params : List AbilitySet) : (ty : Ty) → {memo : AbilityMemo} →
    u.Faithful memo → u.Answers memo (u.abilities params ty) (u.memoizedAbilities params ty memo)
  | .unit, _, faithful | .bool, _, faithful | .u8, _, faithful | .u64, _, faithful
  | .u128, _, faithful | .address, _, faithful | .signer, _, faithful | .ref _ _, _, faithful =>
    faithful.remember (faithful.answers _)
  | .param _ _, _, faithful => faithful.answers _
  | .vector elem, _, faithful =>
    faithful.remember ((answers_memoizedAbilities params elem faithful).map (·.inter .data))
  | .struct id args, memo, faithful => by
    rw [memoizedAbilities]
    refine faithful.remember ?_
    cases found : u.struct? id with
    | none =>
      simp only [abilities, found]
      exact faithful.answers AbilitySet.none
    | some struct =>
      simp only [abilities, found]
      exact (answers_memoizedAbilitiesAll params args faithful).map struct.abilitiesAt

theorem answers_memoizedAbilitiesAll (params : List AbilitySet) : (types : List Ty) →
    {memo : AbilityMemo} → u.Faithful memo →
      u.Answers memo (u.abilitiesAll params types) (u.memoizedAbilitiesAll params types memo)
  | [], _, faithful => faithful.answers []
  | ty :: types, _, faithful =>
    have head := answers_memoizedAbilities params ty faithful
    head.andThen (answers_memoizedAbilitiesAll params types head.faithful)

end

theorem get?_memoizedAbilities (concrete : ty.isConcrete = true) :
    (u.memoizedAbilities params ty memo).2.get? ty = some
    (u.memoizedAbilities params ty memo).1 := by
  cases ty with
  | param index name => simp [Ty.isConcrete] at concrete
  | _ => exact get?_remember concrete

/-! ## A session -/

/-- A question about a type, under an assumption on the parameters in scope. -/
structure AbilityQuery where
  params : List AbilitySet
  ty : Ty

/-- One query after the other, each put to the memory that the ones before it leave behind. -/
def session (u : Universe) : AbilityMemo → List AbilityQuery → List AbilitySet × AbilityMemo
  | memo, [] => ([], memo)
  | memo, query :: queries =>
    let answer := u.memoizedAbilities query.params query.ty memo
    let rest := u.session answer.2 queries
    (answer.1 :: rest.1, rest.2)

theorem answers_session (queries : List AbilityQuery) : {memo : AbilityMemo} → u.Faithful memo →
    u.Answers memo (queries.map fun query => u.abilities query.params query.ty)
      (u.session memo queries) := by
  induction queries with
  | nil => exact fun faithful => faithful.answers []
  | cons query queries ih =>
    intro memo faithful
    have first := answers_memoizedAbilities query.params query.ty faithful
    exact first.andThen (ih first.faithful)

/-- What was asked once is found again at the end, if it had no parameters. -/
theorem get?_session {queries : List AbilityQuery} {query : AbilityQuery} (asked : query ∈ queries)
    (concrete : query.ty.isConcrete = true) : {memo : AbilityMemo} → u.Faithful memo →
    (u.session memo queries).2.get? query.ty = some (u.abilities query.params query.ty) := by
  induction queries with
  | nil => cases asked
  | cons next queries ih =>
    intro memo faithful
    have first := answers_memoizedAbilities next.params next.ty faithful
    rcases List.mem_cons.mp asked with rfl | asked
    · refine (answers_session queries first.faithful).kept _ _ ?_
      rw [get?_memoizedAbilities concrete, first.right]
    · exact ih asked first.faithful

/-- Memory is transparent. Whatever types are asked for, one after the other and under changing
assumptions on the parameters in scope, every answer is the one that the formula gives for that type
under that assumption. And it is a memory: an answer for a type without parameters is there to be
read at the end. -/
theorem memory_is_transparent (u : Universe) (queries : List AbilityQuery) :
    (u.session ∅ queries).1 = queries.map (fun query => u.abilities query.params query.ty) ∧
      ∀ query ∈ queries, query.ty.isConcrete = true →
        (u.session ∅ queries).2.get? query.ty = some (u.abilities query.params query.ty) := by
  have empty : u.Faithful ∅ := by
    intro ty set found
    simp at found
  exact ⟨(answers_session queries empty).right, fun query asked concrete =>
    get?_session asked concrete empty⟩

/-- A vault of a parameter under two assumptions, and between them the vault of an address, which
alone is written down. -/
def vaultQueries : List AbilityQuery :=
  let vault (ty : Ty) : Ty := .struct ⟨"Vault", "Vault"⟩ [.signer, ty]
  [⟨[.all], vault (.param 0 "S")⟩, ⟨[.all], vault .address⟩, ⟨[], vault (.param 0 "S")⟩]

theorem vaultQueries_are_answered :
    ((build vaults).1.session ∅ vaultQueries).1 =
        [⟨true, true, false, true⟩, ⟨true, true, false, true⟩, .none] ∧
      ((build vaults).1.session ∅ vaultQueries).2.get?
        (.struct ⟨"Vault", "Vault"⟩ [.signer, .address]) = some ⟨true, true, false, true⟩ := by
  obtain ⟨answers, written⟩ := memory_is_transparent (build vaults).1 vaultQueries
  refine ⟨answers.trans (by decide +kernel), (written _ (.tail _ (.head _)) (by decide)).trans ?_⟩
  decide +kernel

end Universe

end Custody
