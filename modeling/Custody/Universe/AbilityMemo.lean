import Custody.Universe.Abilities
/-!
# Remembered abilities

A session of ability queries that remembers its answers. Only concrete types are remembered: their
abilities do not depend on what is assumed of the parameters in scope, so an answer given under one
assumption serves under every other.
-/

namespace Custody

/-- Answers so far, by type. -/
abbrev AbilityMemo := Table Ty AbilitySet

namespace Universe

/-- Answer from memory where possible; otherwise compute, and remember the answer if the type is
concrete. -/
def remember (ty : Ty) (memo : AbilityMemo) (compute : AbilityMemo → AbilitySet × AbilityMemo) :
    AbilitySet × AbilityMemo :=
  if ty.isConcrete then
    match memo.get? ty with
    | some set => (set, memo)
    | none =>
      let answer := compute memo
      (answer.1, answer.2.insert ty answer.1)
  else compute memo

variable (u : Universe) (params : List AbilitySet)

mutual

/-- The abilities of a type, its parts being asked for in the same way. -/
def memoizedAbilities : Ty → AbilityMemo → AbilitySet × AbilityMemo
  | .unit, memo => remember .unit memo fun memo => (.reference, memo)
  | .bool, memo => remember .bool memo fun memo => (.data, memo)
  | .u8, memo => remember .u8 memo fun memo => (.data, memo)
  | .u64, memo => remember .u64 memo fun memo => (.data, memo)
  | .u128, memo => remember .u128 memo fun memo => (.data, memo)
  | .address, memo => remember .address memo fun memo => (.data, memo)
  | .signer, memo => remember .signer memo fun memo => (.signer, memo)
  | .ref mutable inner, memo => remember (.ref mutable inner) memo fun memo => (.reference, memo)
  | .vector elem, memo =>
    remember (.vector elem) memo fun memo =>
      let answer := memoizedAbilities elem memo
      (answer.1.inter .data, answer.2)
  | .param index _, memo => ((params[index]?).getD .none, memo)
  | .struct id args, memo =>
    remember (.struct id args) memo fun memo =>
      match u.struct? id with
      | none => (.none, memo)
      | some struct =>
        let answers := memoizedAbilitiesAll args memo
        (struct.abilitiesAt answers.1, answers.2)

/-- Answers for a list of types, each seeing what the ones before it remembered. -/
def memoizedAbilitiesAll : List Ty → AbilityMemo → List AbilitySet × AbilityMemo
  | [], memo => ([], memo)
  | ty :: types, memo =>
    let head := memoizedAbilities ty memo
    let tail := memoizedAbilitiesAll types head.2
    (head.1 :: tail.1, tail.2)

end

end Universe

end Custody
