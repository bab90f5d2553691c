import Custody.Name
/-!
# Types and their order

Canonical descriptors of types. A type parameter is known by its position in the generic context
that binds it and keeps its name for display only. A struct instantiation is the struct's name with
its type arguments; on its own it is a tag, the form in which storage and diagnostics speak of it.

Types are compared by their form and then by their parts, so that tables may have them as keys and
equality is decided. Comparison of types is nested in comparison of type lists; equality of equal
types, orientation and transitivity are each shown for both at once.
-/

namespace Custody

open Std Ordering LawfulEqOrd

/-- A resolved type. -/
inductive Ty where
  | unit
  | bool
  | u8
  | u64
  | u128
  | address
  | signer
  | vector (elem : Ty)
  | struct (id : StructId) (args : List Ty)
  | param (index : Nat) (name : String)
  | ref (mutable : Bool) (inner : Ty)

/-- A struct instantiation. -/
structure StructTag where
  id : StructId
  args : List Ty := []

/-- The type whose values the tag describes. -/
def StructTag.ty (tag : StructTag) : Ty := .struct tag.id tag.args

namespace Ty

/-- Position of a type's form in the order of forms. -/
def rank : Ty → Nat
  | .unit => 0
  | .bool => 1
  | .u8 => 2
  | .u64 => 3
  | .u128 => 4
  | .address => 5
  | .signer => 6
  | .vector _ => 7
  | .struct _ _ => 8
  | .param _ _ => 9
  | .ref _ _ => 10

mutual

/-- Types are ordered by form, then by their parts from left to right. -/
def order : Ty → Ty → Ordering
  | .vector left, .vector right => order left right
  | .struct leftId left, .struct rightId right =>
    (compare leftId rightId).then (orderAll left right)
  | .param left leftName, .param right rightName =>
    (compare left right).then (compare leftName rightName)
  | .ref leftMutable left, .ref rightMutable right =>
    (compare leftMutable rightMutable).then (order left right)
  | left, right => compare left.rank right.rank

/-- Lists of types are ordered lexicographically. -/
def orderAll : List Ty → List Ty → Ordering
  | [], [] => .eq
  | [], _ :: _ => .lt
  | _ :: _, [] => .gt
  | left :: lefts, right :: rights => (order left right).then (orderAll lefts rights)

end

instance : Ord Ty := ⟨order⟩

/-- Types of different forms are compared by their forms. -/
theorem order_of_rank_ne (left right : Ty) (differ : left.rank ≠ right.rank) :
    order left right = compare left.rank right.rank := by
  cases left <;> cases right <;> first | rfl | exact absurd rfl differ

/-- A smaller form comes first. -/
theorem order_of_rank_lt {left right : Ty} (less : left.rank < right.rank) :
    order left right = .lt := by
  rw [order_of_rank_ne left right (Nat.ne_of_lt less)]
  exact Nat.compare_eq_lt.mpr less

/-- What comes first does not have the larger form. -/
theorem rank_le_of_order_lt {left right : Ty} (before : order left right = .lt) :
    left.rank ≤ right.rank := by
  by_cases same : left.rank = right.rank
  · exact Nat.le_of_eq same
  · rw [order_of_rank_ne left right same] at before
    exact Nat.le_of_lt (Nat.compare_eq_lt.mp before)

/-- Types that compare as equal have one form. -/
theorem rank_eq_of_order_eq {left right : Ty} (equal : order left right = .eq) :
    left.rank = right.rank := by
  by_cases same : left.rank = right.rank
  · exact same
  · rw [order_of_rank_ne left right same] at equal
    exact Nat.compare_eq_eq.mp equal

mutual

theorem eq_of_order : (left right : Ty) → order left right = .eq → left = right
  | .unit, right, equal | .bool, right, equal | .u8, right, equal | .u64, right, equal
  | .u128, right, equal | .address, right, equal | .signer, right, equal => by
    have form := rank_eq_of_order_eq equal
    cases right <;> simp [rank] at form
    rfl
  | .vector left, right, equal => by
    have form := rank_eq_of_order_eq equal
    cases right <;> simp [rank] at form
    rw [eq_of_order left _ equal]
  | .struct leftId left, right, equal => by
    have form := rank_eq_of_order_eq equal
    cases right <;> simp [rank] at form
    obtain ⟨ids, args⟩ := then_eq_eq.mp equal
    rw [eq_of_compare ids, eq_of_orderAll left _ args]
  | .param left leftName, right, equal => by
    have form := rank_eq_of_order_eq equal
    cases right <;> simp [rank] at form
    obtain ⟨indices, names⟩ := then_eq_eq.mp equal
    rw [eq_of_compare indices, eq_of_compare names]
  | .ref leftMutable left, right, equal => by
    have form := rank_eq_of_order_eq equal
    cases right <;> simp [rank] at form
    obtain ⟨modes, inners⟩ := then_eq_eq.mp equal
    rw [eq_of_compare modes, eq_of_order left _ inners]

theorem eq_of_orderAll : (lefts rights : List Ty) → orderAll lefts rights = .eq → lefts = rights
  | [], [], _ => rfl
  | [], _ :: _, equal => by simp [orderAll] at equal
  | _ :: _, [], equal => by simp [orderAll] at equal
  | left :: lefts, right :: rights, equal => by
    obtain ⟨heads, tails⟩ := then_eq_eq.mp equal
    rw [eq_of_order left right heads, eq_of_orderAll lefts rights tails]

end

mutual

theorem order_swap : (left right : Ty) → order left right = (order right left).swap
  | .unit, right | .bool, right | .u8, right | .u64, right | .u128, right | .address, right
  | .signer, right => by cases right <;> rfl
  | .vector left, right => by
    cases right <;> first | rfl | exact order_swap left _
  | .struct leftId left, right => by
    cases right <;> first | rfl | skip
    simp only [order, swap_then]
    rw [OrientedOrd.eq_swap (α := QualifiedName), orderAll_swap left]
  | .param left leftName, right => by
    cases right <;> first | rfl | skip
    simp only [order, swap_then]
    rw [OrientedOrd.eq_swap (α := Nat), OrientedOrd.eq_swap (α := String)]
  | .ref leftMutable left, right => by
    cases right <;> first | rfl | skip
    simp only [order, swap_then]
    rw [OrientedOrd.eq_swap (α := Bool), order_swap left]

theorem orderAll_swap : (lefts rights : List Ty) → orderAll lefts rights =
    (orderAll rights lefts).swap
  | [], [] | [], _ :: _ | _ :: _, [] => rfl
  | left :: lefts, right :: rights => by
    simp only [orderAll, swap_then]
    rw [order_swap left, orderAll_swap lefts]

end

/-- Transitivity of a lexicographic comparison, if its first parts are transitive and equal parts
can be replaced. -/
theorem then_lt_trans {first second outer rest rest' outerRest : Ordering}
    (trans : first = .lt → second = .lt → outer = .lt) (left : second = .eq → outer = first)
    (right : first = .eq → outer = second) (here : first.then rest = .lt)
    (there : second.then rest' = .lt) (rests : rest = .lt → rest' = .lt → outerRest = .lt) :
    outer.then outerRest = .lt := by
  rw [Ordering.then_eq_lt] at here there ⊢
  rcases here with less | ⟨same, lessRest⟩
  · rcases there with less' | ⟨same', _⟩
    · exact Or.inl (trans less less')
    · exact Or.inl ((left same').trans less)
  · rw [right same]
    exact there.imp_right fun both => ⟨both.1, rests lessRest both.2⟩

theorem compare_then_lt_trans {α : Type} [Ord α] [TransOrd α] [LawfulEqOrd α]
    {left middle right : α} {rest rest' outerRest : Ordering}
    (here : (compare left middle).then rest = .lt) (there : (compare middle right).then rest' = .lt)
    (rests : rest = .lt → rest' = .lt → outerRest = .lt) :
    (compare left right).then outerRest = .lt :=
  then_lt_trans TransCmp.lt_trans (fun same => by rw [eq_of_compare same])
    (fun same => by rw [eq_of_compare same]) here there rests

mutual

theorem order_lt_trans : (left middle right : Ty) → order left middle = .lt →
    order middle right = .lt → order left right = .lt
  | left, middle, right, first, second => by
    have ranks := rank_le_of_order_lt first
    have ranks' := rank_le_of_order_lt second
    by_cases less : left.rank < right.rank
    · exact order_of_rank_lt less
    -- All three have one form, and the parts decide.
    have form : left.rank = middle.rank := by omega
    have form' : middle.rank = right.rank := by omega
    cases left with
    | vector left =>
      cases middle <;> simp [rank] at form
      cases right <;> simp [rank] at form'
      exact order_lt_trans left _ _ first second
    | struct id left =>
      cases middle <;> simp [rank] at form
      cases right <;> simp [rank] at form'
      exact compare_then_lt_trans first second (orderAll_lt_trans left _ _)
    | param index name =>
      cases middle <;> simp [rank] at form
      cases right <;> simp [rank] at form'
      exact compare_then_lt_trans first second TransCmp.lt_trans
    | ref mutable left =>
      cases middle <;> simp [rank] at form
      cases right <;> simp [rank] at form'
      exact compare_then_lt_trans first second (order_lt_trans left _ _)
    | _ =>
      cases middle <;> simp [rank] at form
      simp [order] at first

theorem orderAll_lt_trans : (lefts middles rights : List Ty) → orderAll lefts middles = .lt →
    orderAll middles rights = .lt → orderAll lefts rights = .lt
  | [], [], _, first, _ => by simp [orderAll] at first
  | [], _ :: _, [], _, second => by simp [orderAll] at second
  | [], _ :: _, _ :: _, _, _ => rfl
  | _ :: _, [], _, first, _ => by simp [orderAll] at first
  | _ :: _, _ :: _, [], _, second => by simp [orderAll] at second
  | left :: lefts, middle :: middles, right :: rights, first, second => by
    simp only [orderAll] at first second ⊢
    exact then_lt_trans (order_lt_trans left middle right)
      (fun same => by rw [eq_of_order middle right same])
      (fun same => by rw [eq_of_order left middle same]) first second
      (orderAll_lt_trans lefts middles rights)

end

instance : LawfulEqOrd Ty where
  eq_of_compare := eq_of_order _ _
  compare_self {ty} := eq_eq_of_eq_swap (order_swap ty ty)

instance : DecidableEq Ty := fun _ _ => decidable_of_iff _ compare_eq_iff_eq

instance : TransOrd Ty where
  eq_swap {left right} := order_swap left right
  isLE_trans {left middle right} first second := by
    rw [isLE_iff_eq_lt_or_eq_eq] at first second ⊢
    rcases first with less | same
    · rcases second with less' | same'
      · exact Or.inl (order_lt_trans left middle right less less')
      · exact Or.inl (eq_of_order middle right same' ▸ less)
    · rw [eq_of_order left middle same]
      exact second

end Ty

/-! ## Tags -/

namespace StructTag

def order (left right : StructTag) : Ordering :=
  (compare left.id right.id).then (Ty.orderAll left.args right.args)

instance : Ord StructTag := ⟨order⟩

end StructTag

instance : TransOrd StructTag := inferInstanceAs (TransCmp (compareOn StructTag.ty))

instance : LawfulEqOrd StructTag where
  eq_of_compare {left right} equal := by
    have same : left.ty = right.ty := eq_of_compare equal
    cases left
    cases right
    rw [StructTag.ty, StructTag.ty, Ty.struct.injEq] at same
    rw [StructTag.mk.injEq]
    exact same

instance : DecidableEq StructTag := fun _ _ => decidable_of_iff _ compare_eq_iff_eq

end Custody
