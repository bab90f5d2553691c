import Custody.Proofs.Checking.Loans
import Custody.Proofs.Types.Plain
/-!
# Types that may become the same

Two types that some instantiation makes the same are never kept apart, so two slots of storage that
the checker takes to be different are different slots in every run.
-/

namespace Custody

variable {u : Universe} {arity : Nat} {types types' : List Ty}

namespace Universe

mutual

theorem mentionsRef_of_isPlain : (ty : Ty) → u.isPlain arity ty = true → ty.mentionsRef = false
  | .ref _ _, plain => by simp [isPlain] at plain
  | .vector elem, plain => mentionsRef_of_isPlain elem plain
  | .struct _ args, plain => anyMentionsRef_of_arePlain args (isPlain_struct_iff.mp plain).2
  | .unit, _ | .bool, _ | .u8, _ | .u64, _ | .u128, _ | .address, _ | .signer, _
  | .param _ _, _ => rfl

theorem anyMentionsRef_of_arePlain : (types : List Ty) →
    u.arePlain arity types = true → Ty.anyMentionsRef types = false
  | [], _ => rfl
  | ty :: types, plain => by
    rw [arePlain, Bool.and_eq_true] at plain
    rw [Ty.anyMentionsRef,
      mentionsRef_of_isPlain ty plain.1, anyMentionsRef_of_arePlain types plain.2, Bool.or_self]

end

end Universe

namespace Ty

mutual

/-- What two instantiations make the same may alias; it is enough that one side has no reference in
it. -/
theorem mayAlias_of_subst : (left right : Ty) → left.mentionsRef = false →
    left.subst types = right.subst types' → mayAlias left right = true
  | .param _ _, _, _, _ => by simp [mayAlias]
  | .ref _ _, _, free, _ => by simp [mentionsRef] at free
  | .vector left, right, free, same => by
    cases right with
    | param _ _ => simp [mayAlias]
    | vector right =>
      rw [subst, subst, vector.injEq] at same
      rw [mayAlias]
      exact mayAlias_of_subst left right free same
    | _ => simp [subst] at same
  | .struct id left, right, free, same => by
    cases right with
    | param _ _ => simp [mayAlias]
    | struct other right =>
      rw [subst, subst, struct.injEq] at same
      obtain ⟨rfl, same⟩ := same
      rw [mayAlias, decide_eq_true rfl, Bool.true_and]
      exact allMayAlias_of_substAll left right free same
    | _ => simp [subst] at same
  | .unit, right, _, same | .bool, right, _, same | .u8, right, _, same | .u64, right, _, same
  | .u128, right, _, same | .address, right, _, same | .signer, right, _, same => by
    cases right <;> simp [subst, mayAlias] at same ⊢

theorem allMayAlias_of_substAll : (left right : List Ty) → anyMentionsRef left = false →
    substAll types left = substAll types' right → allMayAlias left right = true
  | [], [], _, _ => by simp [allMayAlias]
  | [], _ :: _, _, same => by simp [substAll] at same
  | _ :: _, [], _, same => by simp [substAll] at same
  | left :: lefts, right :: rights, free, same => by
    rw [substAll, substAll, List.cons.injEq] at same
    rw [anyMentionsRef, Bool.or_eq_false_iff] at free
    rw [allMayAlias, mayAlias_of_subst left right free.1 same.1,
      allMayAlias_of_substAll lefts rights free.2 same.2, Bool.and_self]

end

mutual

theorem mayAlias_self : (ty : Ty) → mayAlias ty ty = true
  | .vector elem => by rw [mayAlias, mayAlias_self elem]
  | .struct _ args => by rw [mayAlias, decide_eq_true rfl, Bool.true_and, allMayAlias_self args]
  | .unit | .bool | .u8 | .u64 | .u128 | .address | .signer | .param _ _ | .ref _ _ => by
    simp [mayAlias]

theorem allMayAlias_self : (types : List Ty) → allMayAlias types types = true
  | [] => by simp [allMayAlias]
  | ty :: types => by rw [allMayAlias, mayAlias_self ty, allMayAlias_self types, Bool.and_self]

end

mutual

theorem mayAlias_symm : (left right : Ty) → mayAlias left right = true → mayAlias right left = true
  | .param _ _, right, _ => by cases right <;> simp [mayAlias]
  | .ref _ _, right, same => by
    cases right <;> simp [mayAlias] at same ⊢
    exact ⟨same.1.symm, same.2.symm⟩
  | .vector left, right, same => by
    cases right with
    | vector right =>
      rw [mayAlias] at same ⊢
      exact mayAlias_symm left right same
    | _ => simp [mayAlias] at same ⊢
  | .struct id left, right, same => by
    cases right with
    | struct other right =>
      rw [mayAlias, Bool.and_eq_true, decide_eq_true_eq] at same ⊢
      exact ⟨same.1.symm, allMayAlias_symm left right same.2⟩
    | _ => simp [mayAlias] at same ⊢
  | .unit, right, same | .bool, right, same | .u8, right, same | .u64, right, same
  | .u128, right, same | .address, right, same | .signer, right, same => by
    cases right <;> simp [mayAlias] at same ⊢

theorem allMayAlias_symm : (left right : List Ty) → allMayAlias left right = true →
    allMayAlias right left = true
  | [], [], _ => by simp [allMayAlias]
  | [], _ :: _, same => by simp [allMayAlias] at same
  | _ :: _, [], same => by simp [allMayAlias] at same
  | left :: lefts, right :: rights, same => by
    rw [allMayAlias, Bool.and_eq_true] at same ⊢
    exact ⟨mayAlias_symm left right same.1, allMayAlias_symm lefts rights same.2⟩

end

end Ty

namespace StructTag

variable {left right : StructTag}

theorem mayAlias_of_same_instance (free : left.ty.mentionsRef = false)
    (same : left.subst types = right.subst types') : left.mayAlias right = true := by
  have sameId : left.id = right.id := congrArg (·.id) same
  have sameArgs : Ty.substAll types left.args = Ty.substAll types' right.args :=
    congrArg (·.args) same
  rw [mayAlias, decide_eq_true sameId, Bool.true_and]
  exact Ty.allMayAlias_of_substAll _ _ free sameArgs

theorem mayAlias_of_subst (plain : u.isPlain arity left.ty = true)
    (same : left.subst types = right.subst types') : left.mayAlias right = true :=
  mayAlias_of_same_instance (Universe.mentionsRef_of_isPlain _ plain) same

theorem mayAlias_self (tag : StructTag) : tag.mayAlias tag = true := by
  rw [mayAlias, decide_eq_true rfl, Bool.true_and, Ty.allMayAlias_self]

theorem mayAlias_symm (may : left.mayAlias right = true) : right.mayAlias left = true := by
  rw [mayAlias, Bool.and_eq_true, decide_eq_true_eq] at may ⊢
  exact ⟨may.1.symm, Ty.allMayAlias_symm _ _ may.2⟩

theorem mayAlias_comm (left right : StructTag) : left.mayAlias right = right.mayAlias left :=
  Bool.eq_iff_iff.mpr ⟨mayAlias_symm, mayAlias_symm⟩

end StructTag

/-- Without a loan in the way of taking a value out, no live loan is one of such a slot. -/
theorem Loans.subst_ne_of_conflicting?_eq_none {loans : Loans} {tag : StructTag}
    (plain : u.isPlain arity tag.ty = true)
    (free : loans.conflicting? { root := .global tag } .exclusive = none) {id : LoanId}
    {loan : Loan} (live : loans.get? id = some loan) {other : StructTag}
    (rooted : loan.place.root = .global other) : other.subst types ≠ tag.subst types := by
  intro same
  have unblocked := List.find?_eq_none.mp free loan (Table.mem_values_of_get? live)
  have meets : Place.chainsMeet loan.place.fields [] = true := by
    cases loan.place.fields <;> rfl
  have may := StructTag.mayAlias_symm (StructTag.mayAlias_of_subst plain same.symm)
  simp [Loan.blocks, Place.overlaps, Root.mayAlias, rooted, meets, may, LoanMode.conflictsWith]
    at unblocked

/-! ## Slots at run time -/

/-- The slot of a written struct is one of what it denotes, at the types the running function
has. -/
theorem Exec.tag_of_slotKey {setup : Setup} {struct : StructExpr} {address : Value} {m m' : Machine}
    {key : SlotKey}
    (ran : Exec.slotKey setup struct address m = .ok key m') :
    ∃ tag, setup.program.types.resolveStruct m.current.function.module m.current.typeParams struct =
      .ok tag ∧ key.tag = tag.subst m.current.typeArgs := by
  cases address with
  | address owner =>
    have opened : Exec.slotKey setup struct (.address owner) m =
        ((Exec.resolved (setup.program.types.resolveStruct m.current.function.module
          m.current.typeParams struct) >>= fun tag => pure (tag.subst m.current.typeArgs)) >>=
            fun tag => pure ⟨owner, tag⟩ : Exec SlotKey) m := rfl
    rw [opened] at ran
    cases known : setup.program.types.resolveStruct m.current.function.module m.current.typeParams
        struct with
    | error fault =>
      rw [known] at ran
      cases ran
    | ok tag =>
      rw [known] at ran
      cases ran
      exact ⟨tag, rfl, rfl⟩
  | _ => cases ran

/-- Aliasing is never missed. Whatever two instantiations make the same may alias, and the relation
is reflexive and symmetric. A written struct denotes a tag without references, so two slots of
storage whose borrows do not overlap have different keys, whichever frames name them. -/
theorem aliasing_covers_every_instantiation :
    (∀ (left right : StructTag) (types types' : List Ty), left.ty.mentionsRef = false →
      right.ty.mentionsRef = false → left.subst types = right.subst types' →
        left.mayAlias right = true) ∧
    (∀ tag : StructTag, tag.mayAlias tag = true) ∧
    (∀ left right : StructTag, left.mayAlias right = right.mayAlias left) ∧
    (∀ (u : Universe) (module : String) (params : List TypeParam) (struct : StructExpr)
      (tag : StructTag), u.resolveStruct module params struct = .ok tag →
        tag.ty.mentionsRef = false) ∧
    (∀ (setup : Setup) (struct other : StructExpr) (address address' : Value)
      (m n m' n' : Machine) (key key' : SlotKey),
      Exec.slotKey setup struct address m = .ok key m' →
      Exec.slotKey setup other address' n = .ok key' n' →
        ∃ tag tag',
          setup.program.types.resolveStruct m.current.function.module m.current.typeParams struct =
            .ok tag ∧
          setup.program.types.resolveStruct n.current.function.module n.current.typeParams other =
            .ok tag' ∧
          (Place.overlaps { root := .global tag } { root := .global tag' } = false →
            key ≠ key')) := by
  refine ⟨?covers, StructTag.mayAlias_self, StructTag.mayAlias_comm, ?resolved, ?apart⟩
  case covers =>
    intro left right types types' free _ same
    exact StructTag.mayAlias_of_same_instance free same
  case resolved =>
    intro u module params struct tag known
    exact Universe.mentionsRef_of_isPlain _ (Universe.isPlain_resolveStruct known)
  case apart =>
    intro setup struct other address address' m n m' n' key key' ran ran'
    obtain ⟨tag, known, tagged⟩ := Exec.tag_of_slotKey ran
    obtain ⟨tag', known', tagged'⟩ := Exec.tag_of_slotKey ran'
    refine ⟨tag, tag', known, known', ?_⟩
    rintro disjoint rfl
    have may : tag.mayAlias tag' = true :=
      StructTag.mayAlias_of_subst (Universe.isPlain_resolveStruct known) (tagged.symm.trans tagged')
    simp [Place.overlaps, Root.mayAlias, Place.chainsMeet, may] at disjoint

/-- Boxes of vectors of a parameter meet boxes of vectors of integers once the parameter is an
integer; boxes of vectors and boxes of integers never meet. -/
theorem generic_boxes_meet_integer_boxes :
    let box (arg : Ty) : StructTag := ⟨⟨"Bank", "Box"⟩, [arg]⟩
    (box (.vector (.param 0 "T"))).mayAlias (box (.vector .u64)) = true ∧
      (box (.vector (.param 0 "T"))).mayAlias (box .u64) = false :=
  ⟨aliasing_covers_every_instantiation.1 _ _
    [.u64] [] (by decide) (by decide) (by decide), by decide⟩

end Custody
