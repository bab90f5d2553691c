import Custody.Proofs.Values.Structs
/-!
# Parts that do not meet

References meet if they start at one root and one leads through the other. What is written through
one of two references that do not meet is not seen through the other.
-/

namespace Custody

/-! ## Paths -/

namespace Value

/-- A part that is replaced is seen along no path but those through it and those it lies on. -/
theorem descend_replaceAt {whole changed part : Value} {path other : List Nat}
    (before : ¬ path <+: other) (behind : ¬ other <+: path)
    (done : whole.replaceAt path part = .ok changed) :
    changed.descend other = whole.descend other := by
  induction path generalizing whole changed other with
  | nil => exact absurd (List.nil_prefix) before
  | cons index path ih =>
    cases other with
    | nil => exact absurd (List.nil_prefix) behind
    | cons position other =>
      cases whole with
      | struct tag fields =>
        cases inside : fields[index]? with
        | none => simp [replaceAt, inside] at done
        | some field =>
          simp only [replaceAt, inside] at done
          obtain ⟨field', replaced, made⟩ := Universe.bind_eq_ok done
          obtain rfl := Except.ok.inj made
          have within := (List.getElem?_eq_some_iff.mp inside).1
          simp only [descend]
          by_cases same : position = index
          · subst same
            rw [List.getElem?_set_self within, inside]
            refine ih ?_ ?_ replaced
            · exact fun through => before (List.cons_prefix_cons.mpr ⟨rfl, through⟩)
            · exact fun through => behind (List.cons_prefix_cons.mpr ⟨rfl, through⟩)
          · rw [List.getElem?_set_ne fun equal => same equal.symm]
      | _ => simp [replaceAt] at done

end Value

/-! ## References -/

namespace Reference

/-- The first reference leads to a part of what the second one leads to. -/
def Within (inner outer : Reference) : Prop := inner.root = outer.root ∧ outer.path <+: inner.path

/-- One of the references leads to a part of what the other one leads to. -/
def Meets (left right : Reference) : Prop := left.Within right ∨ right.Within left

theorem Within.refl (reference : Reference) : reference.Within reference := ⟨rfl, List.prefix_rfl⟩

theorem Within.trans {inner middle outer : Reference} (first : inner.Within middle)
    (second : middle.Within outer) : inner.Within outer :=
  ⟨first.1.trans second.1, second.2.trans first.2⟩

theorem Within.field {inner outer : Reference} (within : inner.Within outer) (index : Nat)
    (mutable : Bool) : (inner.field index mutable).Within outer :=
  ⟨within.1, within.2.trans (List.prefix_append _ _)⟩

theorem Meets.symm {left right : Reference} (meets : left.Meets right) : right.Meets left :=
  Or.symm meets

theorem Meets.root {left right : Reference} (meets : left.Meets right) :
    left.root = right.root := by
  rcases meets with within | within
  · exact within.1
  · exact within.1.symm

/-- What meets a part meets the whole. -/
theorem Meets.outward {inner outer other : Reference} (meets : inner.Meets other)
    (within : inner.Within outer) : outer.Meets other := by
  rcases meets with ⟨root, through⟩ | inside
  · -- Both lie on the path of the part, so one of them lies on the path of the other.
    have ordered := List.prefix_or_prefix_of_prefix within.2 through
    rcases ordered with first | second
    · exact .inr ⟨root.symm.trans within.1, first⟩
    · exact .inl ⟨within.1.symm.trans root, second⟩
  · exact .inr (inside.trans within)

end Reference

end Custody
