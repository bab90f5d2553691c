import Custody.Proofs.Checking.Bounds
import Custody.Proofs.Values.Structs
/-!
# What an accepted step of the checker did

A step is accepted if no problem is on record behind it. For every step of the checker one lemma
says what acceptance tells about its operands and gives the answer and the state behind it in full,
so that no later proof has to look inside a step.
-/

namespace Custody

variable {name : String} {operands : List Operand} {mutable : Bool} {tag : StructTag}
  {left right : Operand} {struct : StructExpr} {action : StructUse} {addr : Operand} {op : BinOp}
  {values : List Operand} {callee : Signature} {types : List Ty} {held : LoanSet}

namespace BodyContext

/-- The instantiation of a struct that is written in the body. -/
abbrev Names (ctx : BodyContext) (struct : StructExpr) (tag : StructTag) : Prop :=
  ctx.types.resolveStruct ctx.module ctx.signature.typeParams struct = .ok tag

/-- The type of values that is written in the body. -/
abbrev Means (ctx : BodyContext) (type : TypeExpr) (ty : Ty) : Prop :=
  ctx.types.resolveAt ctx.module ctx.signature.typeParams false type = .ok ty

end BodyContext

namespace Check

section Steps

variable {ctx : BodyContext} {site : Site} {s : BodyState}

/-- Checks that change nothing, made one after another, are all made at one state. -/
theorem forM_accepted {α : Type} {f : α → Check PUnit} (honest : ∀ a, Honest (f a))
    (same : ∀ a, (f a s).2.problems = [] → f a s = (⟨⟩, s)) {items : List α}
    (clean : ((forM items f : Check PUnit) s).2.problems = []) :
    (forM items f : Check PUnit) s = (⟨⟩, s) ∧ ∀ a ∈ items, (f a s).2.problems = [] := by
  induction items with
  | nil => exact ⟨rfl, fun _ member => (nomatch member)⟩
  | cons item rest ih =>
    rw [List.forM_cons] at clean ⊢
    have here := clean_of_bind (fun _ => advances_forM f rest) clean
    rw [bind_apply, same item here] at clean ⊢
    obtain ⟨others, each⟩ := ih clean
    refine ⟨others, ?_⟩
    intro other member
    rcases List.mem_cons.mp member with rfl | member
    · exact here
    · exact each other member

/-! ## Types -/

theorem expect_accepted {found expected : Ty}
    (clean : (expect ctx site found expected s).2.problems = []) :
    found.flowsInto expected = true ∧ expect ctx site found expected s = (true, s) := by
  cases flows : found.flowsInto expected with
  | true => simp [expect, flows]
  | false => simp [expect, flows] at clean

theorem resolveType_accepted {top : Bool} {type : TypeExpr}
    (clean : (resolveType ctx site top type s).2.problems = []) :
    ∃ ty, ctx.types.resolveAt ctx.module ctx.signature.typeParams top type = .ok ty ∧
      resolveType ctx site top type s = (some ty, s) := by
  cases resolved : ctx.types.resolveAt ctx.module ctx.signature.typeParams top type with
  | error fault => simp [resolveType, resolved] at clean
  | ok ty =>
    simp only [resolveType, resolved, bind_apply, reportAll_apply, pure_apply,
      List.append_eq_nil_iff, List.map_eq_nil_iff] at clean
    exact ⟨ty, rfl, by simp [resolveType, resolved, clean.2]⟩

theorem ownStruct_accepted (clean : (ownStruct ctx action struct s).2.problems = []) :
    ∃ tag, ctx.Names struct tag ∧ ownStruct ctx action struct s = (some tag, s) := by
  cases resolved : ctx.types.resolveStruct ctx.module ctx.signature.typeParams struct with
  | error fault => simp [ownStruct, resolved] at clean
  | ok tag =>
    by_cases own : tag.id.module = ctx.module
    · simp only [ownStruct, resolved, bind_apply, reportAll_apply, own, if_true, pure_apply,
        List.append_eq_nil_iff, List.map_eq_nil_iff] at clean
      exact ⟨tag, resolved, by simp [ownStruct, resolved, own, clean.2]⟩
    · simp [ownStruct, resolved, own] at clean

theorem storedStruct_accepted (clean : (storedStruct ctx action struct s).2.problems = []) :
    ∃ tag, ctx.Names struct tag ∧ storedStruct ctx action struct s = (some tag, s) := by
  unfold storedStruct at clean ⊢
  obtain ⟨tag, resolved, own⟩ := ownStruct_accepted
    (clean_of_bind (fun tag => by split <;> infer_instance) clean)
  rw [bind_apply, own] at clean ⊢
  cases key : (ctx.abilities tag.ty).key with
  | true => exact ⟨tag, resolved, by simp [key]⟩
  | false => simp [key] at clean

theorem forM_report_apply (faults : List (Site × Fault)) (s : BodyState) :
    ((forM faults fun entry => report ctx entry.1 entry.2 : Check PUnit) s).2 =
      { s with problems := s.problems ++
          faults.map fun entry => ⟨.inFunction ctx.signature.id entry.1, entry.2⟩ } := by
  induction faults generalizing s with
  | nil => simp
  | cons entry rest ih => simp [ih]

theorem coversFields_accepted {struct : String} {fields given : List String}
    (clean : (coversFields ctx action struct tag fields given s).2.problems = []) :
    coverageFaults action struct tag fields given = [] ∧
      coversFields ctx action struct tag fields given s = (true, s) := by
  have none : coverageFaults action struct tag fields given = [] := by
    simp only [coversFields, List.forM_eq_forM, bind_apply, pure_apply, forM_report_apply,
      List.append_eq_nil_iff, List.map_eq_nil_iff] at clean
    exact clean.2
  exact ⟨none, by simp [coversFields, none]⟩

/-! ## Loans -/

theorem grant_accepted {place : Place} {parents : LoanSet} {referent : Ty}
    (clean : (grant ctx site place mutable parents referent s).2.problems = []) :
    grant ctx site place mutable parents referent s =
      (some { ty := .ref mutable referent, loans := parents.insert s.loans.next
              place := some place },
        { s with loans := (s.loans.insert ⟨place, .ofMutable mutable, parents⟩).2 }) := by
  cases granted : s.loans.grant ⟨place, .ofMutable mutable, parents⟩ with
  | error existing => simp [grant, granted] at clean
  | ok entry =>
    have same : entry = s.loans.insert ⟨place, .ofMutable mutable, parents⟩ := by
      simp only [Loans.grant] at granted
      split at granted
      · cases granted
      · exact (Except.ok.inj granted).symm
    simp [grant, granted, same, Loans.insert]

theorem checkAccess_accepted {mode : LoanMode} {reference : Operand}
    (clean : (checkAccess ctx site mode reference s).2.problems = []) :
    checkAccess ctx site mode reference s = ((), s) := by
  cases place : reference.place with
  | none => simp [checkAccess, place]
  | some place' =>
    cases blocked : s.loans.conflictingAccess? place' mode reference.loans with
    | none => simp [checkAccess, place, blocked]
    | some loan => simp [checkAccess, place, blocked] at clean

/-! ## Locals -/

/-- A name that is found denotes a slot. -/
theorem slot?_of_lookup {locals : Locals} {id : BindingId} (found : locals.lookup name = some id) :
    ∃ slot, locals.slot? id = some slot ∧ slot.name = name := by
  have named := List.find?_some found
  simp only [Locals.isNamed] at named
  cases slot : locals.slot? id with
  | none => simp [slot] at named
  | some slot' => exact ⟨slot', rfl, by simpa [slot] using named⟩

/-- Uses of a local that leave it as it is. -/
def LocalUse.copies (use : LocalUse) (slot : Slot) : Bool :=
  match use with
  | .copy => true
  | .move => false
  | .implicit => slot.canCopy

/-- The operand that a local in use stands for. -/
def Slot.operand (slot : Slot) : Operand :=
  { ty := slot.ty, loans := slot.loans, place := slot.place }

variable (unpoisoned : s.poisoned = [])

include unpoisoned

theorem useLocal_accepted {use : LocalUse} (clean : (useLocal ctx use name s).2.problems = []) :
    ∃ id slot, s.locals.lookup name = some id ∧ s.locals.slot? id = some slot ∧
      slot.state = .live ∧
      ((use.copies slot = true ∧ slot.canCopy = true ∧
          useLocal ctx use name s = (some (Slot.operand slot), s)) ∨
        (use.copies slot = false ∧ s.loans.conflicting? { root := .local id } .exclusive = none ∧
          useLocal ctx use name s =
            (some (Slot.operand slot), { s with locals := (s.locals.consume id).2 }))) := by
  cases found : s.locals.lookup name with
  | none => simp [useLocal, found] at clean
  | some id =>
    obtain ⟨slot, present, named⟩ := slot?_of_lookup found
    refine ⟨id, slot, rfl, present, ?_⟩
    by_cases live : slot.state = .live
    · refine ⟨live, ?_⟩
      -- Whatever a use asks for and does not find is on record as a problem.
      cases use <;> cases shared : s.loans.conflicting? { root := .local id } .shared <;>
        cases exclusive : s.loans.conflicting? { root := .local id } .exclusive <;>
        simp [useLocal, found, unpoisoned, present, live, LocalUse.copies, Slot.operand, shared,
          exclusive] at clean ⊢ <;>
        cases copy : slot.canCopy <;> cases reference : slot.ty.isRef <;> simp_all
    · simp [useLocal, found, unpoisoned, present, live] at clean

theorem borrowable_accepted (clean : (borrowable ctx site name s).2.problems = []) :
    ∃ id slot, s.locals.lookup name = some id ∧ s.locals.slot? id = some slot ∧
      slot.state = .live ∧ slot.ty.isRef = false ∧
      borrowable ctx site name s = (some (id, slot.ty), s) := by
  cases found : s.locals.lookup name with
  | none => simp [borrowable, found] at clean
  | some id =>
    obtain ⟨slot, present, named⟩ := slot?_of_lookup found
    refine ⟨id, slot, rfl, present, ?_⟩
    by_cases live : slot.state = .live
    · cases reference : slot.ty.isRef with
      | true => simp [borrowable, found, unpoisoned, present, live, reference] at clean
      | false => simp [borrowable, found, unpoisoned, present, live, reference]
    · simp [borrowable, found, unpoisoned, present, live] at clean

theorem borrowLocal_accepted (clean : (borrowLocal ctx mutable name s).2.problems = []) :
    ∃ id slot, s.locals.lookup name = some id ∧ s.locals.slot? id = some slot ∧
      slot.state = .live ∧ slot.ty.isRef = false ∧
      borrowLocal ctx mutable name s =
        (some { ty := .ref mutable slot.ty, loans := SortedSet.insert ∅ s.loans.next,
                place := some { root := .local id } },
          { s with loans := (s.loans.insert ⟨{ root := .local id }, .ofMutable mutable,
            ∅⟩).2 }) := by
  simp only [borrowLocal] at clean ⊢
  obtain ⟨id, slot, found, present, live, value, borrowed⟩ := borrowable_accepted unpoisoned
    (clean_of_bind (fun found => by split <;> infer_instance) clean)
  rw [bind_apply, borrowed] at clean ⊢
  exact ⟨id, slot, found, present, live, value, grant_accepted clean⟩

theorem localBase_accepted (clean : (localBase ctx site mutable name s).2.problems = []) :
    ∃ id slot, s.locals.lookup name = some id ∧ s.locals.slot? id = some slot ∧
      slot.state = .live ∧ slot.ty.isRef = false ∧
      localBase ctx site mutable name s =
        (some { ty := .ref mutable slot.ty, place := some { root := .local id } }, s) := by
  unfold localBase at clean ⊢
  obtain ⟨id, slot, found, present, live, value, borrowed⟩ := borrowable_accepted unpoisoned
    (clean_of_bind (fun found => by split <;> infer_instance) clean)
  exact ⟨id, slot, found, present, live, value, by rw [bind_apply, borrowed]; rfl⟩

omit unpoisoned

/-! ## Ending loans -/

theorem releaseUnheld_spec (ids : LoanSet) (s : BodyState) :
    ∃ loans, releaseUnheld ids s = ((), { s with loans := loans }) ∧
      Releases s.locals.heldLoans (· ∈ ids) s.loans loans :=
  ⟨_, rfl, releases_foldl s.locals.heldLoans ids.toList s.loans⟩

theorem forM_releaseUnheld_spec (ids : Operand → LoanSet) (values : List Operand) (s : BodyState) :
    ∃ loans, (forM values fun value => releaseUnheld (ids value) : Check PUnit) s =
        ((), { s with loans := loans }) ∧
      Releases s.locals.heldLoans (fun id => ∃ value ∈ values, id ∈ ids value) s.loans loans := by
  induction values generalizing s with
  | nil => exact ⟨s.loans, rfl, Releases.refl _ _ _⟩
  | cons value rest ih =>
    obtain ⟨middle, first, released⟩ := releaseUnheld_spec (ids value) s
    obtain ⟨after, second, released'⟩ := ih { s with loans := middle }
    refine ⟨after, ?_, (released.trans released').mono ?_⟩
    · simp only [List.forM_cons, bind_apply, first, second]
    · rintro id (here | ⟨other, member, inside⟩)
      · exact ⟨value, List.mem_cons_self, here⟩
      · exact ⟨other, List.mem_cons_of_mem _ member, inside⟩

/-! ## References -/

/-- A field of what a reference to a struct refers to. -/
theorem borrowField_accepted {field : String} {base : Operand}
    (clean : (borrowField ctx mutable field base s).2.problems = []) :
    ∃ baseMutable id args ty, base.ty = .ref baseMutable (.struct id args) ∧
      (mutable = true → baseMutable = true) ∧ ctx.types.fieldType? ⟨id, args⟩ field = some ty ∧
      ((∃ place, base.place = some place ∧ borrowField ctx mutable field base s =
          (some { ty := .ref mutable ty, loans := base.loans.insert s.loans.next,
                  place := some (place.child field) },
            { s with loans :=
              (s.loans.insert ⟨place.child field, .ofMutable mutable, base.loans⟩).2 })) ∨
        (base.place = none ∧ borrowField ctx mutable field base s =
          (some { ty := .ref mutable ty, loans := base.loans }, s))) := by
  cases form : base.ty with
  | ref baseMutable inner =>
    cases shared : (mutable && !baseMutable) with
    | true => simp [borrowField, form, shared] at clean
    | false =>
      cases inner with
      | struct id args =>
        by_cases own : id.module = ctx.module
        · cases typed : ctx.types.fieldType? ⟨id, args⟩ field with
          | none => simp [borrowField, form, shared, own, typed] at clean
          | some ty =>
            refine ⟨baseMutable, id, args, ty, rfl, ?_, typed, ?_⟩
            · rintro rfl
              simpa using shared
            · cases placed : base.place with
              | none => exact .inr ⟨rfl, by simp [borrowField, form, shared, own, typed, placed]⟩
              | some place =>
                have step : borrowField ctx mutable field base s =
                    grant ctx (.fieldBorrow field) (place.child field) mutable base.loans ty s := by
                  simp [borrowField, form, shared, own, typed, placed]
                rw [step] at clean
                exact .inl ⟨place, rfl, step.trans (grant_accepted clean)⟩
        · simp [borrowField, form, shared, own] at clean
      | _ => simp [borrowField, form, shared] at clean
  | _ => simp [borrowField, form] at clean

theorem freeze_accepted {operand : Operand} (clean : (freeze ctx operand s).2.problems = []) :
    ∃ inner, operand.ty = .ref true inner ∧
      freeze ctx operand s = (some { operand with ty := .ref false inner }, s) := by
  cases form : operand.ty with
  | ref mutable inner =>
    cases mutable with
    | false => simp [freeze, form] at clean
    | true => exact ⟨inner, rfl, by simp [freeze, form]⟩
  | _ => simp [freeze, form] at clean

theorem dereference_accepted {operand : Operand}
    (clean : (dereference ctx operand s).2.problems = []) :
    ∃ mutable target loans, operand.ty = .ref mutable target ∧
      (ctx.abilities target).copy = true ∧
      dereference ctx operand s = (some { ty := target }, { s with loans := loans }) ∧
      Releases s.locals.heldLoans (· ∈ operand.loans) s.loans loans := by
  cases form : operand.ty with
  | ref mutable target =>
    simp only [dereference, form, Ty.referent?] at clean ⊢
    have access := checkAccess_accepted (clean_first clean)
    obtain ⟨loans, released, releases⟩ := releaseUnheld_spec operand.loans s
    rw [bind_apply, access, bind_apply, released] at clean ⊢
    cases copy : (ctx.abilities target).copy with
    | false => simp [copy] at clean
    | true => exact ⟨mutable, target, loans, rfl, copy, by simp, releases⟩
  | _ => simp [dereference, form, Ty.referent?] at clean

theorem signerAddress_accepted {operand : Operand}
    (clean : (signerAddress ctx operand s).2.problems = []) :
    ∃ loans, operand.ty.referent?.getD operand.ty = .signer ∧
      signerAddress ctx operand s = (some { ty := .address }, { s with loans := loans }) ∧
      Releases s.locals.heldLoans (· ∈ operand.loans) s.loans loans := by
  obtain ⟨loans, released, releases⟩ := releaseUnheld_spec operand.loans s
  by_cases signs : operand.ty.referent?.getD operand.ty = .signer
  · exact ⟨loans, signs, by simp [signerAddress, released, signs], releases⟩
  · simp [signerAddress, signs] at clean

/-! ## Values -/

theorem negate_accepted {operand : Operand} (clean : (negate ctx operand s).2.problems = []) :
    operand.ty.flowsInto .bool = true ∧ negate ctx operand s = (some { ty := .bool }, s) := by
  unfold negate at clean ⊢
  obtain ⟨flows, same⟩ := expect_accepted (clean_first clean)
  exact ⟨flows, by rw [bind_apply, same]; rfl⟩

/-- Operands that all have a type, as the walk answers them. -/
def named (operands : List (String × Operand)) : List (String × Option Operand) :=
  operands.map fun entry => (entry.1, some entry.2)

theorem expectFields_accepted {struct : String} {fields : List (String × Ty)}
    {operands : List (String × Operand)}
    (clean : (expectFields ctx struct fields (named operands) s).2.problems = []) :
    (∀ entry ∈ operands, ∀ ty, fields.lookup entry.1 = some ty →
        entry.2.ty.flowsInto ty = true) ∧
      expectFields ctx struct fields (named operands) s = (true, s) := by
  induction operands generalizing s with
  | nil => simp [named, expectFields]
  | cons entry rest ih =>
    obtain ⟨name, value⟩ := entry
    simp only [named, List.map_cons, expectFields] at clean ih ⊢
    cases typed : fields.lookup name with
    | none =>
      simp only [typed, bind_apply, pure_apply] at clean ⊢
      obtain ⟨flow, same⟩ := ih clean
      refine ⟨?_, by simp [same]⟩
      intro other member ty found
      rcases List.mem_cons.mp member with rfl | member
      · simp [typed] at found
      · exact flow other member ty found
    | some ty =>
      simp only [typed] at clean ⊢
      obtain ⟨flowsHere, sameHere⟩ := expect_accepted (clean_first clean)
      rw [bind_apply, sameHere, bind_apply] at clean ⊢
      obtain ⟨flow, same⟩ := ih clean
      refine ⟨?_, by rw [same]; rfl⟩
      intro other member ty' found
      rcases List.mem_cons.mp member with rfl | member
      · obtain rfl := Option.mem_unique typed found
        exact flowsHere
      · exact flow other member ty' found

theorem expectItems_accepted {elem : Ty}
    (clean : (expectItems ctx elem (operands.map some) s).2.problems = []) :
    (∀ operand ∈ operands, operand.ty.flowsInto elem = true) ∧
      expectItems ctx elem (operands.map some) s = (true, s) := by
  induction operands generalizing s with
  | nil => simp [expectItems]
  | cons value rest ih =>
    simp only [List.map_cons, expectItems] at clean ⊢
    obtain ⟨flowsHere, sameHere⟩ := expect_accepted (clean_first clean)
    rw [bind_apply, sameHere, bind_apply] at clean ⊢
    obtain ⟨flow, same⟩ := ih clean
    refine ⟨?_, by rw [same]; rfl⟩
    intro other member
    rcases List.mem_cons.mp member with rfl | member
    · exact flowsHere
    · exact flow other member

/-- The names given for a struct are exactly its fields, and the values fit. -/
theorem pack_accepted {operands : List (String × Operand)}
    (clean : (pack ctx struct (named operands) s).2.problems = []) :
    ∃ tag fields, ctx.Names struct tag ∧ ctx.types.instantiateFields? tag = some fields ∧
      coverageFaults .pack struct.name tag (fields.map (·.1)) (operands.map (·.1)) = [] ∧
      (∀ entry ∈ operands, ∀ ty, fields.lookup entry.1 = some ty →
        entry.2.ty.flowsInto ty = true) ∧
      pack ctx struct (named operands) s = (some { ty := tag.ty }, s) := by
  have names : (named operands).map (·.1) = operands.map (·.1) := by simp [named]
  unfold pack at clean ⊢
  obtain ⟨tag, resolved, own⟩ := ownStruct_accepted (clean_of_bind
    (fun tag => by repeat' first | infer_instance | split) clean)
  have plain := Universe.isPlain_resolveStruct resolved
  obtain ⟨⟨definition, declared, _⟩, _⟩ := Universe.isPlain_struct_iff.mp plain
  have instantiated : ctx.types.instantiateFields? tag = some (definition.fieldsAt tag.args) := by
    simp [Universe.instantiateFields?, declared]
  rw [bind_apply, own] at clean ⊢
  simp only [instantiated, names] at clean ⊢
  obtain ⟨covers, covered⟩ := coversFields_accepted (clean_first clean)
  rw [bind_apply, covered] at clean ⊢
  simp only [if_true] at clean ⊢
  obtain ⟨flow, fits⟩ := expectFields_accepted (clean_first clean)
  exact ⟨tag, _, resolved, instantiated, covers, flow, by rw [bind_apply, fits]; rfl⟩

theorem vector_accepted {elem : TypeExpr}
    (clean : (vector ctx elem (operands.map some) s).2.problems = []) :
    ∃ ty, ctx.Means elem ty ∧
      (∀ operand ∈ operands, operand.ty.flowsInto ty = true) ∧
      vector ctx elem (operands.map some) s = (some { ty := .vector ty }, s) := by
  unfold vector at clean ⊢
  obtain ⟨ty, resolved, same⟩ := resolveType_accepted
    (clean_of_bind (fun ty => by split <;> infer_instance) clean)
  rw [bind_apply, same] at clean ⊢
  dsimp only at clean ⊢
  obtain ⟨flow, fits⟩ := expectItems_accepted (clean_first clean)
  exact ⟨ty, resolved, flow, by rw [bind_apply, fits]; rfl⟩

/-- Arithmetic and orderings take two integers of one type. -/
theorem binary_accepted_integer (integer : (op.isArithmetic || op.isOrdering) = true)
    (clean : (binary ctx op left right s).2.problems = []) :
    left.ty.isInteger = true ∧ right.ty.flowsInto left.ty = true ∧
      binary ctx op left right s =
        (some { ty := if op.isArithmetic then left.ty else .bool }, s) := by
  simp only [binary, integer, if_true] at clean ⊢
  cases isInteger : left.ty.isInteger with
  | false => simp [isInteger] at clean
  | true =>
    simp only [isInteger, Bool.not_true, Bool.false_eq_true, if_false] at clean ⊢
    obtain ⟨flows, same⟩ := expect_accepted (clean_first clean)
    exact ⟨trivial, flows, by rw [bind_apply, same]; rfl⟩

/-- Comparison takes two values of one type that may be dropped, and ends their loans. -/
theorem binary_accepted_equality (equality : (op.isArithmetic || op.isOrdering) = false)
    (clean : (binary ctx op left right s).2.problems = []) :
    ∃ loans, right.ty.flowsInto left.ty = true ∧ (ctx.abilities left.ty).drop = true ∧
      binary ctx op left right s = (some { ty := .bool }, { s with loans := loans }) ∧
      Releases s.locals.heldLoans (fun id => id ∈ left.loans ∨ id ∈ right.loans) s.loans loans := by
  simp only [binary, equality, Bool.false_eq_true, if_false] at clean ⊢
  obtain ⟨flows, same⟩ := expect_accepted (clean_first clean)
  obtain ⟨middle, releasedLeft, releasesLeft⟩ := releaseUnheld_spec left.loans s
  obtain ⟨after, releasedRight, releasesRight⟩ :=
    releaseUnheld_spec right.loans { s with loans := middle }
  rw [bind_apply, same, bind_apply, releasedLeft, bind_apply, releasedRight] at clean ⊢
  cases drop : (ctx.abilities left.ty).drop with
  | false => simp [drop] at clean
  | true => exact ⟨after, flows, rfl, by simp, releasesLeft.trans releasesRight⟩

theorem logical_accepted (clean : (logical ctx op left right s).2.problems = []) :
    left.ty.flowsInto .bool = true ∧ right.ty.flowsInto .bool = true ∧
      logical ctx op left right s = (some { ty := .bool }, s) := by
  simp only [logical] at clean ⊢
  obtain ⟨leftFlows, leftSame⟩ := expect_accepted (clean_first clean)
  rw [bind_apply, leftSame] at clean ⊢
  obtain ⟨rightFlows, rightSame⟩ := expect_accepted (clean_first clean)
  exact ⟨leftFlows, rightFlows, by rw [bind_apply, rightSame]; rfl⟩

/-! ## Calls -/

theorem resolveTypeArgs_accepted {types : List TypeExpr}
    (clean : (resolveTypeArgs ctx site types s).2.problems = []) :
    ∃ resolved, List.Forall₂ ctx.Means types resolved ∧
      resolveTypeArgs ctx site types s = (some resolved, s) := by
  induction types generalizing s with
  | nil => exact ⟨[], .nil, rfl⟩
  | cons type rest ih =>
    unfold resolveTypeArgs at clean ⊢
    obtain ⟨ty, here, sameHere⟩ :=
      resolveType_accepted (clean_first clean)
    rw [bind_apply, sameHere] at clean ⊢
    obtain ⟨resolved, others, same⟩ :=
      ih (clean_first clean)
    exact ⟨ty :: resolved, .cons here others, by rw [bind_apply, same]; rfl⟩

theorem expectArguments_accepted {callee : FunctionId} {params : List (String × Ty)}
    (count : params.length = values.length)
    (clean : (expectArguments ctx callee types params values s).2.problems = []) :
    List.Forall₂ (fun value param => value.ty.flowsInto (param.2.subst types) = true)
    values params ∧
      expectArguments ctx callee types params values s = (true, s) := by
  induction params generalizing values s with
  | nil =>
    cases values with
    | nil => exact ⟨.nil, rfl⟩
    | cons value rest => simp at count
  | cons param params ih =>
    cases values with
    | nil => simp at count
    | cons value rest =>
      obtain ⟨name, ty⟩ := param
      unfold expectArguments at clean ⊢
      obtain ⟨flowsHere, sameHere⟩ := expect_accepted (clean_first clean)
      rw [bind_apply, sameHere] at clean ⊢
      obtain ⟨flow, same⟩ := ih (by simpa using count)
        (clean_first clean)
      exact ⟨.cons flowsHere flow, by rw [bind_apply, same]; rfl⟩

theorem checkAliasing_accepted (clean : (checkAliasing ctx site values s).2.problems = []) :
    checkAliasing ctx site values s = ((), s) := by
  cases aliased : aliasedPair? (referencePlaces values) <;> simp_all [checkAliasing]

theorem checkAcquired_accepted (clean : (checkAcquired ctx site callee s).2.problems = []) :
    checkAcquired ctx site callee s = ((), s) := by
  simp only [checkAcquired, List.forM_eq_forM] at clean ⊢
  refine (forM_accepted (fun name => ?_) (fun name here => ?_) clean).1
  · refine .bind fun state => ?_
    split <;> infer_instance
  · cases borrowed : loanOf? s.loans ⟨callee.id.module, name⟩ <;> simp_all

theorem allOperands?_map_some (operands : List Operand) :
    allOperands? (operands.map some) = some operands := by
  induction operands with
  | nil => rfl
  | cons operand rest ih => simp [allOperands?, ih]

theorem applyCall_accepted (count : callee.params.length = operands.length)
    (clean : (applyCall ctx site callee types operands s).2.problems = []) :
    ∃ loans, List.Forall₂ (fun operand param =>
        operand.ty.flowsInto (param.2.subst types) = true) operands callee.params ∧
      applyCall ctx site callee types operands s =
        (some (callResult (callee.ret.subst types) operands), { s with loans := loans }) ∧
      Releases s.locals.heldLoans (fun id => ∃ operand ∈ operands,
        id ∈ operand.loans ∧ ¬ id ∈ (callResult (callee.ret.subst types) operands).loans)
        s.loans loans := by
  have releases : Honest (operands.forM fun value =>
      releaseUnheld (value.loans.diff (callResult (callee.ret.subst types) operands).loans)) :=
    advances_forM _ _
  unfold applyCall at clean ⊢
  obtain ⟨flow, fits⟩ := expectArguments_accepted count
    (clean_first clean)
  rw [bind_apply, fits] at clean ⊢
  have unaliased := checkAliasing_accepted (clean_first clean)
  rw [bind_apply, unaliased] at clean ⊢
  have unacquired := checkAcquired_accepted (clean_first clean)
  rw [bind_apply, unacquired] at clean ⊢
  obtain ⟨loans, released, given⟩ := forM_releaseUnheld_spec
    (fun value => value.loans.diff (callResult (callee.ret.subst types) operands).loans) operands s
  refine ⟨loans, flow, ?_, given.mono fun id ⟨operand, member, inside⟩ =>
    ⟨operand, member, SortedSet.mem_diff.mp inside⟩⟩
  simp only [List.forM_eq_forM]
  rw [bind_apply, released]
  rfl

/-- A call names a declared function and gives it type arguments and arguments that fit. -/
theorem call_accepted {module : Option String} {function : String} {typeArgs : List TypeExpr}
    (clean : (call ctx module function typeArgs (operands.map some) s).2.problems = []) :
    ∃ callee types access loans,
      ctx.types.function? ⟨module.getD ctx.module, function⟩ = some callee ∧
      callee.typeParams.length = typeArgs.length ∧
      List.Forall₂ ctx.Means typeArgs types ∧ callConstraintFaults ctx callee types = [] ∧
      List.Forall₂ (fun operand param =>
        operand.ty.flowsInto (param.2.subst types) = true) operands callee.params ∧
      call ctx module function typeArgs (operands.map some) s =
        (some (callResult (callee.ret.subst types) operands),
          { s with access := access, loans := loans }) ∧
      Releases s.locals.heldLoans (fun id => ∃ operand ∈ operands,
        id ∈ operand.loans ∧ ¬ id ∈ (callResult (callee.ret.subst types) operands).loans)
        s.loans loans ∧
      s.access.Within access ∧ ⟨module.getD ctx.module, function⟩ ∈ access.calls := by
  simp only [call] at clean ⊢
  cases declared : ctx.types.function? ⟨module.getD ctx.module, function⟩ with
  | none => simp [declared] at clean
  | some callee =>
    simp only [declared] at clean ⊢
    rw [bind_apply, modify_apply] at clean ⊢
    by_cases arity : callee.typeParams.length = typeArgs.length
    · simp only [arity, ne_eq, not_true_eq_false, if_false] at clean ⊢
      obtain ⟨types, resolved, same⟩ := resolveTypeArgs_accepted (clean_of_bind
        (fun types => by repeat' first | infer_instance | split) clean)
      rw [bind_apply, same] at clean ⊢
      dsimp only at clean ⊢
      rw [bind_apply, reportAll_apply] at clean ⊢
      simp only [List.length_map, allOperands?_map_some] at clean ⊢
      by_cases count : callee.params.length = operands.length
      · simp only [count, not_true_eq_false, if_false] at clean ⊢
        have before := clean_before clean
        have faultless := List.map_eq_nil_iff.mp (List.append_eq_nil_iff.mp before).2
        rw [faultless] at clean ⊢
        simp only [List.map_nil, List.append_nil] at clean ⊢
        obtain ⟨loans, flow, done, releases⟩ := applyCall_accepted count clean
        exact ⟨callee, types, _, loans, rfl, arity, resolved, faultless, flow, done, releases,
          ⟨fun _ listed => listed, fun _ listed => SortedSet.mem_insert.mpr (.inr listed)⟩,
          SortedSet.mem_insert.mpr (.inl rfl)⟩
      · simp [count] at clean
    · simp [arity] at clean

/-! ## Storage -/

theorem moveTo_accepted {signer value : Operand}
    (clean : (moveTo ctx tag signer value s).2.problems = []) :
    ∃ loans, signer.ty.referent? = some .signer ∧ value.ty.flowsInto tag.ty = true ∧
      moveTo ctx tag signer value s = (some { ty := .unit }, { s with loans := loans }) ∧
      Releases s.locals.heldLoans (· ∈ signer.loans) s.loans loans := by
  obtain ⟨loans, released, releases⟩ := releaseUnheld_spec signer.loans s
  simp only [moveTo] at clean ⊢
  rw [bind_apply, released] at clean ⊢
  by_cases signs : signer.ty.referent? = some .signer
  · simp only [signs, decide_true, if_true] at clean ⊢
    obtain ⟨flows, same⟩ := expect_accepted (clean_first clean)
    exact ⟨loans, trivial, flows, by rw [bind_apply, same]; rfl, releases⟩
  · simp only [signs, decide_false, Bool.false_eq_true, if_false] at clean
    have reported := clean_first clean
    simp at reported

theorem within_recordAccess {access : Access} {struct : StructId} :
    access.Within { access with direct := access.direct.insert struct } ∧
      struct ∈ access.direct.insert struct :=
  ⟨⟨fun _ listed => SortedSet.mem_insert.mpr (.inr listed), fun _ listed => listed⟩,
    SortedSet.mem_insert.mpr (.inl rfl)⟩

theorem moveFrom_accepted (clean : (moveFrom ctx tag addr s).2.problems = []) :
    ∃ access, addr.ty.flowsInto .address = true ∧
      s.loans.conflicting? { root := .global tag } .exclusive = none ∧
      moveFrom ctx tag addr s = (some { ty := tag.ty }, { s with access := access }) ∧
      s.access.Within access ∧ tag.id ∈ access.direct := by
  unfold moveFrom at clean ⊢
  obtain ⟨flows, same⟩ := expect_accepted (clean_of_bind (fun _ => by
    repeat' first | infer_instance | split | refine .bind fun _ => ?_) clean)
  rw [bind_apply, same] at clean ⊢
  simp only [recordAccess, bind_apply, modify_apply, get_apply] at clean ⊢
  cases borrowed : s.loans.conflicting? { root := .global tag } .exclusive with
  | none => exact ⟨_, flows, rfl, rfl, within_recordAccess⟩
  | some loan => simp [borrowed] at clean

theorem borrowGlobal_accepted (clean : (borrowGlobal ctx tag mutable addr s).2.problems = []) :
    ∃ access, addr.ty.flowsInto .address = true ∧
      borrowGlobal ctx tag mutable addr s =
        (some { ty := .ref mutable tag.ty, loans := SortedSet.insert ∅ s.loans.next,
                place := some { root := .global tag } },
          { s with
            access := access
            loans := (s.loans.insert ⟨{ root := .global tag }, .ofMutable mutable, ∅⟩).2 }) ∧
      s.access.Within access ∧ tag.id ∈ access.direct := by
  unfold borrowGlobal at clean ⊢
  obtain ⟨flows, same⟩ := expect_accepted (clean_first clean)
  rw [bind_apply, same, bind_apply] at clean ⊢
  exact ⟨_, flows, grant_accepted clean, within_recordAccess⟩

theorem existsAt_accepted (clean : (existsAt ctx addr s).2.problems = []) :
    addr.ty.flowsInto .address = true ∧ existsAt ctx addr s = (some { ty := .bool }, s) := by
  unfold existsAt at clean ⊢
  obtain ⟨flows, same⟩ := expect_accepted (clean_first clean)
  exact ⟨flows, by rw [bind_apply, same]; rfl⟩

end Steps

end Check

end Custody
