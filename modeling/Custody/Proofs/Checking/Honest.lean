import Custody.Check.Body
/-!
# What the checker keeps on record

No step of the checker takes a problem off the record. A walk that ends without a problem therefore
had none at any point on the way, which lets each step of it be looked at by itself. Nor does a step
forget what the body reaches in storage or calls.
-/

namespace Custody

variable {s : BodyState}

/-- Everything that one account of a body lists, another one lists as well. -/
structure Access.Within (before after : Access) : Prop where
  direct : ∀ struct ∈ before.direct, struct ∈ after.direct
  calls : ∀ function ∈ before.calls, function ∈ after.calls

theorem Access.Within.refl (access : Access) : access.Within access :=
  ⟨fun _ listed => listed, fun _ listed => listed⟩

theorem Access.Within.trans {first second third : Access} (one : first.Within second)
    (two : second.Within third) : first.Within third :=
  ⟨fun struct listed => two.direct struct (one.direct struct listed),
    fun function listed => two.calls function (one.calls function listed)⟩

namespace Check

/-! ## Running steps -/

section Running

variable {α β : Type}

@[simp] theorem bind_apply (x : Check α) (f : α → Check β) (s : BodyState) :
    (x >>= f) s = f (x s).1 (x s).2 := rfl

@[simp] theorem pure_apply (a : α) (s : BodyState) : (pure a : Check α) s = (a, s) := rfl

@[simp] theorem get_apply (s : BodyState) : (get : Check BodyState) s = (s, s) := rfl

@[simp] theorem set_apply (s t : BodyState) : (set t : Check PUnit) s = (⟨⟩, t) := rfl

@[simp] theorem modify_apply (f : BodyState → BodyState) (s : BodyState) :
    (modify f : Check PUnit) s = (⟨⟩, f s) := rfl

@[simp] theorem look_apply (locals : Locals) (ids : List BindingId) (s : BodyState) :
    look locals ids s = (⟨⟩, s) := rfl

@[simp] theorem tell_apply (notice : Notice) (s : BodyState) : tell notice s = (⟨⟩, s) := rfl

@[simp] theorem lookAround_apply (s : BodyState) : lookAround s = (⟨⟩, s) := rfl

@[simp] theorem consume_apply (id : BindingId) (s : BodyState) :
    consume id s = (⟨⟩, { s with locals := (s.locals.consume id).2 }) := rfl

@[simp] theorem ite_apply (p : Prop) [Decidable p] (x y : Check α) (s : BodyState) :
    (if p then x else y) s = if p then x s else y s := by
  split <;> rfl

@[simp] theorem report_apply (ctx : BodyContext) (site : Site) (fault : Fault) (s : BodyState) :
    report ctx site fault s =
      (⟨⟩, { s with problems := s.problems ++ [⟨.inFunction ctx.signature.id site, fault⟩] }) := rfl

@[simp] theorem reportAll_apply (ctx : BodyContext) (site : Site) (faults : List Fault)
    (s : BodyState) : reportAll ctx site faults s =
      (⟨⟩, { s with
        problems := s.problems ++ faults.map (⟨.inFunction ctx.signature.id site, ·⟩) }) := rfl

end Running

/-! ## Later states -/

/-- A relation of the states of a walk to later ones. It admits whatever leaves the record as it is
and the names that are live, and the structs that are put on record. -/
class Course (later : BodyState → BodyState → Prop) : Prop where
  quiet : ∀ {s t : BodyState}, t.problems = s.problems → t.access = s.access → t.liveAfter =
    s.liveAfter → later s t
  direct : ∀ (s : BodyState) (struct : StructId),
    later s { s with access := { s.access with direct := s.access.direct.insert struct } }
  trans : ∀ {first second third : BodyState}, later first second → later second third →
    later first third

/-- It does not look at the names that are live. -/
class Reading (later : BodyState → BodyState → Prop) : Prop where
  reading : ∀ {s t : BodyState}, t.problems = s.problems → t.access = s.access → later s t

/-- It admits what else a walk over the body puts on record: problems of the body and declared
functions that it calls. -/
class Recording (ctx : BodyContext) (later : BodyState → BodyState → Prop) : Prop
    extends Course later where
  report : ∀ (s : BodyState) (site : Site) (faults : List Fault), later s { s with
    problems := s.problems ++ faults.map (⟨.inFunction ctx.signature.id site, ·⟩) }
  call : ∀ (s : BodyState) {id : FunctionId} {callee : Signature}, ctx.types.function? id =
    some callee → later s { s with access := { s.access with calls := s.access.calls.insert id } }

/-- If no problem is on record behind, none was before; and what is known of the body's reach before
is known behind. -/
def Kept (before after : BodyState) : Prop :=
  (after.problems = [] → before.problems = []) ∧ before.access.Within after.access

theorem Kept.refl (s : BodyState) : Kept s s := ⟨fun clean => clean, .refl _⟩

theorem Kept.trans {first second third : BodyState} (one : Kept first second)
    (two : Kept second third) : Kept first third :=
  ⟨fun clean => one.1 (two.1 clean), one.2.trans two.2⟩

instance reading_kept : Reading Kept :=
  ⟨fun problems access => ⟨fun clean => problems ▸ clean, access ▸ .refl _⟩⟩

instance course_kept : Course Kept where
  quiet problems access _ := Reading.reading problems access
  direct _ _ := ⟨fun clean => clean, fun _ listed => SortedSet.mem_insert.mpr (.inr listed),
    fun _ listed => listed⟩
  trans := Kept.trans

instance recording_kept (ctx : BodyContext) : Recording ctx Kept where
  report _ _ _ := ⟨fun clean => (List.append_eq_nil_iff.mp clean).1, .refl _⟩
  call _ {_ _} _ := ⟨fun clean => clean, fun _ listed => listed,
    fun _ listed => SortedSet.mem_insert.mpr (.inr listed)⟩

/-- Every run of the step ends in a later state. -/
class Advances (later : BodyState → BodyState → Prop) {α : Type} (x : Check α) : Prop where
  advances : ∀ s, later s (x s).2

/-- The step takes nothing off the record. -/
abbrev Honest {α : Type} (x : Check α) : Prop := Advances Kept x

section Honesty

variable {α β : Type}

theorem clean_before {x : Check α} [honest : Honest x] (clean : (x s).2.problems = []) :
    s.problems = [] :=
  (honest.advances s).1 clean

theorem known_behind {x : Check α} [honest : Honest x] (s : BodyState) :
    s.access.Within (x s).2.access :=
  (honest.advances s).2

/-- A walk without a problem had none at the point between its two parts. -/
theorem clean_of_bind {x : Check α} {f : α → Check β} (rest : ∀ a, Honest (f a))
    (clean : ((x >>= f) s).2.problems = []) : (x s).2.problems = [] :=
  ((rest _).advances _).1 clean

theorem clean_first {x : Check α} {f : α → Check β} [rest : ∀ a, Honest (f a)]
    (clean : ((x >>= f) s).2.problems = []) : (x s).2.problems = [] :=
  clean_of_bind rest clean

end Honesty

section Advancing

variable {α β : Type} {later : BodyState → BodyState → Prop} [course : Course later]

/-- One step further. -/
theorem later_after {x : Check α} [step : Advances later x] {before : BodyState}
    (so : later before s) : later before (x s).2 :=
  course.trans so (step.advances s)

/-- What is changed in front of a step and behind it. -/
theorem later_around {before after : BodyState} (start : BodyState) (x : Check α)
    [step : Advances later x] (started : later before start) (ended : later (x start).2 after) :
    later before after :=
  course.trans (later_after started) ended

instance advances_pure (a : α) : Advances later (pure a) := ⟨fun _ => course.quiet rfl rfl rfl⟩

instance advances_get : Advances later (get : Check BodyState) :=
  ⟨fun _ => course.quiet rfl rfl rfl⟩

instance advances_look (locals : Locals) (ids : List BindingId) :
    Advances later (look locals ids) :=
  ⟨fun _ => course.quiet rfl rfl rfl⟩

instance advances_bind (x : Check α) (f : α → Check β) [first : Advances later x]
    [rest : ∀ a, Advances later (f a)] : Advances later (x >>= f) :=
  ⟨fun s => course.trans (first.advances s) ((rest _).advances _)⟩

theorem Advances.bind {x : Check α} {f : α → Check β} [Advances later x]
    (rest : ∀ a, Advances later (f a)) : Advances later (x >>= f) :=
  advances_bind x f

omit course in
instance advances_ite (p : Prop) [Decidable p] (x y : Check α) [Advances later x]
    [Advances later y] : Advances later (if p then x else y) := by
  split <;> infer_instance

omit course in
theorem advances_modify {f : BodyState → BodyState} (step : ∀ s, later s (f s)) :
    Advances later (modify f) := ⟨step⟩

theorem advances_forM (f : α → Check PUnit) [each : ∀ a, Advances later (f a)] (items : List α) :
    Advances later (items.forM f) := by
  induction items with
  | nil => exact inferInstanceAs (Advances later (pure _))
  | cons item rest ih =>
    exact inferInstanceAs (Advances later (f item >>= fun _ => rest.forM f))

end Advancing

end Check

end Custody
