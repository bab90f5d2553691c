import Custody.Proofs.Execution.Ensures
/-!
# Invariants of the machine

A run maintains an invariant if it leaves the invariant standing wherever it finds it, whether it
ends with a value or stops. What it answers can be described along with it, and so can the reasons
for which it stops. The rules follow the primitives of the machine, and none of them mentions the
machine a run starts from: what a run has read of it is known from the invariant alone.
-/

namespace Custody.Exec

variable {change : Machine → Machine} {setup : Setup} {run : Exec Value} {frame : Frame}
  {stop : Stop}

/-- Started where the invariant stands, the run leaves it standing; `good` holds of its value, and
`fair` of the reason for which it stops. -/
def Maintains {α : Type} (inv : Machine → Prop) (x : Exec α) (good : α → Prop)
    (fair : Stop → Prop := fun _ => True) : Prop :=
  ∀ m, inv m → Ends x m (fun value m' => inv m' ∧ good value) fun stop m' => inv m' ∧ fair stop

/-- A machine may well stop with a breach. -/
class Excuses (fair : Stop → Prop) : Prop where
  breach : ∀ reason, fair (.failure (.invariantViolation reason))

instance excuses_any : Excuses fun _ => True := ⟨fun _ => trivial⟩

section Rules

variable {α β : Type} {inv : Machine → Prop} {x : Exec α} {good : α → Prop} {fair : Stop → Prop}

theorem Maintains.bind {f : α → Exec β} {good' : β → Prop} (first : Maintains inv x good fair)
    (rest : ∀ value, good value → Maintains inv (f value) good' fair) :
    Maintains inv (x >>= f) good' fair :=
  fun m start => (first m start).bind fun value m' here => rest value here.2 m' here.1

theorem maintains_pure {value : α} (here : good value) : Maintains inv (pure value) good fair :=
  fun _ start => ⟨start, here⟩

theorem Maintains.mono {good' : α → Prop} (maintains : Maintains inv x good fair)
    (implied : ∀ value, good value → good' value) : Maintains inv x good' fair := fun m start =>
  (maintains m start).mono (fun value _ => And.imp_right (implied value)) fun _ _ here => here

theorem Maintains.of_ok (maintains : Maintains inv x good fair) {m m' : Machine} {value : α}
    (start : inv m) (ran : x m = .ok value m') : inv m' ∧ good value :=
  (maintains m start).of_ok ran

/-- What is read of the machine is a machine that has the invariant. -/
theorem maintains_get : Maintains inv get inv fair := fun _ start => ⟨start, start⟩

theorem maintains_set {m' : Machine} (here : inv m') :
    Maintains inv (set m') (fun _ => True) fair :=
  fun _ _ => ⟨here, trivial⟩

theorem maintains_modify (step : ∀ m, inv m → inv (change m)) :
    Maintains inv (modify change : Exec PUnit) (fun _ => True) fair :=
  fun m start => ⟨step m start, trivial⟩

theorem maintains_throw (raised : fair stop) : Maintains inv (throw stop : Exec α) good fair :=
  fun _ start => ⟨start, raised⟩

theorem maintains_fail {failure : Failure} (raised : fair (.failure failure)) :
    Maintains inv (fail failure : Exec α) good fair :=
  maintains_throw raised

theorem maintains_breach [excuses : Excuses fair] {reason : Breach} :
    Maintains inv (breach reason : Exec α) good fair :=
  maintains_fail (excuses.breach reason)

theorem maintains_require [Excuses fair] {result : Option α} {otherwise : Breach}
    (here : ∀ value, result = some value → good value) :
    Maintains inv (require result otherwise) good fair := by
  cases result with
  | none => exact maintains_breach
  | some value => exact maintains_pure (here value rfl)

theorem maintains_sound [Excuses fair] {result : Except Breach α}
    (here : ∀ value, result = .ok value → good value) :
    Maintains inv (sound result) good fair := by
  cases result with
  | error reason => exact maintains_breach
  | ok value => exact maintains_pure (here value rfl)

theorem maintains_resolved [Excuses fair] {result : Except Fault α}
    (here : ∀ value, result = .ok value → good value) :
    Maintains inv (resolved result) good fair := by
  cases result with
  | error fault => exact maintains_get.bind fun _ _ => maintains_breach
  | ok value => exact maintains_pure (here value rfl)

theorem maintains_look {step : Operation α} (here : ∀ m, inv m →
      inv { m with tx := (step m.tx m.store).2 } ∧ good (step m.tx m.store).1) :
    Maintains inv (look step) good fair :=
  fun m start => here m start

section Storage

variable {step : Operation (Except Failure α)}
  (here : ∀ m, inv m → inv { m with tx := (step m.tx m.store).2 } ∧
    ∀ value, (step m.tx m.store).1 = .ok value → good value)

include here

theorem maintains_storage
    (raised : ∀ tx store failure, (step tx store).1 = .error failure → fair (.failure failure)) :
    Maintains inv (storage step) good fair := by
  intro m start
  obtain ⟨kept, answers⟩ := here m start
  exact ends_storage (fun value ok => ⟨kept, answers value ok⟩) fun failure error =>
    ⟨kept, raised _ _ failure error⟩

theorem maintains_referred (raised : ∀ tx store failure, (step tx store).1 = .error failure →
      fair (.failure failure.viaReference)) : Maintains inv (referred step) good fair := by
  intro m start
  obtain ⟨kept, answers⟩ := here m start
  exact ends_referred (fun value ok => ⟨kept, answers value ok⟩) fun failure error =>
    ⟨kept, raised _ _ failure error⟩

end Storage

theorem maintains_mapM {f : α → Exec β} (each : ∀ item, Maintains inv (f item) (fun _ => True) fair)
    (items : List α) : Maintains inv (items.mapM f) (fun _ => True) fair := by
  induction items with
  | nil => exact maintains_pure trivial
  | cons item items ih =>
    rw [List.mapM_cons]
    exact (each item).bind fun _ _ => ih.bind fun _ _ => maintains_pure trivial

theorem maintains_forM {f : α → Exec PUnit} (items : List α)
    (each : ∀ item ∈ items, Maintains inv (f item) (fun _ => True) fair) :
    Maintains inv (items.forM f) (fun _ => True) fair := by
  induction items with
  | nil => exact maintains_pure trivial
  | cons item items ih =>
    have rest := ih fun other member => each other (List.mem_cons_of_mem _ member)
    exact (each item List.mem_cons_self).bind fun _ _ => rest

/-! ## Types and names -/

section Names

variable [Excuses fair]

theorem maintains_resolveStruct {struct : StructExpr} :
    Maintains inv (resolveStruct setup struct) (fun _ => True) fair :=
  maintains_get.bind fun _ _ => (maintains_resolved fun _ _ => trivial).bind
    fun _ (_ : True) => maintains_pure trivial

theorem maintains_resolveType {type : TypeExpr} :
    Maintains inv (resolveType setup type) (fun _ => True) fair :=
  maintains_get.bind fun _ _ => (maintains_resolved fun _ _ => trivial).bind
    fun _ (_ : True) => maintains_pure trivial

theorem maintains_bindingIndex {name : String} :
    Maintains inv (bindingIndex name) (fun _ => True) fair :=
  maintains_get.bind fun _ _ => maintains_require fun _ _ => trivial

end Names

/-! ## Control -/

/-- What a returned value is held to. -/
def Flow.Returns (good : Value → Prop) : Flow → Prop
  | .next => True
  | .ret value => good value

theorem maintains_repeatWhile {cond : Exec Bool} {body : Exec Flow} {good : Value → Prop}
    (tests : Maintains inv cond (fun _ => True) fair)
    (runs : Maintains inv body (Flow.Returns good) fair) (bound : Nat)
    (raised : fair .outOfFuel) :
    Maintains inv (repeatWhile cond body bound) (Flow.Returns good) fair := by
  induction bound with
  | zero => exact maintains_throw raised
  | succ bound ih =>
    refine tests.bind fun holds _ => ?_
    cases holds with
    | false => exact maintains_pure trivial
    | true =>
      refine runs.bind fun flow returns => ?_
      cases flow with
      | next => exact ih
      | ret value => exact maintains_pure returns

/-- A call that is put on the account maintains what entering its frame and leaving it carry over to
the call and back. -/
theorem maintains_modify_inFrame {inside outside : Machine → Prop}
    (enter : ∀ m, inv m → inside ((change m).enter frame)) (leave : ∀ m, outside m → inv m.leave)
    (body : ∀ m, inside m → Ends x m (fun value m' => outside m' ∧ good value)
      fun stop m' => outside m' ∧ fair stop) :
    Maintains inv (modify change >>= fun _ => inFrame frame x) good fair := fun m start =>
  Ends.inFrame (m := change m) ((body _ (enter m start)).mono
    (fun _ m' => And.imp_left (leave m')) fun _ m' => And.imp_left (leave m'))

theorem maintains_inFrame {inside : Machine → Prop} (enter : ∀ m, inv m → inside (m.enter frame))
    (leave : ∀ m, inside m → inv m.leave) (body : Maintains inside x good fair) :
    Maintains inv (inFrame frame x) good fair := by
  have counted : Maintains inv (modify id >>= fun _ => inFrame frame x) good fair :=
    maintains_modify_inFrame enter leave body
  exact counted

/-- That a call is put on record when it returns does not matter to an invariant that does not look
at the record. -/
theorem Maintains.visiting {good : Value → Prop}
    (maintains : Maintains inv (modify change >>= fun _ => run) good fair)
    (noted : ∀ visit m, inv m → inv (noting visit m)) (id : FunctionId) (args : List Value) :
    Maintains inv (modify change >>= fun _ => visiting id args run) good fair := fun m start =>
  Ends.visiting (m := change m) ((maintains m start : Ends run (change m) _ _).mono
    (fun _ m' => And.imp_left (noted _ m')) fun _ _ here => here)

theorem maintains_visiting {good : Value → Prop} (maintains : Maintains inv run good fair)
    (noted : ∀ visit m, inv m → inv (noting visit m)) (id : FunctionId) (args : List Value) :
    Maintains inv (visiting id args run) good fair := by
  have counted : Maintains inv (modify (fun m => m) >>= fun _ => run) good fair := maintains
  exact counted.visiting noted id args

end Rules

end Custody.Exec
