import Custody.Machine.Entry
import Mathlib.Data.List.Basic
/-!
# What a run ensures

A run of the machine ensures a condition if it ends without a breach and, where it ends with a
value, the condition holds of the value and of the machine behind it. Failures that a program may
raise and exhausted loops are no breach. Runs are on terms: however one ends, the calls on record
that returned were fair, and if the terms are held, no reference led it to an empty slot. The rules
follow the primitives of the machine, so that proofs about programs never look at how a run is
threaded through.
-/

namespace Custody

variable {m m' : Machine} {callers : List Frame} {otherwise : Breach} {args : List Value}
  {run : Exec Value} {id : FunctionId} {caller : Frame}

/-- The machine stopped in a state that accepted programs are not supposed to reach. -/
def Stop.isBreach : Stop → Bool
  | .failure (.invariantViolation _) => true
  | _ => false

/-- The failure is such a stop. -/
def Failure.isBreach : Failure → Bool
  | .invariantViolation _ => true
  | _ => false

theorem Failure.isBreach_viaReference (failure : Failure) :
    failure.viaReference.isBreach = failure.isBreach := by
  cases failure <;> rfl

theorem Stop.isBreach_failure (failure : Failure) :
    (Stop.failure failure).isBreach = failure.isBreach := by
  cases failure <;> rfl

/-- Neither a breach nor the want of a resource. -/
def Failure.isOwn : Failure → Bool
  | .invariantViolation _ | .missing _ => false
  | _ => true

/-! ## Terms -/

/-- What runs are held to: what a call that returned must have done, and whether references are
known not to dangle. -/
structure Terms where
  fair : Visit → Prop
  held : Prop

/-- All calls on record that returned did so in good order. -/
def Machine.Clear (fair : Visit → Prop) (m : Machine) : Prop :=
  ∀ visit ∈ m.tally.returned, fair visit

theorem Machine.Clear.congr {fair : Visit → Prop} (clear : m.Clear fair)
    (kept : m'.tally.returned = m.tally.returned) : m'.Clear fair :=
  fun visit listed => clear visit (kept ▸ listed)

theorem Machine.tally_leave (m : Machine) : m.leave.tally = m.tally := by
  unfold Machine.leave
  split <;> rfl

/-- The newest operation on the account seeks a value in the slot. -/
def Seeks (key : SlotKey) (m : Machine) : Prop :=
  ∃ reach, m.tally.reached.head? = some reach ∧ reach.key = key ∧
    (reach.use = .moveFrom ∨ ∃ mutable, reach.use = .borrowGlobal mutable)

/-- If the machine stopped for want of a resource, it was the newest operation on its account that
sought the resource, and no reference led to the slot. -/
def Stop.MissedByOperation (stop : Stop) (m : Machine) : Prop :=
  ∀ absence, stop = .failure (.missing absence) → absence.viaReference = false ∧ Seeks absence.key m

/-- A stop that the terms allow. -/
structure Stop.Allowed (t : Terms) (stop : Stop) (m : Machine) : Prop where
  noBreach : stop.isBreach = false
  missed : t.held → stop.MissedByOperation m

section Allowed

variable {t : Terms} {key : SlotKey}

theorem Stop.Allowed.congr {stop : Stop} (allowed : stop.Allowed t m) (same : m'.tally = m.tally) :
    stop.Allowed t m' := by
  refine ⟨allowed.noBreach, fun held absence missing => ?_⟩
  rw [Seeks, same]
  exact allowed.missed held absence missing

theorem Stop.Allowed.of_isOwn {failure : Failure} (own : failure.isOwn = true) :
    (Stop.failure failure).Allowed t m := by
  constructor
  · cases failure <;> first | rfl | cases own
  · rintro _ absence same
    rw [Stop.failure.inj same] at own
    cases own

theorem Stop.Allowed.of_seeks (seeks : t.held → Seeks key m) :
    (Stop.failure (.missing key)).Allowed t m := by
  refine ⟨rfl, fun held absence same => ?_⟩
  obtain rfl : (key : Absence) = absence := Failure.missing.inj (Stop.failure.inj same)
  exact ⟨rfl, seeks held⟩

end Allowed

namespace Exec

/-- The machine with one more call on record that returned. -/
def noting (visit : Visit) (m : Machine) : Machine :=
  { m with tally := { m.tally with returned := visit :: m.tally.returned } }

/-- What is said of a run: one thing of a value and the machine behind it, another of a stop. -/
def Ends {α : Type} (x : Exec α) (m : Machine) (good : α → Machine → Prop)
    (fair : Stop → Machine → Prop) : Prop :=
  match x m with
  | .ok value m' => good value m'
  | .error stop m' => fair stop m'

section Ends

variable {α β : Type} {x : Exec α} {f : α → Exec β} {good good' : α → Machine → Prop}
  {fair fair' : Stop → Machine → Prop} {value : α} {stop : Stop}

theorem bind_of_ok (ran : x m = .ok value m') : (x >>= f) m = f value m' := by
  simp [Bind.bind, EStateM.bind, ran]

theorem bind_of_error (ran : x m = .error stop m') : (x >>= f) m = .error stop m' := by
  simp [Bind.bind, EStateM.bind, ran]

theorem visiting_of_ok {value : Value} (ran : run m = .ok value m') :
    visiting id args run m =
      .ok value (noting ⟨id, args, args.map m.behind?, args.map m'.behind?⟩ m') :=
  (bind_of_ok ran : (run >>= fun value => do
    modify fun n => noting ⟨id, args, args.map m.behind?, args.map n.behind?⟩ n
    return value) m = _)

theorem visiting_of_error (ran : run m = .error stop m') :
    visiting id args run m = .error stop m' :=
  (bind_of_error ran : (run >>= fun value => do
    modify fun n => noting ⟨id, args, args.map m.behind?, args.map n.behind?⟩ n
    return value) m = _)

theorem Ends.intro (onOk : ∀ value m', x m = .ok value m' → good value m')
    (onError : ∀ stop m', x m = .error stop m' → fair stop m') : Ends x m good fair := by
  unfold Ends
  split <;> simp_all

theorem Ends.of_ok (ends : Ends x m good fair) (ran : x m = .ok value m') : good value m' := by
  unfold Ends at ends
  rwa [ran] at ends

theorem Ends.of_error (ends : Ends x m good fair) (ran : x m = .error stop m') : fair stop m' := by
  unfold Ends at ends
  rwa [ran] at ends

theorem Ends.mono (ends : Ends x m good fair) (onOk : ∀ value m', good value m' → good' value m')
    (onError : ∀ stop m', fair stop m' → fair' stop m') : Ends x m good' fair' :=
  .intro (fun value m' ran => onOk value m' (ends.of_ok ran)) fun stop m' ran =>
    onError stop m' (ends.of_error ran)

theorem Ends.bind {good' : β → Machine → Prop} (first : Ends x m good fair)
    (rest : ∀ value m', good value m' → Ends (f value) m' good' fair) :
    Ends (x >>= f) m good' fair := by
  cases ran : x m with
  | ok value m' =>
    unfold Ends
    rw [bind_of_ok ran]
    exact rest value m' (first.of_ok ran)
  | error stop m' =>
    unfold Ends
    rw [bind_of_error ran]
    exact first.of_error ran

theorem Ends.inFrame {frame : Frame}
    (inside : Ends x (m.enter frame) (fun value m' => good value m'.leave)
      fun stop m' => fair stop m'.leave) : Ends (inFrame frame x) m good fair := by
  unfold Ends Exec.inFrame at *
  split at inside <;> simp_all

theorem Ends.visiting {good : Value → Machine → Prop} (ran : Ends run m (fun value m' =>
      good value (noting ⟨id, args, args.map m.behind?, args.map m'.behind?⟩ m')) fair) :
    Ends (visiting id args run) m good fair := by
  cases outcome : run m with
  | ok value m' =>
    unfold Ends
    rw [visiting_of_ok outcome]
    exact ran.of_ok outcome
  | error stop m' =>
    unfold Ends
    rw [visiting_of_error outcome]
    exact ran.of_error outcome

section Storage

variable {step : Operation (Except Failure α)}
  (here : ∀ value, (step m.tx m.store).1 = .ok value →
    good value { m with tx := (step m.tx m.store).2 })

include here

/-- A step of the transaction gives its value or fails, and leaves its buffer behind either way. -/
theorem ends_storage (failed : ∀ failure, (step m.tx m.store).1 = .error failure →
      fair (.failure failure) { m with tx := (step m.tx m.store).2 }) :
    Ends (storage step) m good fair := by
  have looked : Ends (look step) m (fun result m' =>
      result = (step m.tx m.store).1 ∧ m' = { m with tx := (step m.tx m.store).2 })
        fair := ⟨rfl, rfl⟩
  refine looked.bind ?_
  rintro _ _ ⟨rfl, rfl⟩
  cases outcome : (step m.tx m.store).1 with
  | ok value => exact here value outcome
  | error failure => exact failed failure outcome

/-- As `ends_storage`, where a reference led to the step. -/
theorem ends_referred (failed : ∀ failure, (step m.tx m.store).1 = .error failure →
      fair (.failure failure.viaReference) { m with tx := (step m.tx m.store).2 }) :
    Ends (referred step) m good fair := by
  refine ends_storage (fun value ok => ?_) fun failure error => ?_
  · cases outcome : (step m.tx m.store).1 with
    | error failure => simp [outcome, Except.mapError] at ok
    | ok found =>
      obtain rfl : found = value := by simpa [outcome, Except.mapError] using ok
      exact here found outcome
  · cases outcome : (step m.tx m.store).1 with
    | ok found => simp [outcome, Except.mapError] at error
    | error raised =>
      obtain rfl : raised.viaReference = failure := by simpa [outcome, Except.mapError] using error
      exact failed raised outcome

end Storage

end Ends

/-- No breach, and `good` of whatever comes out; calls on record are fair however the run ends. -/
def Ensures {α : Type} (t : Terms) (x : Exec α) (m : Machine) (good : α → Machine → Prop) : Prop :=
  m.Clear t.fair → Ends x m (fun value m' => m'.Clear t.fair ∧ good value m')
    fun stop m' => m'.Clear t.fair ∧ stop.Allowed t m'

section Rules

variable {t : Terms} {α β : Type} {x : Exec α} {good : α → Machine → Prop} {f : β → Exec α}
  {value : α}

theorem Ensures.mono {good' : α → Machine → Prop} (ensures : Ensures t x m good)
    (implied : ∀ value m', good value m' → good' value m') : Ensures t x m good' := fun clear =>
  (ensures clear).mono (fun value m' => And.imp_right (implied value m')) fun _ _ allowed => allowed

theorem Ensures.bind {f : α → Exec β} {good' : β → Machine → Prop} (first : Ensures t x m good)
    (rest : ∀ value m', good value m' → Ensures t (f value) m' good') :
    Ensures t (x >>= f) m good' :=
  fun clear => (first clear).bind fun value m' here => rest value m' here.2 here.1

theorem ensures_pure (here : good value m) : Ensures t (pure value) m good := fun clear =>
    ⟨clear, here⟩

theorem ensures_get {f : Machine → Exec α} (rest : Ensures t (f m) m good) :
    Ensures t (get >>= f) m good := rest

theorem ensures_set {f : PUnit → Exec α} (kept : m'.tally.returned = m.tally.returned)
    (rest : Ensures t (f ⟨⟩) m' good) : Ensures t (set m' >>= f) m good :=
  fun clear => rest (clear.congr kept)

theorem ensures_modify {change : Machine → Machine} {good : PUnit → Machine → Prop}
    (kept : (change m).tally.returned = m.tally.returned) (here : good ⟨⟩ (change m)) :
    Ensures t (modify change : Exec PUnit) m good :=
  fun clear => ⟨clear.congr kept, here⟩

theorem ensures_throw {stop : Stop} (allowed : stop.Allowed t m) :
    Ensures t (throw stop : Exec α) m good := fun clear => ⟨clear, allowed⟩

theorem ensures_fail {failure : Failure} (own : failure.isOwn = true) :
    Ensures t (fail failure : Exec α) m good := ensures_throw (.of_isOwn own)

theorem ensures_require {result : Option α} (found : result = some value) (here : good value m) :
    Ensures t (require result otherwise) m good := by
  rw [found]
  exact ensures_pure here

theorem ensures_sound {result : Except Breach α} (found : result = .ok value)
    (here : good value m) : Ensures t (sound result) m good := by
  rw [found]
  exact ensures_pure here

theorem ensures_bind_require {result : Option β} {value : β} (found : result = some value)
    (rest : Ensures t (f value) m good) : Ensures t (require result otherwise >>= f) m good := by
  rw [found]
  exact rest

theorem ensures_bind_sound {result : Except Breach β} {value : β} (found : result = .ok value)
    (rest : Ensures t (f value) m good) : Ensures t (sound result >>= f) m good := by
  rw [found]
  exact rest

theorem ensures_bind_resolved {result : Except Fault β} {value : β} (found : result = .ok value)
    (rest : Ensures t (f value) m good) : Ensures t (resolved result >>= f) m good := by
  rw [found]
  exact rest

theorem ensures_look {step : Operation α}
    (here : good (step m.tx m.store).1 { m with tx := (step m.tx m.store).2 }) :
    Ensures t (look step) m good := fun clear => ⟨clear, here⟩

section Storage

variable {step : Operation (Except Failure α)}
  (here : ∀ value, (step m.tx m.store).1 = .ok value →
    good value { m with tx := (step m.tx m.store).2 })

include here

/-- A step of the transaction either fails on its own account or gives its value. -/
theorem ensures_storage (allowed : ∀ failure, (step m.tx m.store).1 = .error failure →
      (Stop.failure failure).Allowed t m) : Ensures t (storage step) m good := fun clear =>
  ends_storage (fun value ok => ⟨clear, here value ok⟩) fun failure error =>
    ⟨clear, (allowed failure error).congr rfl⟩

/-- A step to which a reference led is not supposed to fail where the terms are held. -/
theorem ensures_referred
    (allowed : ∀ failure, (step m.tx m.store).1 = .error failure →
      failure.isBreach = false ∧ ¬ t.held) : Ensures t (referred step) m good := fun clear =>
  ends_referred (fun value ok => ⟨clear, here value ok⟩) fun failure error => by
    obtain ⟨noBreach, loose⟩ := allowed failure error
    refine ⟨clear, ?_, fun held => absurd held loose⟩
    rw [Stop.isBreach_failure, Failure.isBreach_viaReference, noBreach]

end Storage

theorem ensures_inFrame {frame : Frame} (inside : Ensures t x (m.enter frame) fun value m' =>
      good value m'.leave) : Ensures t (inFrame frame x) m good := by
  have left := Machine.tally_leave
  exact fun clear => Ends.inFrame ((inside clear).mono
    (fun _ m' ran => ⟨ran.1.congr (by rw [left m']), ran.2⟩)
    fun _ m' stopped => ⟨stopped.1.congr (by rw [left m']), stopped.2.congr (left m')⟩)

/-- A call goes on record when it returns. -/
theorem ensures_visiting {good : Value → Machine → Prop} (ran : Ensures t run m fun value m' =>
      t.fair ⟨id, args, args.map m.behind?, args.map m'.behind?⟩ ∧
        ∀ visit, good value (noting visit m')) : Ensures t (visiting id args run) m good := by
  refine fun clear => Ends.visiting ((ran clear).mono ?_ fun _ _ allowed => allowed)
  rintro value m' ⟨clear', inOrder, here⟩
  exact ⟨List.forall_mem_cons.mpr ⟨inOrder, clear'⟩, here _⟩

end Rules

/-- Every operator but the two logical ones evaluates both operands first. -/
theorem eval_eager {setup : Setup} {invoke : Invoke} {op : BinOp} {left right : Expr}
    (eager : op.isLogical = false) :
    eval setup invoke (.binary op left right) = (do
      let leftValue ← eval setup invoke left
      let rightValue ← eval setup invoke right
      binary op leftValue rightValue) := by
  cases op with
  | and | or => cases eager
  | _ => rw [eval] <;> (intro absurd; cases absurd)

end Exec

/-! ## Frames -/

/-- The value at a position of a frame, if there is one. -/
def Frame.value? (frame : Frame) (index : Nat) : Option Value :=
  (frame.bindings[index]?).bind (·.value)

namespace Machine

section Frames

@[simp] theorem frame?_top (m : Machine) : m.frame? m.callers.length = some m.current := by
  simp [frame?]

theorem local?_eq (m : Machine) (n index : Nat) :
    m.local? n index = (m.frame? n).bind (·.value? index) := rfl

@[simp] theorem local?_top (m : Machine) (index : Nat) :
    m.local? m.callers.length index = m.current.value? index := by
  rw [local?_eq, frame?_top, Option.bind_some]

theorem local?_of_height {depth : Nat} (height : m.callers.length = depth) (index : Nat) :
    m.local? depth index = m.current.value? index := by
  rw [← height, local?_top]

/-- A call leaves the frames below it where they are. -/
theorem frame?_enter {frame : Frame} {n : Nat} (within : n ≤ m.callers.length) :
    (m.enter frame).frame? n = m.frame? n := by
  unfold frame? enter
  simp only [List.length_cons]
  rw [if_neg (by omega), if_pos (by omega)]
  by_cases top : n = m.callers.length
  · simp [top]
  · rw [if_neg top, if_pos (by omega)]
    have position : m.callers.length + 1 - 1 - n = (m.callers.length - 1 - n) + 1 := by omega
    rw [position, List.getElem?_cons_succ]

theorem leave_eq (waiting : m.callers = caller :: callers) :
    m.leave = { m with current := caller, callers := callers } := by
  simp [leave, waiting]

theorem frame?_leave (waiting : m.callers = caller :: callers) {n : Nat}
    (within : n ≤ callers.length) : m.leave.frame? n = m.frame? n := by
  have entered : m = m.leave.enter m.current := by
    rw [leave_eq waiting]
    simp [enter, ← waiting]
  conv_rhs => rw [entered]
  exact (frame?_enter (by rw [leave_eq waiting]; exact within)).symm

/-! ### Changing a local -/

theorem frame?_modifyFrame (m : Machine) (n k : Nat) (change : Frame → Frame) :
    (m.modifyFrame n change).frame? k =
      if k = n then (m.frame? k).map change else m.frame? k := by
  unfold modifyFrame frame?
  by_cases top : n = m.callers.length
  · simp only [top, if_true]
    by_cases here : k = m.callers.length <;> simp [here]
  · by_cases below : n < m.callers.length
    · simp only [top, below, if_true, if_false, List.length_modify]
      by_cases here : k = m.callers.length
      · have differs : m.callers.length ≠ n := fun equal => top equal.symm
        simp [here, differs]
      · by_cases lower : k < m.callers.length
        · simp only [here, lower, if_true, if_false, List.getElem?_modify]
          by_cases same : k = n
          · simp [same]
          · have differs : m.callers.length - 1 - n ≠ m.callers.length - 1 - k := by omega
            simp [same, differs]
        · have differs : k ≠ n := by omega
          simp [here, lower, differs]
    · simp only [top, below, if_false]
      by_cases same : k = n
      · subst same
        simp [top, below]
      · simp [same]

/-- What a change of an item does not touch. -/
theorem map_modify {α β : Type} {view : α → β} {change : α → α}
    (same : ∀ item, view (change item) = view item) (items : List α) (index : Nat) :
    (items.modify index change).map view = items.map view := by
  induction items generalizing index with
  | nil => simp
  | cons item rest ih => cases index <;> simp [same, ih]

theorem map_modifyFrame {α : Type} {view : Frame → α} {change : Frame → Frame}
    (same : ∀ frame, view (change frame) = view frame) (m : Machine) (n : Nat) :
    ((m.modifyFrame n change).current :: (m.modifyFrame n change).callers).map view =
      (m.current :: m.callers).map view := by
  simp only [modifyFrame]
  split
  · simp [same]
  · split
    · simp [map_modify same]
    · rfl

@[simp] theorem callers_length_modifyFrame (m : Machine) (n : Nat) (change : Frame → Frame) :
    (m.modifyFrame n change).callers.length = m.callers.length := by
  simp only [modifyFrame]
  split
  · rfl
  · split
    · simp
    · rfl

end Frames

end Machine

/-- The frame with another value at a position. -/
def Frame.put (frame : Frame) (index : Nat) (value : Option Value) : Frame :=
  { frame with bindings := frame.bindings.modify index fun binding => { binding with value } }

theorem Frame.value?_put (frame : Frame) (index other : Nat) (value : Option Value) :
    (frame.put index value).value? other =
      if other = index then (frame.bindings[index]?).bind fun _ => value
      else frame.value? other := by
  simp only [Frame.value?, Frame.put, List.getElem?_modify]
  by_cases same : other = index
  · subst same
    cases frame.bindings[other]? <;> simp
  · have differs : index ≠ other := fun equal => same equal.symm
    simp [same, differs]

theorem Frame.names_put (frame : Frame) (index : Nat) (value : Option Value) :
    (frame.put index value).bindings.map (·.name) = frame.bindings.map (·.name) := by
  have same : ∀ binding : Binding, ({ binding with value } : Binding).name = binding.name :=
    fun _ => rfl
  exact Machine.map_modify same _ _

theorem Frame.getElem?_put (frame : Frame) {index other : Nat} (value : Option Value)
    (differs : other ≠ index) :
    (frame.put index value).bindings[other]? = frame.bindings[other]? := by
  have apart : index ≠ other := fun equal => differs equal.symm
  simp [Frame.put, apart]

namespace Machine

section Locals

variable (m : Machine) (n index : Nat) (value : Option Value)

theorem frame?_setLocal (k : Nat) :
    (m.setLocal n index value).frame? k =
      if k = n then (m.frame? k).map (·.put index value) else m.frame? k :=
  frame?_modifyFrame m n k (·.put index value)

@[simp] theorem height_setLocal : (m.setLocal n index value).callers.length = m.callers.length :=
  callers_length_modifyFrame _ _ _

@[simp] theorem tx_setLocal : (m.setLocal n index value).tx = m.tx := by
  simp only [setLocal, modifyFrame]
  split
  · rfl
  · split <;> rfl

@[simp] theorem store_setLocal : (m.setLocal n index value).store = m.store := by
  simp only [setLocal, modifyFrame]
  split
  · rfl
  · split <;> rfl

@[simp] theorem host_setLocal : (m.setLocal n index value).host = m.host := by
  simp only [setLocal, modifyFrame]
  split
  · rfl
  · split <;> rfl

@[simp] theorem tally_setLocal : (m.setLocal n index value).tally = m.tally := by
  simp only [setLocal, modifyFrame]
  split
  · rfl
  · split <;> rfl

theorem current_setLocal :
    (m.setLocal n index value).current =
      if m.callers.length = n then m.current.put index value else m.current := by
  have found := frame?_top (m.setLocal n index value)
  rw [height_setLocal, frame?_setLocal, frame?_top] at found
  split at found
  · rename_i top
    rw [if_pos top]
    exact (Option.some.inj found).symm
  · rename_i lower
    rw [if_neg lower]
    exact (Option.some.inj found).symm

theorem local?_setLocal_of_ne {k other : Nat} (differs : ¬ (k = n ∧ other = index)) :
    (m.setLocal n index value).local? k other = m.local? k other := by
  rw [local?_eq, local?_eq, frame?_setLocal]
  by_cases here : k = n
  · subst here
    have apart : other ≠ index := fun equal => differs ⟨rfl, equal⟩
    cases m.frame? k <;> simp [Frame.value?_put, apart]
  · rw [if_neg here]

theorem local?_setLocal_self {old : Value} (present : m.local? n index = some old) :
    (m.setLocal n index value).local? n index = value := by
  rw [local?_eq, Option.bind_eq_some_iff] at present
  obtain ⟨frame, found, there⟩ := present
  obtain ⟨binding, here, _⟩ := Option.bind_eq_some_iff.mp there
  rw [local?_eq, frame?_setLocal, if_pos rfl, found, Option.map_some, Option.bind_some,
    Frame.value?_put, if_pos rfl, here, Option.bind_some]

end Locals

end Machine

end Custody
