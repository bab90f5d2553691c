import Custody.Proofs.Execution.Judgements
import Custody.Proofs.Storage.Transfer
/-!
# Runs that keep to some slots

A run gets at storage in two ways: by an operation on a slot, which is then on its account, and
through a reference, which some operation made. So a run whose operations are on known slots, and
which finds no references into others, keeps to the known slots. Over another store that agrees on
them it does the same, step by step. None of this depends on the checker.
-/

namespace Custody

open Transaction Machine Value

/-- Some slots that are known, and two stores that hold the same in each of them. -/
structure Outlook where
  known : SlotKey → Prop
  base : Store
  other : Store
  agree : ∀ key, known key → base.get? key = other.get? key

variable {value : Value} {key : SlotKey} {view : Outlook} {m : Machine} {α : Type}
  {args : List Value} {setup : Setup}

/-! ## Slots that values lead to -/

/-- The slot that a reference leads into. -/
def RefRoot.slots : RefRoot → List SlotKey
  | .global key => [key]
  | .local _ _ | .host _ => []

namespace Value

/-- The slots that references inside a value lead into. -/
def slots : Value → List SlotKey := collect (·.root.slots) fun _ => []

/-- Every reference inside the value leads into a known slot, or into none. -/
def Rooted (view : Outlook) (value : Value) : Prop := ∀ key ∈ value.slots, view.known key

theorem rooted_of_slots (none : value.slots = []) : value.Rooted view := by
  intro key inside
  simp [none] at inside

theorem hereditary_rooted (view : Outlook) : Hereditary (Rooted view) := hereditary_collect

end Value

/-! ## Machines over another store -/

namespace Machine

/-- The machine, as if it had begun on that store. -/
def onto (m : Machine) (store : Store) : Machine := { m with store, tx := m.tx.onto store }

theorem onto_setLocal (m : Machine) (store : Store) (frame index : Nat) (slot : Option Value) :
    (m.onto store).setLocal frame index slot = (m.setLocal frame index slot).onto store := by
  unfold setLocal modifyFrame
  dsimp only [onto]
  split
  · rfl
  · split <;> rfl

theorem onto_leave (m : Machine) (store : Store) : (m.onto store).leave = m.leave.onto store := by
  cases waiting : m.callers with
  | nil => simp [leave, onto, waiting]
  | cons caller callers => simp [leave, onto, waiting]

theorem tx_leave (m : Machine) : m.leave.tx = m.tx := by
  unfold leave
  split <;> rfl

/-- The operations on the account are on known slots. -/
def Reaches (view : Outlook) (m : Machine) : Prop :=
  ∀ reach ∈ m.tally.reached, view.known reach.key

theorem reaches_leave : m.leave.Reaches view ↔ m.Reaches view := by
  unfold leave
  split <;> rfl

/-- What a known slot shows: a version that is up to date, and no reference into other slots. -/
def Shows (view : Outlook) (key : SlotKey) (entry : Entry) : Prop :=
  view.known key → entry.version = view.base.version key ∧
    ∀ value, entry.value = some value → value.Rooted view

/-- The machine has touched known slots only, and holds no reference into others. -/
structure KeepsTo (view : Outlook) (m : Machine) : Prop where
  holds : m.Holds (Rooted view) (Shows view) view.base
  touched : ∀ entry ∈ m.tx.entries.entries, view.known entry.1

namespace KeepsTo

/-- No touched slot is stale. -/
theorem fresh (keeps : m.KeepsTo view) : m.tx.stale? view.base = none := by
  refine stale?_eq_none fun entry listed => ?_
  have found := Table.get?_of_mem listed
  have shows := keeps.holds.slots entry.1 (keeps.touched entry listed)
  simpa [Transaction.entry, found] using shows.1

theorem record (keeps : m.KeepsTo view) (here : view.known key) {entry : Entry}
    (shows : Shows view key entry) :
    ({ m with tx := m.tx.record key entry } : Machine).KeepsTo view where
  holds := keeps.holds.record key shows
  touched := by
    intro other listed
    rcases mem_of_mem_insertByKey listed with rfl | old
    · exact here
    · exact keeps.touched other old

end KeepsTo

end Machine

namespace Exec

/-! ## The judgement -/

/-- A run whose operations are on known slots keeps to them, and goes the same way over the other
store. -/
def Confined (view : Outlook) : Judgement := fun _ x good =>
  ∀ m : Machine, m.KeepsTo view →
    Ends x m (fun value m' => m'.Reaches view →
        m'.KeepsTo view ∧ good value ∧ x (m.onto view.other) = .ok value (m'.onto view.other))
      fun stop m' => m'.Reaches view → x (m.onto view.other) = .error stop (m'.onto view.other)

section Rules

variable {β : Type} {x : Exec α} {good : α → Prop} {f : α → Exec β}

theorem confined_pure {value : α} (here : good value) :
    Confined view α (pure value) good := fun _ keeps _ => ⟨keeps, here, rfl⟩

theorem confined_throw (stop : Stop) : Confined view α (throw stop) good :=
  fun _ _ _ => rfl

theorem confined_breach (reason : Breach) : Confined view α (breach reason) good :=
  confined_throw _

/-- What is on the account at the end was known all along, since the account grows. -/
theorem Confined.bind {good' : β → Prop} (growing : ∀ value, Growing (f value))
    (first : Confined view α x good)
    (rest : ∀ value, good value → Confined view β (f value) good') :
    Confined view β (x >>= f) good' := by
  intro m keeps
  have began := first m keeps
  cases ran : x m with
  | error stop m₁ =>
    unfold Ends
    rw [bind_of_error ran]
    exact fun reaches => bind_of_error (began.of_error ran reaches)
  | ok value m₁ =>
    unfold Ends
    rw [bind_of_ok ran]
    cases next : f value m₁ with
    | ok value' m' =>
      intro reaches
      obtain ⟨keeps₁, here, same⟩ := began.of_ok ran fun reach happened =>
        reaches reach ((growing value).of_ok next happened)
      rw [bind_of_ok same]
      exact (rest value here m₁ keeps₁).of_ok next reaches
    | error stop m' =>
      intro reaches
      obtain ⟨keeps₁, here, same⟩ := began.of_ok ran fun reach happened =>
        reaches reach ((growing value).of_error next happened)
      rw [bind_of_ok same]
      exact (rest value here m₁ keeps₁).of_error next reaches

theorem Confined.andThen {good' : β → Prop} [growing : ∀ value, Growing (f value)]
    (first : Confined view α x good)
    (rest : ∀ value, good value → Confined view β (f value) good') :
    Confined view β (x >>= f) good' :=
  first.bind growing rest

/-- Reading what does not depend on the store. -/
theorem confined_get {f : Machine → Exec α} (same : ∀ m : Machine, f (m.onto view.other) = f m)
    (rest : ∀ m : Machine, m.KeepsTo view → Confined view α (f m) good) :
    Confined view α (get >>= f) good := by
  intro m keeps
  have there : (get >>= f) (m.onto view.other) = f m (m.onto view.other) :=
    congrFun (same m) (m.onto view.other)
  rw [there]
  exact rest m keeps m keeps

theorem confined_modify {change : Machine → Machine}
    (step : ∀ m : Machine, m.KeepsTo view → (change m).KeepsTo view)
    (same : ∀ m : Machine, change (m.onto view.other) = (change m).onto view.other) :
    Confined view PUnit (modify change) fun _ => True := by
  refine fun m keeps _ => ⟨step m keeps, trivial, ?_⟩
  rw [← same]
  rfl

theorem confined_require {result : Option α} {otherwise : Breach}
    (here : ∀ value, result = some value → good value) :
    Confined view α (require result otherwise) good := by
  cases result with
  | none => exact confined_breach _
  | some value => exact confined_pure (here value rfl)

theorem confined_resolved {result : Except Fault α} :
    Confined view α (resolved result) fun _ => True := by
  cases result with
  | error fault => exact confined_get (fun _ => rfl) fun _ _ => confined_breach _
  | ok value => exact confined_pure trivial

theorem confined_mapM [∀ item, Growing (f item)]
    (each : ∀ item, Confined view β (f item) fun _ => True) (items : List α) :
    Confined view (List β) (items.mapM f) fun _ => True := by
  induction items with
  | nil => exact confined_pure trivial
  | cons item items ih =>
    rw [List.mapM_cons]
    exact (each item).andThen fun _ _ => ih.andThen fun _ _ => confined_pure trivial

end Rules

/-! ## Steps on slots -/

/-- In a slot without references into others the effect leaves none, and its answer is a good
one. -/
def Answers (view : Outlook) (effect : Option Value → Effect α) (good : α → Prop) : Prop :=
  ∀ slot : Option Value, (∀ value, slot = some value → value.Rooted view) →
    (∀ value, (effect slot).value = some value → value.Rooted view) ∧ good (effect slot).answer

section Slots

variable {key : SlotKey} {good : α → Prop}

/-- A known slot is read and written in the same way over the other store. -/
theorem confined_look {effect : Option Value → Effect α}
    {step : Operation α} (onSlot : OnSlot key effect step)
    (here : view.known key) (leaves : Answers view effect good) :
    Confined view α (look step) good := by
  intro m keeps
  obtain ⟨version, held⟩ := keeps.holds.slots key here
  obtain ⟨left, answer⟩ := leaves _ held
  have carried : look step (m.onto view.other) = .ok (step m.tx m.store).1
      (onto { m with tx := (step m.tx m.store).2 } view.other) := by
    have agree' : m.store.get? key = view.other.get? key := keeps.holds.store ▸ view.agree key here
    have same : look step (m.onto view.other) = .ok (step (m.tx.onto view.other) view.other).1
        { m.onto view.other with tx := (step (m.tx.onto view.other) view.other).2 } := rfl
    rw [same, onSlot.onto agree' m.tx]
    rfl
  have kept : KeepsTo view { m with tx := (step m.tx m.store).2 } ∧
      good (step m.tx m.store).1 := by
    rw [onSlot]
    exact ⟨keeps.record here fun _ => ⟨version, left⟩, answer⟩
  exact fun _ => ⟨kept.1, kept.2, carried⟩

theorem confined_storage {effect : Option Value → Effect (Except Failure α)}
    {step : Operation (Except Failure α)}
    (onSlot : OnSlot key effect step) (here : view.known key)
    (leaves : Answers view effect fun result => ∀ value, result = .ok value → good value) :
    Confined view α (storage step) good := by
  have looked : Confined view _ (look step) fun result =>
      ∀ value, result = .ok value → good value := confined_look onSlot here leaves
  refine looked.bind (fun result => ?_) fun result answers => ?_
  · cases result <;> infer_instance
  · cases result with
    | error failure => exact confined_throw _
    | ok value => exact confined_pure (answers value rfl)

theorem confined_referred {effect : Option Value → Effect (Except Failure α)}
    {step : Operation (Except Failure α)}
    (onSlot : OnSlot key effect step) (here : view.known key)
    (leaves : Answers view effect fun result => ∀ value, result = .ok value → good value) :
    Confined view α (referred step) good := by
  have onSlot' : OnSlot key
      (fun slot => { effect slot with
        answer := (effect slot).answer.mapError Failure.viaReference })
      fun tx store => ((step tx store).1.mapError Failure.viaReference, (step tx store).2) := by
    intro tx store
    dsimp only
    rw [onSlot]
    rfl
  refine confined_storage onSlot' here fun slot rooted => ?_
  obtain ⟨left, answers⟩ := leaves slot rooted
  refine ⟨left, fun value answered => answers value ?_⟩
  dsimp only at answered
  cases outcome : (effect slot).answer with
  | error failure => simp [outcome, Except.mapError] at answered
  | ok found =>
    obtain rfl : found = value := by simpa [outcome, Except.mapError] using answered
    rfl

/-- An operation is on the account from its beginning, so its slot is known. -/
theorem confined_countReached {use : StructUse} {x : Exec α} [growing : Growing x]
    (rest : view.known key → Confined view α x good) :
    Confined view α (countReached use key >>= fun _ => x) good := by
  intro m keeps
  -- the machine with the operation on its account
  let m₁ : Machine := { m with tally := { m.tally with
    reached := ⟨use, key, m.current :: m.callers⟩ :: m.tally.reached } }
  have keeps₁ : m₁.KeepsTo view := ⟨{ keeps.holds with }, keeps.touched⟩
  refine Ends.intro (fun value m' ran reaches => ?_) fun stop m' ran reaches => ?_
  · have reached := reaches _ (growing.of_ok (m := m₁) ran List.mem_cons_self)
    exact (rest reached m₁ keeps₁).of_ok ran reaches
  · have reached := reaches _ (growing.of_error (m := m₁) ran List.mem_cons_self)
    exact (rest reached m₁ keeps₁).of_error ran reaches

end Slots

/-! ## Primitives -/

section Primitives

theorem confined_resolveStruct (struct : StructExpr) :
    Confined view _ (resolveStruct setup struct) fun _ => True :=
  confined_get (fun _ => rfl) fun _ _ => confined_resolved.andThen fun _ _ => confined_pure trivial

theorem confined_resolveType (type : TypeExpr) :
    Confined view _ (resolveType setup type) fun _ => True :=
  confined_get (fun _ => rfl) fun _ _ => confined_resolved.andThen fun _ _ => confined_pure trivial

theorem confined_bindingIndex (name : String) :
    Confined view _ (bindingIndex name) fun _ => True :=
  confined_get (fun _ => rfl) fun _ _ => confined_require fun _ _ => trivial

theorem confined_local (index : Nat) (otherwise : Breach) :
    Confined view _
      (do
        let m ← get
        require (m.local? m.top index) otherwise) (Rooted view) :=
  confined_get (fun _ => rfl) fun _ keeps => confined_require fun _ found =>
    keeps.holds.of_local? found

theorem confined_setLocal (frame : Machine → Nat) (index : Nat) {slot : Option Value}
    (same : ∀ m : Machine, frame (m.onto view.other) = frame m)
    (rooted : ∀ value, slot = some value → value.Rooted view) :
    Confined view PUnit (modify fun m => m.setLocal (frame m) index slot)
      fun _ => True := by
  refine confined_modify (fun m keeps => ⟨keeps.holds.setLocal _ _ rooted, ?_⟩) fun m => ?_
  · rw [tx_setLocal]
    exact keeps.touched
  · rw [same]
    exact m.onto_setLocal view.other _ _ _

theorem confined_readLocal (name : String) :
    Confined view _ (readLocal name) (Rooted view) :=
  (confined_bindingIndex name).andThen fun index _ => confined_local index _

theorem takeLocal_eq (name : String) :
    takeLocal name = (do
      let index ← bindingIndex name
      let value ← (do
        let m ← get
        require (m.local? m.top index) (.movedMove name))
      modify fun m => m.setLocal m.top index none
      return value) := by
  refine congrArg (bindingIndex name >>= ·) (funext fun index => funext fun m => ?_)
  change (require (m.local? m.top index) (.movedMove name) >>= _) m =
    (require (m.local? m.top index) (.movedMove name) >>= _) m
  cases m.local? m.top index <;> rfl

theorem confined_takeLocal (name : String) :
    Confined view _ (takeLocal name) (Rooted view) := by
  rw [takeLocal_eq]
  have emptied : ∀ index :
      Nat, Growing (modify fun m => m.setLocal m.top index none : Exec PUnit) :=
    fun index => growing_modify fun m => m.tally_setLocal _ _ _
  refine (confined_bindingIndex name).andThen fun index _ => (confined_local index _).andThen ?_
  intro value here
  refine Confined.andThen (confined_setLocal top index (fun _ => rfl) ?_) fun _ _ =>
    confined_pure here
  intro value absurd
  cases absurd

theorem confined_bind (name : String) (here : value.Rooted view) :
    Confined view _ (bind name value) fun _ => True :=
  confined_modify (fun _ keeps => ⟨keeps.holds.bind name here, keeps.touched⟩) fun _ => rfl

theorem confined_assign (name : String) (here : value.Rooted view) :
    Confined view _ (assign name value) fun _ => True := by
  refine (confined_bindingIndex name).bind (fun index => growing_modify fun m =>
    m.tally_setLocal _ _ _) ?_
  intro index _
  refine confined_setLocal top index (fun _ => rfl) ?_
  intro held same
  exact Option.some.inj same ▸ here

theorem confined_inScope {block : Exec Flow} {good : Flow → Prop}
    (runs : Confined view _ block good) :
    Confined view _ (inScope block) good := by
  refine confined_get (fun _ => rfl) fun before _ => ?_
  refine runs.bind (fun flow => ?_) fun flow returns => ?_
  · exact fun _ => @still_bind _ _ _ _ _ _ (still_modify fun _ here => here) inferInstance
  · refine Confined.andThen (confined_modify (fun m keeps => ?_) fun _ => rfl) fun _ _ =>
      confined_pure returns
    exact ⟨keeps.holds.shrink before.current.bindings.length, keeps.touched⟩

/-! ### Places -/

theorem confined_readRoot {root : RefRoot} (leads : ∀ key ∈ root.slots, view.known key) :
    Confined view _ (readRoot root) (Rooted view) := by
  cases root with
  | «local» frame index =>
    exact confined_get (fun _ => rfl) fun _ keeps => confined_require fun _ found =>
      keeps.holds.of_local? found
  | global key =>
    refine confined_referred (onSlot_read key) (leads key List.mem_cons_self) ?_
    intro slot rooted
    cases slot with
    | none => exact ⟨fun _ absurd => (by cases absurd), fun _ absurd => (by cases absurd)⟩
    | some held =>
      refine ⟨rooted, fun value answered => ?_⟩
      exact Except.ok.inj answered ▸ rooted held rfl
  | host index =>
    exact confined_get (fun _ => rfl) fun _ keeps => confined_require fun value found =>
      keeps.holds.host value (List.mem_of_getElem? found)

theorem confined_update (here : view.known key) (path : List Nat) {part : Value}
    (new : part.Rooted view) : Confined view _
      (referred fun tx store => tx.update store key (·.replaceAt path part)) fun _ => True := by
  refine confined_referred (onSlot_update key _) here fun slot rooted => ?_
  refine ⟨fun value left => ?_, fun _ _ => trivial⟩
  cases slot with
  | none => cases left
  | some held =>
    simp only [updateEffect] at left
    cases changed : held.replaceAt path part with
    | error step =>
      simp only [changed] at left
      exact rooted value left
    | ok replaced =>
      simp only [changed] at left
      exact Option.some.inj left ▸
        (hereditary_rooted view).replaceAt (rooted held rfl) new changed

end Primitives

/-! ## Programs -/

/-- Calls keep to the known slots and answer without references into others. -/
def ConfinedCalls (view : Outlook) (invoke : Invoke) : Prop :=
  ∀ id decl types args, (∀ arg ∈ args, arg.Rooted view) →
    Confined view _ (invoke id decl types args) (Rooted view)

section Programs

variable {invoke : Invoke}

theorem confined_callFunction [growing : GrowingCalls invoke]
    (calls : ConfinedCalls view invoke) (module : Option String) (function : String)
    (typeArgs : List TypeExpr) (values : ∀ arg ∈ args, arg.Rooted view) :
    Confined view _ (callFunction setup invoke module function typeArgs args)
      (Rooted view) := by
  refine (confined_mapM (fun type => confined_resolveType type) typeArgs).bind (fun types => ?_) ?_
  · refine fun reach => @still_bind _ _ _ _ _ _ still_get fun m => ?_
    dsimp only
    split
    · exact (growing reach).calls _ _ types args
    · infer_instance
  · intro types _
    refine confined_get (fun _ => rfl) fun m _ => ?_
    dsimp only
    split
    · exact calls _ _ types args values
    · exact confined_throw _

/-- Operations and references are the only ways to a slot. -/
theorem judges_confined [GrowingCalls invoke] (calls : ConfinedCalls view invoke) :
    Judges setup invoke (Rooted view) (fun _ => True) (Confined view) where
  hereditary := hereditary_rooted view
  reference := fun here same key inside => here key (by rwa [slots, collect, ← same])
  signer := fun _ => trivial
  pure := confined_pure
  bind := fun growing first rest => first.bind growing rest
  stop := confined_throw
  raise := fun _ => confined_get (fun _ => rfl) fun _ _ => confined_throw _
  resolveStruct := confined_resolveStruct
  countPacked := fun _ =>
    confined_modify (fun _ keeps => ⟨{ keeps.holds with }, keeps.touched⟩) fun _ => rfl
  countUnpacked := fun _ =>
    confined_modify (fun _ keeps => ⟨{ keeps.holds with }, keeps.touched⟩) fun _ => rfl
  readLocal := confined_readLocal
  takeLocal := confined_takeLocal
  borrowLocal := fun _ name => (confined_bindingIndex name).andThen fun _ _ =>
    confined_get (fun _ => rfl) fun _ _ => confined_pure (rooted_of_slots rfl)
  bindLocal := fun name _ here => confined_bind name here
  assign := fun name _ here => confined_assign name here
  inScope := confined_inScope
  readRoot := fun here => confined_readRoot here
  setLocal := fun {_ frame index _} _ _ here => confined_setLocal (fun _ => frame) index
    (fun _ => rfl) fun _ same => Option.some.inj same ▸ here
  setHost := fun index _ here =>
    confined_modify (fun _ keeps => ⟨keeps.holds.setHost index here, keeps.touched⟩) fun _ => rfl
  update := fun {reference key} _ here root new => by
    have leads : ∀ key ∈ reference.root.slots, view.known key := here
    rw [root] at leads
    exact confined_update (leads key List.mem_cons_self) reference.path new
  call := fun module function typeArgs _ => confined_callFunction calls module function typeArgs
  moveTo := by
    intro key value _ here
    refine confined_countReached fun reached => ?_
    refine Confined.andThen (confined_storage (onSlot_moveTo key value) reached ?_)
      fun _ (_ : True) => confined_pure (rooted_of_slots rfl)
    intro slot rooted
    refine ⟨fun left found => ?_, fun _ _ => trivial⟩
    cases slot with
    | none => exact Option.some.inj found ▸ here
    | some held => exact rooted left found
  moveFrom := by
    intro key
    refine confined_countReached fun reached => ?_
    refine confined_storage (onSlot_moveFrom key) reached fun slot rooted => ?_
    cases slot with
    | none => exact ⟨fun _ absurd => (by cases absurd), fun _ absurd => (by cases absurd)⟩
    | some held =>
      refine ⟨fun _ absurd => (by cases absurd), fun value answered => ?_⟩
      exact Except.ok.inj answered ▸ rooted held rfl
  borrowGlobal := by
    intro mutable key
    refine confined_countReached fun reached => ?_
    refine Confined.andThen (confined_storage (onSlot_read key) reached ?_)
      fun _ (_ : True) => confined_pure (List.forall_mem_singleton.mpr reached)
    intro slot rooted
    cases slot with
    | none => exact ⟨fun _ absurd => (by cases absurd), fun _ _ => trivial⟩
    | some held => exact ⟨rooted, fun _ _ => trivial⟩
  existsAt := by
    intro key
    refine confined_countReached fun reached => ?_
    refine Confined.andThen (confined_look (onSlot_existsAt key) reached
      fun slot rooted => ⟨rooted, trivial⟩) fun _ (_ : True) => ?_
    exact confined_pure (rooted_of_slots rfl)

theorem confined_inFrame {x : Exec α} {good : α → Prop} {frame : Frame}
    (holds : frame.Holds (Rooted view)) (body : Confined view α x good) :
    Confined view α (inFrame frame x) good := by
  intro m keeps
  have entered : (m.enter frame).KeepsTo view := ⟨keeps.holds.enter holds, keeps.touched⟩
  refine Ends.inFrame ((body (m.enter frame) entered).mono (fun value m₁ ran reaches => ?_)
    fun stop m₁ ran reaches => ?_)
  · obtain ⟨keeps₁, good, same⟩ := ran (reaches_leave.mp reaches)
    have left : m₁.leave.KeepsTo view := by
      refine ⟨keeps₁.holds.leave, ?_⟩
      rw [tx_leave]
      exact keeps₁.touched
    refine ⟨left, good, ?_⟩
    have same' : x ((m.onto view.other).enter frame) = .ok value (m₁.onto view.other) := same
    simp only [inFrame, same', onto_leave]
  · have same' : x ((m.onto view.other).enter frame) = .error stop (m₁.onto view.other) :=
      ran (reaches_leave.mp reaches)
    simp only [inFrame, same', onto_leave]

/-- What a reference into known slots leads to is the same over the other store. -/
theorem behind?_onto (keeps : m.KeepsTo view) (rooted : value.Rooted view) :
    (m.onto view.other).behind? value = m.behind? value := by
  cases value with
  | ref reference =>
    have same : (m.onto view.other).root? reference.root = m.root? reference.root := by
      cases root : reference.root with
      | «local» frame index => rfl
      | host index => rfl
      | global key =>
        have here : view.known key :=
          rooted key (by rw [slots, collect, root]; exact List.mem_singleton_self key)
        have agree' : m.store.get? key = view.other.get? key :=
          keeps.holds.store ▸ view.agree key here
        have shown := congrArg Entry.value (@entry_onto _ _ m.tx _ agree')
        exact shown
    rw [behind?, behind?, at?, at?, same]
  | _ => rfl

theorem confined_visiting {id : FunctionId} {run : Exec Value} {good : Value → Prop}
    (rooted : ∀ arg ∈ args, arg.Rooted view) (ran : Confined view Value run good) :
    Confined view Value (visiting id args run) good := by
  intro m keeps
  have alike : ∀ {n : Machine}, n.KeepsTo view →
      args.map (n.onto view.other).behind? = args.map n.behind? := fun keeps =>
    List.map_congr_left fun arg listed => behind?_onto keeps (rooted arg listed)
  refine Ends.visiting ((ran m keeps).mono (fun value m₁ went reaches => ?_) fun _ _ went reaches =>
    visiting_of_error (went reaches))
  obtain ⟨keeps₁, here, same⟩ := went reaches
  refine ⟨⟨{ keeps₁.holds with }, keeps₁.touched⟩, here, ?_⟩
  rw [visiting_of_ok same, alike keeps, alike keeps₁]
  rfl

/-- Calls to any depth, by induction on how many more may be active. -/
theorem confined_call (depth : Nat) : ConfinedCalls view (call setup depth) := by
  induction depth with
  | zero =>
    intro id decl types args values
    exact confined_throw _
  | succ depth ih =>
    intro id decl types args values
    have counted : Confined view _ (countEntered (callFrame id decl types args))
        fun _ => True :=
      confined_modify (fun _ keeps => ⟨{ keeps.holds with }, keeps.touched⟩) fun _ => rfl
    exact counted.andThen fun _ _ => confined_visiting values
      (confined_inFrame (holds_callFrame id decl types values)
        ((judges_confined ih).runBody decl))

theorem confined_runBody (depth : Nat) (decl : FunctionDecl) :
    Confined view _ (runBody setup (call setup depth) decl) (Rooted view) :=
  (judges_confined (confined_call depth)).runBody decl

end Programs

end Exec

end Custody
