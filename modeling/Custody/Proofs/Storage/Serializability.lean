import Mathlib.Data.Finmap
import Mathlib.Data.Finset.Card
import Custody.Proofs.Storage.Transfer
/-!
# Transactions are serializable

Any number of transactions run over one store, their steps interleaved with each other, with commits
and with resources published by the host. The transactions that commit answered what they would have
answered had each run alone, in the order of the commits, on a plain map from slots to values, and
the store holds what that map holds.

A transaction notes the version of a slot when it first touches it. Versions come from one clock and
are never given out twice, so a slot that still has the version noted for it holds the value read
then, however often it was emptied and filled in between.
-/

namespace Custody.Concurrent

open Transaction

variable {resource : Resource} {entry : Entry}

/-! ## Steps on a plain map -/

/-- A step of a transaction. A slot borrowed for writing comes with what its borrower makes of the
value in it. -/
inductive Step where
  | existsAt (key : SlotKey)
  | moveTo (key : SlotKey) (value : Value)
  | moveFrom (key : SlotKey)
  | borrow (key : SlotKey)
  | borrowMut (key : SlotKey) (change : Value → Value)

/-- What a step answers. A borrow answers the value borrowed. -/
inductive Answer where
  | present (found : Bool)
  | placed (result : Except Failure Unit)
  | value (result : Except Failure Value)

namespace Step

/-- The slot that a step is about. -/
def key : Step → SlotKey
  | .existsAt key | .moveTo key _ | .moveFrom key | .borrow key | .borrowMut key _ => key

/-- What a step answers when its slot holds `held`, and what it makes of the slot. -/
def effect : Step → Option Value → Effect Answer
  | .existsAt _, held => (existsEffect held).map .present
  | .moveTo key value, held => (moveToEffect key value held).map .placed
  | .moveFrom key, held => (moveFromEffect key held).map .value
  | .borrow key, held => (readEffect key held).map .value
  | .borrowMut key change, held =>
    let answer := (readEffect key held).answer
    (updateEffect key (fun value => (.ok (change value) : Except Failure Value)) held).map
      fun _ => .value answer

/-- A step that does not write leaves what it found. -/
theorem value_effect (step : Step) (held : Option Value)
    (clean : (step.effect held).dirties = false) : (step.effect held).value = held := by
  cases step <;> cases held <;>
    simp_all [effect, Effect.map, existsEffect, moveToEffect, moveFromEffect, readEffect,
      updateEffect]

end Step

/-- A plain map from slots to values. -/
abbrev Ledger := Finmap fun _ : SlotKey => Value

namespace Ledger

/-- Fill or empty a slot. -/
def set (ledger : Ledger) (key : SlotKey) : Option Value → Ledger
  | some value => ledger.insert key value
  | none => ledger.erase key

@[simp] theorem lookup_set (ledger : Ledger) (key other : SlotKey) (value : Option Value) :
    (ledger.set key value).lookup other = if other = key then value else ledger.lookup other := by
  by_cases same : other = key
  · subst same
    cases value with
    | none => simp [set]
    | some value => simp [set]
  · cases value with
    | none => simp [set, same, Finmap.lookup_erase_ne same]
    | some value => simp [set, same, Finmap.lookup_insert_of_ne _ same]

end Ledger

/-- A transaction running alone: the map, the slots it has written and what it has answered. -/
structure Solo where
  ledger : Ledger
  written : Finset SlotKey := ∅
  answers : List Answer := []

namespace Solo

/-- A step takes effect at once. -/
def step (solo : Solo) (step : Step) : Solo :=
  let effect := step.effect (solo.ledger.lookup step.key)
  let answers := solo.answers ++ [effect.answer]
  if effect.dirties then
    ⟨solo.ledger.set step.key effect.value, insert step.key solo.written, answers⟩
  else { solo with answers }

/-- All steps, one after another. -/
def run (ledger : Ledger) (steps : List Step) : Solo := steps.foldl step ⟨ledger, ∅, []⟩

section Step

variable (solo : Solo) (step : Step) (key : SlotKey)

@[simp] theorem answers_step : (solo.step step).answers =
    solo.answers ++ [(step.effect (solo.ledger.lookup step.key)).answer] := by
  unfold Solo.step
  dsimp only
  split <;> rfl

/-- A step that writes nothing leaves in its slot what it found. -/
@[simp] theorem lookup_step : (solo.step step).ledger.lookup key =
    if key = step.key then (step.effect (solo.ledger.lookup step.key)).value
    else solo.ledger.lookup key := by
  cases dirties : (step.effect (solo.ledger.lookup step.key)).dirties with
  | true => simp [Solo.step, dirties]
  | false =>
    by_cases same : key = step.key
    · subst same
      simp [Solo.step, dirties, step.value_effect]
    · simp [Solo.step, dirties, same]

@[simp] theorem mem_written_step : key ∈ (solo.step step).written ↔ key ∈ solo.written ∨
    key = step.key ∧ (step.effect (solo.ledger.lookup step.key)).dirties = true := by
  cases dirties : (step.effect (solo.ledger.lookup step.key)).dirties <;>
    simp [Solo.step, dirties, or_comm]

end Step

end Solo

/-- What can be done to storage at one point in time. -/
inductive Job where
  | transaction (steps : List Step)
  | seed (resource : Resource)

/-- What was answered: by a transaction to each step and to its commit, the number of slots written;
to the host. -/
inductive Outcome where
  | transaction (answers : List Answer) (written : Nat)
  | seed (result : Except Failure Unit)

/-- Publish a struct in an empty slot. -/
def Ledger.seed (ledger : Ledger) (resource : Resource) : Except Failure Ledger :=
  match resource.value.tag? with
  | none => .error (.invalidArgument (.notStorable resource.value.kind))
  | some tag =>
    let key : SlotKey := ⟨resource.address, tag⟩
    if (ledger.lookup key).isSome then .error (.alreadyExists key)
    else .ok (ledger.insert key resource.value)

/-- A job done alone. -/
def Job.run (ledger : Ledger) : Job → Outcome × Ledger
  | .transaction steps =>
    let solo := Solo.run ledger steps
    (.transaction solo.answers solo.written.card, solo.ledger)
  | .seed resource =>
    match ledger.seed resource with
    | .ok seeded => (.seed (.ok ()), seeded)
    | .error failure => (.seed (.error failure), ledger)

/-- Run the jobs one at a time. -/
def runSerially (jobs : List Job) (ledger : Ledger) : List Outcome × Ledger :=
  jobs.foldl (fun (outcomes, ledger) job =>
    let (outcome, ledger) := job.run ledger
    (outcomes ++ [outcome], ledger)) ([], ledger)

theorem runSerially_concat (jobs : List Job) (job : Job) (ledger : Ledger) :
    runSerially (jobs ++ [job]) ledger =
      let before := runSerially jobs ledger
      let after := job.run before.2
      (before.1 ++ [after.1], after.2) := by
  simp [runSerially]

/-! ## Steps of interleaved transactions -/

/-- Take one step of a transaction over a store. -/
def Step.run (tx : Transaction) (store : Store) : Step → Answer × Transaction
  | .existsAt key =>
    let (found, tx) := tx.existsAt store key
    (.present found, tx)
  | .moveTo key value =>
    let (result, tx) := tx.moveTo store key value
    (.placed result, tx)
  | .moveFrom key =>
    let (result, tx) := tx.moveFrom store key
    (.value result, tx)
  | .borrow key =>
    let (result, tx) := tx.read store key
    (.value result, tx)
  | .borrowMut key change =>
    let (result, _) := tx.read store key
    let (_, tx) := tx.update store key fun value => (.ok (change value) : Except Failure Value)
    (.value result, tx)

/-- A transaction under way, with what it was asked and what it answered. -/
structure Session where
  tx : Transaction := .begin
  steps : List Step := []
  answers : List Answer := []

/-- A step, kept with its answer. -/
def Session.step (session : Session) (store : Store) (step : Step) : Session :=
  let (answer, tx) := step.run session.tx store
  ⟨tx, session.steps ++ [step], session.answers ++ [answer]⟩

/-- What happens next. Transactions go by number. -/
inductive Event where
  | begin (name : Nat)
  | step (name : Nat) (step : Step)
  | commit (name : Nat)
  | drop (name : Nat)
  | seed (resource : Resource)

/-- A store, the transactions under way and what has been committed, oldest first. -/
structure Host where
  store : Store := ∅
  sessions : Nat → Option Session := fun _ => none
  committed : List (Job × Outcome) := []

namespace Host

/-- Set what goes by a number. -/
def put (host : Host) (name : Nat) (session : Option Session) : Host :=
  { host with sessions := Function.update host.sessions name session }

/-- One event. A transaction that is not under way takes no steps. -/
def advance (host : Host) : Event → Host
  | .begin name => host.put name (some {})
  | .drop name => host.put name none
  | .step name step =>
    match host.sessions name with
    | some session => host.put name (some (session.step host.store step))
    | none => host
  | .commit name =>
    match host.sessions name with
    | some session =>
      match session.tx.commit host.store with
      | .ok (written, store) =>
        { host.put name none with
          store
          committed := host.committed ++
            [(.transaction session.steps, .transaction session.answers written)] }
      | .error _ => host.put name none
    | none => host
  | .seed resource =>
    match host.store.seed resource with
    | .ok store =>
      { host with store, committed := host.committed ++ [(.seed resource, .seed (.ok ()))] }
    | .error failure =>
      { host with committed := host.committed ++ [(.seed resource, .seed (.error failure))] }

/-- All events, from an empty store. -/
def run (events : List Event) : Host := events.foldl advance {}

end Host

/-! ## What one step does

Every step looks at its slot and records what it found there, or what it wrote. -/

/-- The entry that a step leaves for its slot. -/
def Step.leaves (step : Step) (entry : Entry) : Entry := (step.effect entry.value).leaves entry

@[simp] theorem Step.version_leaves (step : Step) (entry : Entry) :
    (step.leaves entry).version = entry.version := rfl

/-- A step answers from what the transaction sees in its slot and records what it leaves there. -/
theorem Step.run_eq (step : Step) (tx : Transaction) (store : Store) :
    step.run tx store =
      let entry := tx.entry store step.key
      ((step.effect entry.value).answer, tx.record step.key (step.leaves entry)) := by
  cases step with
  | existsAt key => exact (onSlot_existsAt key).map Answer.present tx store
  | moveTo key value => exact (onSlot_moveTo key value).map Answer.placed tx store
  | moveFrom key => exact (onSlot_moveFrom key).map Answer.value tx store
  | borrow key => exact (onSlot_read key).map Answer.value tx store
  | borrowMut key change =>
    have answer := onSlot_read key tx store
    have left := onSlot_update key (fun value => (.ok (change value) : Except Failure Value)) tx
      store
    dsimp only at answer left
    rw [run, answer, left]
    rfl

/-! ## What a transaction has seen

The invariant of a transaction under way is stated about the values `seen` in the slots it touched:
as long as the store still has them, running its steps alone gives the same answers. -/

/-- An entry made when the slot held `seen`. -/
structure Noted (store : Store) (key : SlotKey) (seen : Option Value) (entry : Entry) : Prop where
  bounded : entry.version ≤ store.clock
  /-- A slot whose version has not changed holds what was seen. -/
  current : store.version key = entry.version → store.get? key = seen
  /-- Emptying a slot gives it the version 0 again, so an entry with that version saw none. -/
  empty : entry.version = 0 → seen = none
  clean : entry.dirty = false → entry.value = seen

/-- Running the steps of a session alone on the map gives its answers, and a map that differs as the
buffered writes say. -/
structure Replays (session : Session) (ledger : Ledger) : Prop where
  answers : (Solo.run ledger session.steps).answers = session.answers
  lookup : ∀ key, (Solo.run ledger session.steps).ledger.lookup key =
    match session.tx.entries.get? key with
    | some entry => entry.value
    | none => ledger.lookup key
  written : ∀ key, key ∈ (Solo.run ledger session.steps).written ↔
    ∃ entry, session.tx.entries.get? key = some entry ∧ entry.dirty = true

/-- A session that has seen these values in the slots it touched. -/
structure Session.Saw (session : Session) (store : Store) (seen : SlotKey → Option Value) :
    Prop where
  noted : ∀ key entry, session.tx.entries.get? key = some entry → Noted store key (seen key) entry
  replays : ∀ ledger : Ledger,
    (∀ key entry, session.tx.entries.get? key = some entry → ledger.lookup key = seen key) →
    Replays session ledger

variable {store : Store} {session : Session} {seen : SlotKey → Option Value} {ledger : Ledger}
  {host : Host}

theorem saw_begin (store : Store) (seen : SlotKey → Option Value) : Session.Saw {} store seen where
  noted := fun _ _ touched => nomatch touched
  replays := fun _ _ => ⟨rfl, fun _ => rfl, by simp [Solo.run, begin]⟩

/-- An untouched slot can be taken to have been seen as it is now. -/
theorem Session.Saw.look (saw : session.Saw store seen) (stamped : store.Stamped) (key : SlotKey) :
    ∃ seen', session.Saw store seen' ∧
      Noted store key (seen' key) (session.tx.entry store key) ∧
      (session.tx.entries.get? key = none → (session.tx.entry store key).dirty = false) := by
  cases touched : session.tx.entries.get? key with
  | some entry =>
    refine ⟨seen, saw, ?_, fun absent => nomatch absent⟩
    simpa [Transaction.entry, touched] using saw.noted key entry touched
  | none =>
    have elsewhere : ∀ other entry, session.tx.entries.get? other = some entry →
        Function.update seen key (store.get? key) other = seen other := by
      intro other entry found
      have differs : other ≠ key := by
        rintro rfl
        simp [touched] at found
      simp [differs]
    refine ⟨Function.update seen key (store.get? key), ⟨?_, ?_⟩, ?_, ?_⟩
    · intro other entry found
      rw [elsewhere other entry found]
      exact saw.noted other entry found
    · intro ledger agrees
      refine saw.replays ledger fun other entry found => ?_
      rw [agrees other entry found, elsewhere other entry found]
    · rw [Function.update_self]
      simp only [entry, touched]
      exact ⟨stamped.version_le key, fun _ => rfl, stamped.get?_of_version_zero, fun _ => rfl⟩
    · simp [entry, touched]

theorem Noted.leaves {key : SlotKey} {seen : Option Value} (noted : Noted store key seen entry)
    (step : Step) : Noted store key seen (step.leaves entry) := by
  refine ⟨noted.bounded, noted.current, noted.empty, fun unmarked => ?_⟩
  obtain ⟨clean, unwritten⟩ : entry.dirty = false ∧ (step.effect entry.value).dirties = false :=
    Bool.or_eq_false_iff.mp unmarked
  exact (step.value_effect _ unwritten).trans (noted.clean clean)

/-- If running the steps so far alone gives the same answers, so does one more step: alone, it finds
in its slot what the transaction sees there. -/
theorem Replays.step (replays : Replays session ledger) (store : Store) (step : Step)
    (found : session.tx.entries.get? step.key = none →
      ledger.lookup step.key = (session.tx.entry store step.key).value ∧
        (session.tx.entry store step.key).dirty = false) :
    Replays (session.step store step) ledger := by
  have held : (Solo.run ledger session.steps).ledger.lookup step.key =
      (session.tx.entry store step.key).value := by
    rw [replays.lookup]
    cases touched : session.tx.entries.get? step.key with
    | none => exact (found touched).1
    | some entry => simp [Transaction.entry, touched]
  have marked : step.key ∈ (Solo.run ledger session.steps).written ↔
      (session.tx.entry store step.key).dirty = true := by
    rw [replays.written]
    cases touched : session.tx.entries.get? step.key with
    | none => simp [(found touched).2]
    | some entry => simp [Transaction.entry, touched]
  have advanced : Solo.run ledger (session.step store step).steps =
      (Solo.run ledger session.steps).step step := by
    simp [Session.step, Solo.run]
  have left : ∀ key, (session.step store step).tx.entries.get? key =
      if key = step.key then some (step.leaves (session.tx.entry store step.key))
      else session.tx.entries.get? key := by
    simp [Session.step, Step.run_eq]
  refine ⟨?_, fun key => ?_, fun key => ?_⟩ <;> rw [advanced]
  · simp [Session.step, Step.run_eq, held, replays.answers]
  · by_cases same : key = step.key
    · simp [left, same, held, Step.leaves, Effect.leaves]
    · simp [left, same, replays.lookup]
  · by_cases same : key = step.key
    · simp [left, same, held, marked, Step.leaves, Effect.leaves]
    · simp [left, same, replays.written]

theorem Session.Saw.step (saw : session.Saw store seen) (stamped : store.Stamped) (step : Step) :
    ∃ seen', (session.step store step).Saw store seen' := by
  obtain ⟨seen', saw', noted, fresh⟩ := saw.look stamped step.key
  refine ⟨seen', ?_, ?_⟩
  · intro key entry found
    rw [Session.step, Step.run_eq] at found
    simp only [get?_record] at found
    split at found
    · rename_i same
      subst same
      exact Option.some.inj found ▸ noted.leaves step
    · exact saw'.noted key entry found
  · intro ledger agrees
    rw [Session.step, Step.run_eq] at agrees
    simp only [get?_record] at agrees
    have replays : Replays session ledger := by
      refine saw'.replays ledger fun key entry found => ?_
      by_cases same : key = step.key
      · exact agrees key (step.leaves (session.tx.entry store step.key)) (if_pos same)
      · exact agrees key entry (by rw [if_neg same]; exact found)
    refine replays.step store step fun untouched => ⟨?_, fresh untouched⟩
    rw [agrees step.key (step.leaves (session.tx.entry store step.key)) (if_pos rfl)]
    exact (noted.clean (fresh untouched)).symm

/-! ## What a write to the store leaves of it -/

theorem Noted.write {key : SlotKey} {seen : Option Value} (noted : Noted store key seen entry)
    (written : SlotKey) (value : Option Value) :
    Noted (store.write written value) key seen entry := by
  refine ⟨?_, ?_, noted.empty, noted.clean⟩
  · rw [Store.clock_write]
    exact Nat.le_succ_of_le noted.bounded
  · rw [Store.version_write, Store.get?_write]
    by_cases same : key = written
    · have bounded := noted.bounded
      cases value with
      | some value =>
        -- The new version is beyond the clock that bounds the noted one.
        simp only [same, if_true, Option.isSome_some]
        intro stamp
        omega
      | none =>
        intro stamp
        simp only [same, if_true, Option.isSome_none, Bool.false_eq_true, if_false] at stamp
        simpa [same] using (noted.empty stamp.symm).symm
    · simpa [same] using noted.current

theorem Session.Saw.write (saw : session.Saw store seen) (key : SlotKey) (value : Option Value) :
    session.Saw (store.write key value) seen :=
  ⟨fun other entry found => (saw.noted other entry found).write key value, saw.replays⟩

theorem stamped_writeAll (stamped : store.Stamped) (writes : List (SlotKey × Option Value)) :
    (store.writeAll writes).Stamped := by
  induction writes generalizing store with
  | nil => exact stamped
  | cons write rest ih =>
    exact ih (stamped.write write.1 write.2)

theorem Session.Saw.writeAll (saw : session.Saw store seen)
    (writes : List (SlotKey × Option Value)) : session.Saw (store.writeAll writes) seen := by
  induction writes generalizing store with
  | nil => exact saw
  | cons write rest ih =>
    exact ih (saw.write write.1 write.2)

/-! ## Whole histories -/

/-- The map holds what the store holds. -/
def Holds (ledger : Ledger) (store : Store) : Prop := ∀ key, ledger.lookup key = store.get? key

/-- The store and the committed answers are those of a serial run, and every transaction under way
saw values that make it replay as long as they are current. -/
structure Host.Serial (host : Host) : Prop where
  stamped : host.store.Stamped
  saw : ∀ name session, host.sessions name = some session → ∃ seen, session.Saw host.store seen
  serial : ∃ ledger, runSerially (host.committed.map (·.1)) ∅ = (host.committed.map (·.2), ledger) ∧
    Holds ledger host.store

theorem serial_initial : Host.Serial {} where
  stamped := Store.stamped_empty
  saw := fun _ _ found => nomatch found
  serial := ⟨∅, rfl, fun _ => Finmap.lookup_empty _⟩

theorem Host.Serial.put (serial : host.Serial) (name : Nat) (session : Option Session)
    (saw : ∀ opened, session = some opened → ∃ seen, opened.Saw host.store seen) :
    (host.put name session).Serial := by
  refine ⟨serial.stamped, ?_, serial.serial⟩
  intro other opened found
  by_cases same : other = name
  · subst same
    exact saw opened (by simpa [Host.put] using found)
  · exact serial.saw other opened (by simpa [Host.put, same] using found)

/-- A slot that a transaction touched and that is not stale holds what was seen in it, so the steps
replay on the present contents of the store. -/
theorem Session.Saw.replays_current (saw : session.Saw store seen)
    (fresh : session.tx.stale? store = none) (holds : Holds ledger store) :
    Replays session ledger := by
  refine saw.replays ledger fun key entry touched => ?_
  rw [holds key]
  exact (saw.noted key entry touched).current (version_of_not_stale fresh touched)

/-- Replayed alone, a transaction leaves what its commit publishes. -/
theorem Replays.holds_writeAll (replays : Replays session ledger) (saw : session.Saw store seen)
    (fresh : session.tx.stale? store = none) (holds : Holds ledger store) :
    Holds (Solo.run ledger session.steps).ledger (store.writeAll session.tx.writes) := by
  intro key
  rw [replays.lookup, get?_writeAll_writes]
  cases touched : session.tx.entries.get? key with
  | none => exact holds key
  | some entry =>
    cases dirty : entry.dirty with
    | true => simp [dirty]
    | false =>
      have noted := saw.noted key entry touched
      have current := noted.current (version_of_not_stale fresh touched)
      simp [dirty, current, noted.clean dirty]

/-- Replayed alone, a transaction writes as many slots as its commit. -/
theorem Replays.card_written (replays : Replays session ledger) :
    (Solo.run ledger session.steps).written.card = session.tx.writes.length := by
  have same : (Solo.run ledger session.steps).written =
      (session.tx.writes.map (·.1)).toFinset := by
    ext key
    rw [replays.written, List.mem_toFinset, List.mem_map]
    constructor
    · rintro ⟨entry, touched, dirty⟩
      exact ⟨(key, entry.value), (mem_writes_iff key entry.value).mpr ⟨entry, touched, dirty, rfl⟩,
        rfl⟩
    · rintro ⟨⟨other, value⟩, member, rfl⟩
      obtain ⟨entry, touched, dirty, _⟩ := (mem_writes_iff other value).mp member
      exact ⟨entry, touched, dirty⟩
  rw [same, List.toFinset_card_of_nodup session.tx.nodup_writes, List.length_map]

/-- The store takes a seed if the map does. -/
theorem seed_eq_ok {store after : Store} (holds : Holds ledger store)
    (seeded : store.seed resource = .ok after) :
    ∃ key value, after = store.write key (some value) ∧
      ledger.seed resource = .ok (ledger.insert key value) := by
  obtain ⟨tag, tagged, empty, rfl⟩ := Store.seed_ok_iff.mp seeded
  exact ⟨⟨resource.address, tag⟩, resource.value, rfl,
    by simp [Ledger.seed, tagged, holds _, empty]⟩

theorem seed_eq_error (holds : Holds ledger store) {failure : Failure}
    (refused : store.seed resource = .error failure) : ledger.seed resource = .error failure := by
  unfold Store.seed at refused
  unfold Ledger.seed
  cases tagged : resource.value.tag? with
  | none => simpa [tagged] using refused
  | some tag =>
    cases held : store.get? ⟨resource.address, tag⟩ with
    | some value => simpa [tagged, Store.contains, holds _, held] using refused
    | none => simp [tagged, Store.contains, held] at refused

theorem holds_insert (holds : Holds ledger store) (key : SlotKey) (value : Value) :
    Holds (ledger.insert key value) (store.write key (some value)) := by
  intro other
  rw [Store.get?_write, ← holds other]
  exact Ledger.lookup_set ledger key other (some value)

/-- A committed transaction is appended to the serial run. -/
theorem Host.Serial.commit (serial : host.Serial) {name : Nat}
    (opened : host.sessions name = some session) {written : Nat}
    (committed : session.tx.commit host.store = .ok (written, store)) :
    Host.Serial
      { host.put name none with
        store
        committed := host.committed ++
          [(.transaction session.steps, .transaction session.answers written)] } := by
  obtain ⟨fresh, rfl, rfl⟩ := commit_eq_ok committed
  obtain ⟨seen, saw⟩ := serial.saw name session opened
  obtain ⟨ledger, run, holds⟩ := serial.serial
  have replays := saw.replays_current fresh holds
  refine ⟨stamped_writeAll serial.stamped _, ?_, ?_⟩
  · intro other session' found
    have present : host.sessions other = some session' := by
      by_cases same : other = name
      · simp [Host.put, same] at found
      · simpa [Host.put, same] using found
    obtain ⟨seen', saw'⟩ := serial.saw other session' present
    exact ⟨seen', saw'.writeAll _⟩
  · refine ⟨(Solo.run ledger session.steps).ledger, ?_, replays.holds_writeAll saw fresh holds⟩
    simp [runSerially_concat, run, Job.run, replays.answers, replays.card_written]

theorem Host.Serial.seed (serial : host.Serial) (resource : Resource) :
    (host.advance (.seed resource)).Serial := by
  obtain ⟨ledger, run, holds⟩ := serial.serial
  cases result : host.store.seed resource with
  | ok after =>
    obtain ⟨key, value, rfl, seeded⟩ := seed_eq_ok holds result
    have advanced : (host.advance (.seed resource)).Serial ↔ Host.Serial
        { host with
          store := host.store.write key (some value)
          committed := host.committed ++ [(.seed resource, .seed (.ok ()))] } := by
      simp [Host.advance, result]
    rw [advanced]
    refine ⟨serial.stamped.write key (some value), ?_, ?_⟩
    · intro name session found
      obtain ⟨seen, saw⟩ := serial.saw name session found
      exact ⟨seen, saw.write key (some value)⟩
    · refine ⟨ledger.insert key value, ?_, holds_insert holds key value⟩
      simp [runSerially_concat, run, Job.run, seeded]
  | error failure =>
    have refused := seed_eq_error holds result
    have advanced : (host.advance (.seed resource)).Serial ↔ Host.Serial
        { host with
          committed := host.committed ++ [(.seed resource, .seed (.error failure))] } := by
      simp [Host.advance, result]
    rw [advanced]
    refine ⟨serial.stamped, serial.saw, ledger, ?_, holds⟩
    simp [runSerially_concat, run, Job.run, refused]

theorem Host.Serial.advance (serial : host.Serial) (event : Event) :
    (host.advance event).Serial := by
  cases event with
  | begin name =>
    refine serial.put name (some {}) fun opened same => ?_
    exact ⟨fun _ => none, Option.some.inj same ▸ saw_begin host.store _⟩
  | drop name => exact serial.put name none fun opened same => nomatch same
  | seed resource => exact serial.seed resource
  | step name step =>
    cases opened : host.sessions name with
    | none => simpa [Host.advance, opened] using serial
    | some session =>
      obtain ⟨seen, saw⟩ := serial.saw name session opened
      have stepped : (host.put name (some (session.step host.store step))).Serial :=
        serial.put name _ fun after same => Option.some.inj same ▸ saw.step serial.stamped step
      simpa [Host.advance, opened] using stepped
  | commit name =>
    cases opened : host.sessions name with
    | none => simpa [Host.advance, opened] using serial
    | some session =>
      cases result : session.tx.commit host.store with
      | ok published =>
        simpa [Host.advance, opened, result] using serial.commit opened result
      | error failure =>
        have dropped : (host.put name none).Serial :=
          serial.put name none fun after same => nomatch same
        simpa [Host.advance, opened, result] using dropped

theorem Host.run_concat (events : List Event) (event : Event) :
    Host.run (events ++ [event]) = (Host.run events).advance event := by
  rw [Host.run, List.foldl_append]
  rfl

theorem serial_run (events : List Event) : (Host.run events).Serial := by
  induction events using List.reverseRecOn with
  | nil => exact serial_initial
  | append_singleton events event ih =>
    rw [Host.run_concat]
    exact ih.advance event

/-- Serializability: whatever the interleaving, running the committed transactions and the seeds one
at a time, in the order of the commits, on a map that is empty at first gives exactly the answers
that were given, and leaves a map that holds exactly what the store holds. Transactions that were
dropped or that did not commit are not among them. -/
theorem committed_jobs_are_serial (events : List Event) :
    ∃ ledger, runSerially ((Host.run events).committed.map (·.1)) ∅ =
        ((Host.run events).committed.map (·.2), ledger) ∧
      ∀ key, ledger.lookup key = (Host.run events).store.get? key :=
  (serial_run events).serial

end Custody.Concurrent
