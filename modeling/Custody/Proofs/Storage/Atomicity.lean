import Custody.Proofs.Storage.Serializability
import Custody.Proofs.Storage.Slots
/-!
# Commits are all or nothing

The host of the interleaved transactions is run once more, this time on a map of slots that seeds
and commits change in place. Between two events the map has filled slots only, whose versions are
all different and not beyond the clock. A commit answers a conflict exactly if a slot that the
transaction touched has another version than it had at first touch, and then the map is as it was
before. Otherwise the slots marked as written hold what the transaction had for them, and the others
are as they were.

When a slot was first touched, and what version it had then, is read off the history of events.
-/

namespace Custody

open SlotMap

variable {store : Store} {name : Nat} {key : SlotKey} {version : Nat}

/-! ## Versions in storage -/

namespace Store

/-- Storage as commits leave it: versions are in bounds and all different. -/
structure Tidy (store : Store) : Prop where
  stamped : store.Stamped
  distinct : ∀ {key other : SlotKey} {cell cell' : Cell}, store.slots.get? key = some cell →
    store.slots.get? other = some cell' → cell.version = cell'.version → key = other

theorem tidy_empty : Tidy ∅ where
  stamped := stamped_empty
  distinct := fun found => by cases found

/-- A version that is given out is beyond those that were. -/
theorem Tidy.write (tidy : store.Tidy) (key : SlotKey) (value : Option Value) :
    (store.write key value).Tidy where
  stamped := tidy.stamped.write key value
  distinct := by
    intro one other cell cell' found found' same
    rw [slots_write] at found found'
    split at found <;> split at found'
    · exact ‹one = key›.trans ‹other = key›.symm
    · obtain ⟨_, _, rfl⟩ := Option.map_eq_some_iff.mp found
      have bounds := tidy.stamped other cell' found'
      simp only at same
      omega
    · obtain ⟨_, _, rfl⟩ := Option.map_eq_some_iff.mp found'
      have bounds := tidy.stamped one cell found
      simp only at same
      omega
    · exact tidy.distinct found found' same

theorem Tidy.writeAll (tidy : store.Tidy) (writes : List (SlotKey × Option Value)) :
    (store.writeAll writes).Tidy := by
  induction writes generalizing store with
  | nil => exact tidy
  | cons write rest ih => exact ih (tidy.write write.1 write.2)

end Store

/-- A map as commits leave it: every slot is filled, and versions are in bounds and all
different. -/
structure SlotMap.Tidy (map : SlotMap) : Prop where
  filled : ∀ key slot, map.slots.get? key = some slot → slot.value.isSome = true
  stamped : ∀ key slot, map.slots.get? key = some slot → 1 ≤ slot.version ∧ slot.version ≤ map.clock
  distinct : ∀ key other slot slot', map.slots.get? key = some slot → map.slots.get? other =
    some slot' → slot.version = slot'.version → key = other

theorem Store.Tidy.inPlace (tidy : store.Tidy) : store.inPlace.Tidy := by
  have cell_of {key : SlotKey} {slot : SlotState}
      (found : store.inPlace.slots.get? key = some slot) :
      ∃ cell, store.slots.get? key = some cell ∧ cell.slot = slot := by
    rw [get?_inPlace] at found
    exact Option.map_eq_some_iff.mp found
  refine ⟨fun key slot found => ?_, fun key slot found => ?_, ?_⟩
  · obtain ⟨cell, _, rfl⟩ := cell_of found
    rfl
  · obtain ⟨cell, held, rfl⟩ := cell_of found
    exact tidy.stamped key cell held
  · intro key other slot slot' found found' same
    obtain ⟨cell, held, rfl⟩ := cell_of found
    obtain ⟨cell', held', rfl⟩ := cell_of found'
    exact tidy.distinct held held' same

namespace Concurrent

/-! ## The host in place -/

/-- What the transaction sees in a slot of the map. -/
def Session.entryIn (session : Session) (map : SlotMap) (key : SlotKey) : Entry :=
  match session.tx.entries.get? key with
  | some entry => entry
  | none => { version := (map.read key).version, value := (map.read key).value }

/-- A step on the map. -/
def Session.stepIn (session : Session) (map : SlotMap) (step : Step) : Session :=
  let entry := session.entryIn map step.key
  ⟨session.tx.record step.key (step.leaves entry), session.steps ++ [step],
    session.answers ++ [(step.effect entry.value).answer]⟩

/-- A map of slots and the transactions under way. -/
structure SlotHost where
  map : SlotMap := {}
  sessions : Nat → Option Session := fun _ => none

variable (events : List Event)

namespace SlotHost

/-- Set what goes by a number. -/
def put (host : SlotHost) (name : Nat) (session : Option Session) : SlotHost :=
  { host with sessions := Function.update host.sessions name session }

/-- One event. A commit leaves behind whatever it makes of the map, whether it goes through or
not. -/
def advance (host : SlotHost) : Event → SlotHost
  | .begin name => host.put name (some {})
  | .drop name => host.put name none
  | .step name step =>
    match host.sessions name with
    | some session => host.put name (some (session.stepIn host.map step))
    | none => host
  | .commit name =>
    match host.sessions name with
    | some session => { host.put name none with map := (host.map.commit session.tx).2 }
    | none => host
  | .seed resource =>
    match host.map.seed resource with
    | .ok map => { host with map }
    | .error _ => host

/-- All events, from an empty map. -/
def run : SlotHost := events.foldl advance {}

end SlotHost

/-- The host, with its storage as a map. -/
def Host.inPlace (host : Host) : SlotHost := ⟨host.store.inPlace, host.sessions⟩

theorem Session.stepIn_inPlace (session : Session) (store : Store) (step : Step) :
    session.stepIn store.inPlace step = session.step store step := by
  have seen : session.entryIn store.inPlace step.key = session.tx.entry store step.key := by
    cases touched : session.tx.entries.get? step.key with
    | some entry => simp only [entryIn, Transaction.entry, touched]
    | none => simp only [entryIn, Transaction.entry, touched, read_inPlace]
  rw [stepIn, Session.step, Step.run_eq, seen]

/-- An event writes some slots of the store, if any. -/
theorem Host.store_advance (host : Host) (event : Event) :
    ∃ writes, (host.advance event).store = host.store.writeAll writes := by
  cases event with
  | begin | drop => exact ⟨[], rfl⟩
  | step name step =>
    refine ⟨[], ?_⟩
    cases opened : host.sessions name <;> simp [advance, opened, put, Store.writeAll]
  | commit name =>
    cases opened : host.sessions name with
    | none => exact ⟨[], by simp [advance, opened, Store.writeAll]⟩
    | some session =>
      cases result : session.tx.commit host.store with
      | error failure => exact ⟨[], by simp [advance, opened, result, put, Store.writeAll]⟩
      | ok published =>
        obtain ⟨_, _, after⟩ := Transaction.commit_eq_ok result
        exact ⟨session.tx.writes, by simp [advance, opened, result, after]⟩
  | seed resource =>
    cases result : host.store.seed resource with
    | error failure => exact ⟨[], by simp [advance, result, Store.writeAll]⟩
    | ok after =>
      obtain ⟨tag, _, _, written⟩ := Store.seed_ok_iff.mp result
      refine ⟨[(⟨resource.address, tag⟩, some resource.value)], ?_⟩
      simp [advance, result, written, Store.writeAll]

theorem tidy_run : (Host.run events).store.Tidy := by
  induction events using List.reverseRecOn with
  | nil => exact Store.tidy_empty
  | append_singleton events event ih =>
    obtain ⟨writes, written⟩ := Host.store_advance (Host.run events) event
    rw [Host.run_concat, written]
    exact ih.writeAll writes

/-- One event in place does what the event does. -/
theorem Host.inPlace_advance (host : Host) (event : Event) :
    host.inPlace.advance event = (host.advance event).inPlace := by
  cases event with
  | begin | drop => rfl
  | step name step =>
    cases opened : host.sessions name with
    | none => simp [inPlace, SlotHost.advance, Host.advance, opened]
    | some session =>
      simp [inPlace, SlotHost.advance, SlotHost.put, Host.advance, Host.put, opened,
        Session.stepIn_inPlace]
  | commit name =>
    cases opened : host.sessions name with
    | none => simp [inPlace, SlotHost.advance, Host.advance, opened]
    | some session =>
      cases result : session.tx.commit host.store <;>
        simp [inPlace, SlotHost.advance, SlotHost.put, Host.advance, Host.put, opened, result,
          commit_inPlace, Transaction.settle]
  | seed resource =>
    cases result : host.store.seed resource <;>
      simp [inPlace, SlotHost.advance, Host.advance, seed_inPlace, result, Except.map]

/-- A whole run in place does what the run does. -/
theorem slotHost_run : SlotHost.run events = (Host.run events).inPlace := by
  induction events using List.reverseRecOn with
  | nil => rfl
  | append_singleton events event ih =>
    rw [Host.run_concat, ← Host.inPlace_advance, ← ih]
    simp only [SlotHost.run, List.foldl_append, List.foldl_cons, List.foldl_nil]

/-! ## First touches -/

/-- Whether the event starts or ends a transaction of this name. -/
def Event.renews (name : Nat) : Event → Bool
  | .begin other | .drop other | .commit other => other == name
  | .step _ _ | .seed _ => false

/-- Whether the event is a step of this transaction on this slot. -/
def Event.touches (name : Nat) (key : SlotKey) : Event → Bool
  | .step other taken => other == name && taken.key == key
  | _ => false

/-- Whether the event may change storage. -/
def Event.publishes : Event → Bool
  | .commit _ | .seed _ => true
  | _ => false

/-- The transaction is under way and has not touched the slot since it began. -/
def Untouched (name : Nat) (key : SlotKey) : Prop :=
  ∃ before since, events = before ++ .begin name :: since ∧
    ∀ event ∈ since, event.renews name = false ∧ event.touches name key = false

/-- The transaction is under way, and the slot had this version when it first touched it. -/
def FirstTouch (name : Nat) (key : SlotKey) (version : Nat) : Prop :=
  ∃ before event later, events = before ++ event :: later ∧
    Untouched before name key ∧ event.touches name key = true ∧
    (∀ event ∈ later, event.renews name = false) ∧ version = (Host.run before).store.version key

section History

variable {events : List Event} {event : Event}

theorem untouched_concat : Untouched (events ++ [event]) name key ↔ event = .begin name ∨
      Untouched events name key ∧ event.renews name = false ∧ event.touches name key = false := by
  constructor
  · rintro ⟨before, since, split, quiet⟩
    rcases List.eq_nil_or_concat' since with rfl | ⟨since, last, rfl⟩
    · exact Or.inl (List.append_inj_right' split rfl |> List.singleton_inj.mp)
    · have split' : events ++ [event] = (before ++ .begin name :: since) ++ [last] := by
        simpa using split
      obtain ⟨rfl, same⟩ := List.append_inj' split' rfl
      cases same
      exact Or.inr ⟨⟨before, since, rfl, fun event listed =>
        quiet event (List.mem_append_left _ listed)⟩, quiet event (by simp)⟩
  · rintro (rfl | ⟨⟨before, since, rfl, quiet⟩, still⟩)
    · exact ⟨events, [], rfl, by simp⟩
    · refine ⟨before, since ++ [event], by simp, fun other listed => ?_⟩
      rcases List.mem_append.mp listed with earlier | last
      · exact quiet other earlier
      · exact List.mem_singleton.mp last ▸ still

theorem firstTouch_concat : FirstTouch (events ++ [event]) name key version ↔
    FirstTouch events name key version ∧ event.renews name = false ∨
      Untouched events name key ∧ event.touches name key = true ∧
        version = (Host.run events).store.version key := by
  constructor
  · rintro ⟨before, touch, later, split, untouched, touches, going, noted⟩
    rcases List.eq_nil_or_concat' later with rfl | ⟨later, last, rfl⟩
    · obtain ⟨rfl, same⟩ := List.append_inj' split rfl
      cases same
      exact Or.inr ⟨untouched, touches, noted⟩
    · have split' : events ++ [event] = (before ++ touch :: later) ++ [last] := by simpa using split
      obtain ⟨rfl, same⟩ := List.append_inj' split' rfl
      cases same
      exact Or.inl ⟨⟨before, touch, later, rfl, untouched, touches, fun other listed =>
        going other (List.mem_append_left _ listed), noted⟩, going event (by simp)⟩
  · rintro (⟨⟨before, touch, later, rfl, untouched, touches, going, noted⟩, still⟩ | last)
    · refine ⟨before, touch, later ++ [event], by simp, untouched, touches,
      fun other listed => ?_, noted⟩
      rcases List.mem_append.mp listed with earlier | last
      · exact going other earlier
      · exact List.mem_singleton.mp last ▸ still
    · exact ⟨events, event, [], rfl, last.1, last.2.1, by simp, last.2.2⟩

end History

/-! ## Noted versions -/

/-- The version that a transaction under way has noted for a slot, if it touched it. -/
def Host.noted (host : Host) (name : Nat) (key : SlotKey) : Option (Option Nat) :=
  (host.sessions name).map fun session => (session.tx.entries.get? key).map (·.version)

namespace Host

variable (host : Host) {event : Event}

theorem sessions_put (other : Nat) (session : Option Session) :
    (host.put other session).sessions name = if other = name then session else
    host.sessions name := by
  simp only [put, Function.update_apply, eq_comm (a := name)]

theorem noted_begin : (host.advance (.begin name)).noted name key = some none := by
  simp [noted, advance, sessions_put, Transaction.begin]

theorem noted_renewed (renews : event.renews name = true) (later : event ≠ .begin name) :
    (host.advance event).noted name key = none := by
  cases event with
  | begin other => simp_all [Event.renews]
  | step | seed => cases renews
  | drop other =>
    have same : other = name := by simpa [Event.renews] using renews
    simp [noted, advance, sessions_put, same]
  | commit other =>
    have same : other = name := by simpa [Event.renews] using renews
    subst same
    cases opened : host.sessions other with
    | none => simp [noted, advance, opened]
    | some session =>
      cases result : session.tx.commit host.store <;> simp [noted, advance, opened, result,
        sessions_put]

/-- A step notes the version of its slot unless one is noted for it. -/
theorem noted_touched (touches : event.touches name key = true) :
    (host.advance event).noted name key =
      (host.noted name key).map fun version => some (version.getD (host.store.version key)) := by
  cases event with
  | begin | drop | commit | seed => cases touches
  | step other step =>
    obtain ⟨rfl, rfl⟩ : other = name ∧ step.key = key := by simpa [Event.touches] using touches
    cases opened : host.sessions other with
    | none => simp [noted, advance, opened]
    | some session =>
      cases found : session.tx.entries.get? step.key <;>
        simp [noted, advance, opened, sessions_put, Session.step, Step.run_eq,
          Transaction.entry, found]

theorem noted_elsewhere (renews : event.renews name = false)
    (touches : event.touches name key = false) : (host.advance event).noted name key = host.noted
    name key := by
  cases event with
  | begin other | drop other =>
    have differs : other ≠ name := by simpa [Event.renews] using renews
    simp [noted, advance, sessions_put, differs]
  | commit other =>
    have differs : other ≠ name := by simpa [Event.renews] using renews
    cases opened : host.sessions other with
    | none => simp [noted, advance, opened]
    | some session =>
      cases result : session.tx.commit host.store <;>
        simp [noted, advance, opened, result, sessions_put, differs]
  | seed resource => cases result : host.store.seed resource <;> simp [noted, advance, result]
  | step other step =>
    cases opened : host.sessions other with
    | none => simp [noted, advance, opened]
    | some session =>
      by_cases same : other = name
      · subst same
        have differs : step.key ≠ key := by simpa [Event.touches] using touches
        simp [noted, advance, opened, sessions_put, Session.step, Step.run_eq, differs.symm]
      · simp [noted, advance, opened, sessions_put, same]

end Host

/-- What transactions have noted is what the history says. -/
theorem noted_run (name : Nat) (key : SlotKey) :
    (Untouched events name key ↔ (Host.run events).noted name key = some none) ∧
    ∀ version, FirstTouch events name key version ↔
      (Host.run events).noted name key = some (some version) := by
  induction events using List.reverseRecOn with
  | nil => simp [Untouched, FirstTouch, Host.run, Host.noted]
  | append_singleton events event ih =>
    obtain ⟨untouched, touched⟩ := ih
    rw [Host.run_concat]
    simp only [untouched_concat, firstTouch_concat, untouched, touched]
    cases renews : event.renews name with
    | true =>
      have silent : event.touches name key = false := by
        cases event with
        | step other taken => cases renews
        | begin | drop | commit | seed => rfl
      by_cases begins : event = .begin name
      · subst begins
        simp [Host.noted_begin, silent]
      · simp [Host.noted_renewed _ renews begins, begins, silent]
    | false =>
      have begun : event ≠ .begin name := by
        rintro rfl
        simp [Event.renews] at renews
      cases touches : event.touches name key with
      | false => simp [Host.noted_elsewhere _ renews touches, begun]
      | true =>
        rw [Host.noted_touched _ touches]
        cases (Host.run events).noted name key with
        | none => simp [begun]
        | some version => cases version <;> simp [begun, eq_comm]

/-- A session under way has noted, for the slots it touched, the versions they had at first
touch. -/
theorem firstTouch_iff {events : List Event} {session : Session}
    (opened : (Host.run events).sessions name = some session) (key : SlotKey) (version : Nat) :
    FirstTouch events name key version ↔
      ∃ entry, session.tx.entries.get? key = some entry ∧ entry.version = version := by
  rw [(noted_run events name key).2 version, Host.noted, opened]
  simp

/-! ## Nothing published in between -/

theorem Host.store_quiet (host : Host) {event : Event} (quiet : event.publishes = false) :
    (host.advance event).store = host.store := by
  cases event with
  | begin | drop => rfl
  | step name step => cases opened : host.sessions name <;> simp [advance, opened, put]
  | commit | seed => cases quiet

theorem store_run_quiet (before : List Event) {quiet : List Event}
    (silent : ∀ event ∈ quiet, event.publishes = false) :
    (Host.run (before ++ quiet)).store = (Host.run before).store := by
  induction quiet using List.reverseRecOn with
  | nil => rw [List.append_nil]
  | append_singleton quiet event ih =>
    rw [← List.append_assoc, Host.run_concat, Host.store_quiet _ (silent event (by simp))]
    exact ih fun event listed => silent event (List.mem_append_left _ listed)

/-- What is first touched while nothing is published has the version that it had at the start. -/
theorem version_of_firstTouch_quiet {before quiet : List Event}
    (fresh : ∀ version, ¬ FirstTouch before name key version)
    (silent : ∀ event ∈ quiet, event.publishes = false)
    (touch : FirstTouch (before ++ quiet) name key version) :
    (Host.run before).store.version key = version := by
  induction quiet using List.reverseRecOn with
  | nil => exact absurd (List.append_nil before ▸ touch) (fresh version)
  | append_singleton quiet event ih =>
    have silent' : ∀ event ∈ quiet, event.publishes = false := fun event listed =>
      silent event (List.mem_append_left _ listed)
    rw [← List.append_assoc, firstTouch_concat] at touch
    rcases touch with ⟨earlier, _⟩ | ⟨_, _, rfl⟩
    · exact ih silent' earlier
    · rw [store_run_quiet before silent']

end Concurrent

/-! ## Commits -/

/-- A slot does not have the version that was noted for it. -/
def SlotMap.Stale (map : SlotMap) (noted : SlotKey → Nat → Prop) : Prop :=
  ∃ key version, noted key version ∧ (map.read key).version ≠ version

/-- Committing the transaction does all or nothing, given what versions it noted. -/
structure SlotMap.Settles (map : SlotMap) (tx : Transaction) (noted : SlotKey → Nat → Prop) :
    Prop where
  conflict : (∃ key, (map.commit tx).1 = .answered (.error (.conflict key))) ↔ map.Stale noted
  kept : map.Stale noted → (map.commit tx).2 = map
  answer : ¬ map.Stale noted →
    (map.commit tx).1 = .answered (.ok (tx.entries.values.countP (·.dirty)))
  /-- A slot marked as written holds the buffered value, and is not there if that is none. -/
  written : ¬ map.Stale noted → ∀ key entry, tx.entries.get? key = some entry → entry.dirty = true →
    ((map.commit tx).2.slots.get? key).map (·.value) = entry.value.map some
  others : ¬ map.Stale noted → ∀ key,
    (∀ entry, tx.entries.get? key = some entry → entry.dirty = false) →
    (map.commit tx).2.slots.get? key = map.slots.get? key

namespace Transaction

variable {tx : Transaction}

theorem length_writes (tx : Transaction) :
    tx.writes.length = tx.entries.values.countP (·.dirty) := by
  rw [writes, List.length_map, Table.values, List.countP_map, List.countP_eq_length_filter]
  rfl

theorem stale?_eq_none_iff :
    tx.stale? store = none ↔
      ∀ key entry, tx.entries.get? key = some entry → store.version key = entry.version := by
  constructor
  · exact fun fresh key entry touched => version_of_not_stale fresh touched
  · exact fun current => stale?_eq_none fun entry listed =>
      (current entry.1 entry.2 (Table.get?_of_mem listed)).symm

/-- A transaction is stale by the versions in its entries. -/
theorem stale_inPlace_iff {noted : SlotKey → Nat → Prop}
    (notes : ∀ key version, noted key version ↔
      ∃ entry, tx.entries.get? key = some entry ∧ entry.version = version) :
    store.inPlace.Stale noted ↔ tx.stale? store ≠ none := by
  rw [ne_eq, stale?_eq_none_iff]
  simp only [Stale, read_inPlace, notes, not_forall]
  constructor
  · rintro ⟨key, _, ⟨entry, touched, rfl⟩, differs⟩
    exact ⟨key, entry, touched, differs⟩
  · rintro ⟨key, entry, touched, differs⟩
    exact ⟨key, entry.version, ⟨entry, touched, rfl⟩, differs⟩

theorem settles_inPlace {noted : SlotKey → Nat → Prop}
    (notes : ∀ key version, noted key version ↔
      ∃ entry, tx.entries.get? key = some entry ∧ entry.version = version) :
    store.inPlace.Settles tx noted := by
  have stale_iff : store.inPlace.Stale noted ↔ tx.stale? store ≠ none := stale_inPlace_iff notes
  have committed := commit_inPlace store tx
  cases stale : tx.stale? store with
  | some key =>
    have isStale : store.inPlace.Stale noted := stale_iff.mpr (by simp [stale])
    simp only [settle_eq, stale] at committed
    exact ⟨⟨fun _ => isStale, fun _ => ⟨key, by rw [committed]⟩⟩, fun _ => by rw [committed],
      absurd isStale, absurd isStale, absurd isStale⟩
  | none =>
    have isFresh : ¬ store.inPlace.Stale noted := fun isStale => stale_iff.mp isStale stale
    simp only [settle_eq, stale] at committed
    refine ⟨⟨?_, fun isStale => absurd isStale isFresh⟩, fun isStale => absurd isStale isFresh,
      fun _ => ?_, fun _ key entry touched dirty => ?_, fun _ key clean => ?_⟩
    · rintro ⟨key, conflict⟩
      rw [committed] at conflict
      cases conflict
    · rw [committed, length_writes]
    · have held := tx.get?_writeAll_writes store key
      simp only [touched, dirty, if_true] at held
      rw [committed, get?_inPlace, ← held, Store.get?, Option.map_map, Option.map_map]
      rfl
    · rw [committed, get?_inPlace, get?_inPlace]
      rw [Store.slots_writeAll_of_not_mem store tx.writes key]
      intro value listed
      obtain ⟨entry, touched, dirty, _⟩ := (mem_writes_iff key value).mp listed
      rw [clean entry touched] at dirty
      cases dirty

end Transaction

namespace Concurrent

/-- All or nothing: however seeds, commits and the steps of transactions are interleaved, the map
changed in place is that of the storage. All its slots are filled, with versions between 1 and the
clock that are all different. Committing a transaction that is under way answers a conflict exactly
if a slot that it touched has another version than at first touch, and changes nothing then.
Otherwise it answers how many slots it wrote; each of them holds the buffered value, and no other
slot has changed. A transaction that touched its slots after the last commit and the last seed does
not conflict. -/
theorem commits_are_all_or_nothing (events : List Event) :
    SlotHost.run events = (Host.run events).inPlace ∧ (SlotHost.run events).map.Tidy ∧
    (∀ name session, (SlotHost.run events).sessions name = some session →
      (SlotHost.run events).map.Settles session.tx (FirstTouch events name) ∧
      (SlotHost.run events).map.commit session.tx =
        (.answered (session.tx.settle (Host.run events).store).1,
          (session.tx.settle (Host.run events).store).2.inPlace)) ∧
    ∀ before quiet, events = before ++ quiet → (∀ event ∈ quiet, event.publishes = false) →
      ∀ name session, (∀ key version, ¬ FirstTouch before name key version) →
        (SlotHost.run events).sessions name = some session →
        ∃ written, ((SlotHost.run events).map.commit session.tx).1 = .answered (.ok written) := by
  have tidy := tidy_run events
  have settles (name : Nat)
      (session : Session) (opened : (Host.run events).sessions name = some session) :
      (Host.run events).store.inPlace.Settles session.tx (FirstTouch events name) :=
    Transaction.settles_inPlace (firstTouch_iff opened)
  rw [slotHost_run]
  refine ⟨rfl, tidy.inPlace, fun name session opened => ⟨settles name session opened, ?_⟩, ?_⟩
  · exact SlotMap.commit_inPlace _ session.tx
  · rintro before quiet rfl silent name session fresh opened
    refine ⟨_, (settles name session opened).answer ?_⟩
    rintro ⟨key, version, touch, differs⟩
    rw [SlotMap.read_inPlace, store_run_quiet before silent] at differs
    exact differs (version_of_firstTouch_quiet (fresh key) silent touch)

/-- The slot of an account. -/
def account (owner : Nat) : SlotKey := ⟨.ofNat owner, ⟨⟨"Bank", "Account"⟩, []⟩⟩

/-- An account with so much in it. -/
def balance (amount : BitVec 64) : Value := .struct ⟨⟨"Bank", "Account"⟩, []⟩ [.u64 amount]

/-- Transaction 0 opens a second account after a look at the first, which transaction 2 closes then.
Transaction 1 opens a third one. -/
def contended : List Event :=
  [.seed ⟨.ofNat 1, balance 10⟩, .begin 0, .step 0 (.borrow (account 1)),
    .step 0 (.moveTo (account 2) (balance 20)), .begin 1, .step 1
    (.moveTo (account 3) (balance 30)), .begin 2, .step 2 (.moveFrom (account 1)), .commit 2]

/-- The slot reserved for the second account is taken out again. -/
theorem contended_commit_is_undone :
    ∃ late, (SlotHost.run contended).sessions 0 = some late ∧
      ((SlotHost.run contended).map.commit late.tx).1 = .answered (.error (.conflict (account 1))) ∧
      ((SlotHost.run contended).map.commit late.tx).2 = (SlotHost.run contended).map := by
  refine ⟨_, rfl, rfl, ?_⟩
  have settles := ((commits_are_all_or_nothing contended).2.2.1 0 _ rfl).1
  exact settles.kept (settles.conflict.mp ⟨account 1, rfl⟩)

end Concurrent

end Custody
