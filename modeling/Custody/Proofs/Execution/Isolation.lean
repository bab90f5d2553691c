import Custody.Proofs.Execution.Keeping
import Custody.Proofs.Execution.Soundness
/-!
# Calls keep to their own frames

A reference to a local names the frame by its number. A called function makes references to its own
frame only, and the numbers of the frames that wait for it are smaller. So unless it is handed a
reference to a local, or finds one in a cell of the host or in storage, it has none to the frames
below its own, and neither do the functions it calls. When it ends, for whatever reason, those
frames are what they were. Nothing here depends on the checker.
-/

namespace Custody

open Value

variable {value : Value} {last : Nat} {base m : Machine} {level : Nat} {frame : Frame}

/-! ## Frames that values lead to -/

/-- The number of the frame that a reference leads into. -/
def RefRoot.frames : RefRoot → List Nat
  | .local frame _ => [frame]
  | .global _ | .host _ => []

namespace Value

/-- The numbers of the frames that references inside a value lead into. -/
def frames : Value → List Nat := collect (·.root.frames) fun _ => []

/-- Every reference to a local inside the value leads into a frame beyond the given one. -/
def Beyond (last : Nat) (value : Value) : Prop := ∀ frame ∈ value.frames, last < frame

theorem beyond_of_frames (none : value.frames = []) : value.Beyond last := by
  intro frame inside
  simp [none] at inside

theorem hereditary_beyond : Hereditary (Beyond last) := hereditary_collect

end Value

/-! ## The invariant -/

namespace Machine

/-- Over the frames of another machine, which are as they were, there are some more; neither they
nor cells and slots lead to a frame below them. -/
structure Over (base : Machine) (level : Nat) (m : Machine) : Prop where
  height : m.callers.length = base.top + level
  below : ∀ n ≤ base.top, m.frame? n = base.frame? n
  above : ∀ n frame, base.top < n → m.frame? n = some frame → frame.Holds (Beyond base.top)
  host : ∀ cell ∈ m.host, cell.Beyond base.top
  slots : ∀ key value, (m.tx.entry m.store key).value = some value → value.Beyond base.top

theorem le_of_frame? {n : Nat} (found : m.frame? n = some frame) : n ≤ m.callers.length := by
  unfold frame? at found
  dsimp only at found
  split at found
  · omega
  · split at found
    · omega
    · cases found

/-- A change of one frame leaves the rest of the machine alone. -/
theorem modifyFrame_eq (m : Machine) (n : Nat) (change : Frame → Frame) :
    ∃ current callers,
      m.modifyFrame n change = { m with current := current, callers := callers } := by
  unfold modifyFrame
  dsimp only
  split
  · exact ⟨_, _, rfl⟩
  · split
    · exact ⟨_, _, rfl⟩
    · exact ⟨_, _, rfl⟩

namespace Over

theorem top_lt (stacked : base.Over (level + 1) m) : base.top < m.top := by
  have height : m.top = base.top + (level + 1) := stacked.height
  omega

theorem modifyFrame (stacked : base.Over level m) {n : Nat} {change : Frame → Frame}
    (higher : base.top < n)
    (holds : ∀ frame, frame.Holds (Beyond base.top) → (change frame).Holds (Beyond base.top)) :
    base.Over level (m.modifyFrame n change) := by
  obtain ⟨current, callers, same⟩ := modifyFrame_eq m n change
  refine ⟨by simpa using stacked.height, fun k within => ?_, fun k frame beyond found => ?_, ?_, ?_⟩
  · rw [frame?_modifyFrame, if_neg (by omega), stacked.below k within]
  · rw [frame?_modifyFrame] at found
    split at found
    · obtain ⟨old, there, rfl⟩ := Option.map_eq_some_iff.mp found
      exact holds old (stacked.above k old beyond there)
    · exact stacked.above k frame beyond found
  · rw [same]
    exact stacked.host
  · rw [same]
    exact stacked.slots

theorem setLocal (stacked : base.Over level m) {n index : Nat} {slot : Option Value}
    (higher : base.top < n) (new : ∀ value, slot = some value → value.Beyond base.top) :
    base.Over level (m.setLocal n index slot) :=
  stacked.modifyFrame higher fun _ holds => Frame.Holds.put holds index new

theorem rebind (stacked : base.Over (level + 1) m) {bindings : List Binding}
    (held : ∀ binding ∈ bindings, ∀ value, binding.value = some value → value.Beyond base.top) :
    base.Over (level + 1) { m with current := { m.current with bindings := bindings } } := by
  have changed : base.Over (level + 1)
      (m.modifyFrame m.top fun frame => { frame with bindings := bindings }) :=
    stacked.modifyFrame stacked.top_lt fun _ _ => held
  simpa [Machine.modifyFrame, top] using changed

theorem setHost (stacked : base.Over level m) (index : Nat) (new : value.Beyond base.top) :
    base.Over level { m with host := m.host.set index value } := by
  refine { stacked with host := fun cell member => ?_ }
  rcases List.mem_or_eq_of_mem_set member with kept | rfl
  · exact stacked.host cell kept
  · exact new

theorem record (stacked : base.Over level m) {key : SlotKey} {entry : Entry}
    (new : ∀ value, entry.value = some value → value.Beyond base.top) :
    base.Over level { m with tx := m.tx.record key entry } := by
  refine { stacked with slots := fun other value seen => ?_ }
  by_cases same : other = key
  · subst same
    exact new value (by simpa [Transaction.entry] using seen)
  · exact stacked.slots other value (by simpa [Transaction.entry, same] using seen)

theorem enter (stacked : base.Over level m) (new : frame.Holds (Beyond base.top)) :
    base.Over (level + 1) (m.enter frame) := by
  have height := stacked.height
  refine { stacked with
    height := congrArg Nat.succ height, below := fun n within => ?_, above := ?_ }
  · rw [frame?_enter (by omega), stacked.below n within]
  · intro n other beyond found
    rcases Nat.lt_or_ge m.callers.length n with top | lower
    · have last : n ≤ m.callers.length + 1 := le_of_frame? found
      obtain rfl : n = (m.enter frame).callers.length := Nat.le_antisymm last top
      rw [frame?_top] at found
      exact Option.some.inj found ▸ new
    · rw [frame?_enter lower] at found
      exact stacked.above n other beyond found

theorem leave (stacked : base.Over (level + 1) m) : base.Over level m.leave := by
  have height := stacked.height
  cases waiting : m.callers with
  | nil =>
    rw [waiting] at height
    cases height
  | cons caller callers =>
    rw [waiting] at height
    have lower : callers.length = base.top + level := Nat.succ.inj height
    have left := leave_eq waiting
    refine ⟨by rw [left]; exact lower, fun n within => ?_, fun n frame beyond found => ?_, ?_, ?_⟩
    · rw [frame?_leave waiting (by omega), stacked.below n within]
    · have within : n ≤ m.leave.callers.length := le_of_frame? found
      rw [left] at within
      rw [frame?_leave waiting within] at found
      exact stacked.above n frame beyond found
    · rw [left]
      exact stacked.host
    · rw [left]
      exact stacked.slots

end Over

/-- Neither the cells of the host nor storage, committed or written since, hold a reference to a
local. -/
structure Detached (m : Machine) : Prop where
  host : ∀ cell ∈ m.host, cell.frames = []
  stored : ∀ key value, m.store.get? key = some value → value.frames = []
  written : ∀ key entry, m.tx.entries.get? key = some entry →
    ∀ value, entry.value = some value → value.frames = []

theorem Detached.stacked (detached : m.Detached) : m.Over 0 m where
  height := rfl
  below _ _ := rfl
  above n _ beyond found := absurd (le_of_frame? found) (Nat.not_le_of_lt beyond)
  host cell member := beyond_of_frames (detached.host cell member)
  slots := by
    intro key value seen
    unfold Transaction.entry at seen
    split at seen
    · rename_i entry found
      exact beyond_of_frames (detached.written key entry found value seen)
    · exact beyond_of_frames (detached.stored key value seen)

theorem getElem?_frames (m : Machine) (n : Nat) : m.frames[n]? = m.frame? n := by
  unfold frames frame?
  dsimp only
  split
  · rename_i top
    simp [top]
  · split
    · rename_i lower
      have position : m.callers.length - n = (m.callers.length - 1 - n) + 1 := by omega
      rw [List.getElem?_reverse (by simp; omega)]
      simp [position]
    · simp
      omega

/-- With no more frames than there were, all frames are what they were. -/
theorem Over.frames_eq (stacked : base.Over 0 m) : m.frames = base.frames := by
  refine List.ext_getElem? fun n => ?_
  rw [getElem?_frames, getElem?_frames]
  rcases Nat.lt_or_ge base.top n with beyond | within
  · have none : ∀ {other : Machine}, other.callers.length = base.top → other.frame? n = none := by
      intro other height
      refine Option.eq_none_iff_forall_ne_some.mpr fun frame found => ?_
      have within := le_of_frame? found
      omega
    rw [none stacked.height, none rfl]
  · exact stacked.below n within

end Machine

/-! ## Calls -/

namespace Exec

theorem nests_over : Nests base.Over (Beyond base.top) fun _ => True where
  keeps level :=
    { hereditary := hereditary_beyond
      reference := fun {outer inner} here same => by rwa [Beyond, frames, collect, same]
      signer := fun _ => trivial
      intoSlot := fun _ _ => beyond_of_frames rfl
      intoOwn := fun stacked _ _ => List.forall_mem_singleton.mpr stacked.top_lt
      current := fun {m} stacked =>
        stacked.above m.top m.current stacked.top_lt (Machine.frame?_top m)
      atLocal := fun {m _ n index _} stacked leads root found => by
        rw [Beyond, frames, collect, root] at leads
        rw [Machine.local?_eq] at found
        obtain ⟨frame, there, found⟩ := Option.bind_eq_some_iff.mp found
        obtain ⟨binding, listed, held⟩ := Option.bind_eq_some_iff.mp found
        exact stacked.above n frame (leads n List.mem_cons_self) there binding
          (List.mem_of_getElem? listed) _ held
      host := fun stacked => stacked.host
      slot := fun stacked seen => stacked.slots _ _ seen
      setLocal := fun stacked leads root new => by
        rw [Beyond, frames, collect, root] at leads
        exact stacked.setLocal (leads _ List.mem_cons_self) new
      rebind := fun stacked held => stacked.rebind held
      setHost := fun stacked index new => stacked.setHost index new
      record := fun stacked new => stacked.record fun value same => (new value same).1
      tally := fun stacked => { stacked with } }
  enter stacked new := stacked.enter new
  leave stacked := stacked.leave
  tally stacked := { stacked with }

/-- Whatever a called function does, and however it ends: if neither its arguments nor cells or
storage hold a reference to a local, all frames are as they were before the call, and as many. -/
theorem call_leaves_frames_alone {args : List Value} (setup : Setup) (depth : Nat)
    (free : ∀ arg ∈ args, arg.frames = []) (detached : m.Detached) :
    (∀ id decl typeArgs, Ends (call setup depth id decl typeArgs args) m
      (fun _ m' => m'.frames = m.frames) fun _ m' => m'.frames = m.frames) ∧
    ∀ module function typeArgs,
      Ends (callFunction setup (call setup depth) module function typeArgs args) m
        (fun _ m' => m'.frames = m.frames) fun _ m' => m'.frames = m.frames := by
  have calls : KeepingCalls (m.Over 0) (Value.Beyond m.top) (call setup depth) :=
    nests_over.call depth 0
  have beyond : ∀ arg ∈ args, arg.Beyond m.top :=
    fun arg member => Value.beyond_of_frames (free arg member)
  have unchanged : ∀ {x : Exec Value}, Maintains (m.Over 0) x (Value.Beyond m.top) →
      Ends x m (fun _ m' => m'.frames = m.frames) fun _ m' => m'.frames = m.frames :=
    fun maintains => (maintains m detached.stacked).mono
      (fun _ _ ended => ended.1.frames_eq) fun _ _ ended => ended.1.frames_eq
  exact ⟨fun id decl typeArgs => unchanged (calls id decl typeArgs args beyond),
    fun module function typeArgs => unchanged (calls.callFunction module function typeArgs beyond)⟩

theorem exists_of_run' {α : Type} {x : Exec α} {value : α} (returned : x.run' m = some value) :
    ∃ m', x m = .ok value m' := by
  have answers : ∀ {result}, x m = result → EStateM.run' (fun _ => result) m = some value := by
    rintro _ rfl
    exact returned
  cases ran : x m with
  | error stop m' => cases answers ran
  | ok other m' => exact ⟨m', congrArg (EStateM.Result.ok · m') (Option.some.inj (answers ran))⟩

/-- The account is opened for a caller that holds a reference to a local of its own. -/
theorem opening_leaves_frames_alone :
    let setup : Setup := ⟨programOf opening, 16, 16⟩
    let main : Frame :=
      { function := ⟨"Bank", "main"⟩
        bindings := [⟨"n", some (.u64 1)⟩,
          ⟨"r", some (.ref { root := .local 0 0, mutable := true })⟩] }
    let m := Machine.start main [.signer (.ofNat 1)] ∅
    let owner := Value.ref { root := .host 0, mutable := false }
    owner.frames = [] ∧ m.Detached ∧
      ∃ m', callFunction setup (call setup 4) none "open" [] [owner] m = .ok (.u64 7) m' ∧
        m'.frames = m.frames := by
  intro setup main m owner
  have detached : m.Detached :=
    { host := List.forall_mem_singleton.mpr rfl
      stored := by
        intro key value found
        cases found
      written := by
        intro key entry found
        cases found }
  have free : ∀ arg ∈ [owner], arg.frames = [] := List.forall_mem_singleton.mpr rfl
  have isolated := (call_leaves_frames_alone setup 4 free detached).2 none "open" []
  have returned : (callFunction setup (call setup 4) none "open" [] [owner]).run' m = some
      (.u64 7) := by
    decide +kernel
  obtain ⟨m', ran⟩ := exists_of_run' returned
  exact ⟨rfl, detached, m', ran, isolated.of_ok ran⟩

end Exec

end Custody
