import Custody.Proofs.Checking.BlockWalks
/-!
# What functions reach

The sets of reached structs are grown along calls until a round changes none. What each round keeps
up holds of the sets in the end, and they are closed under calls: a function reaches what it reaches
by itself, what the functions it calls reach, and nothing else.

An accepted program names everything of this that belongs to the module of a function in its
`acquires` clause.
-/

namespace Custody

variable {id : FunctionId} {signature : Signature} {struct : StructId} {access : Access}
  {decl : FunctionDecl} {motive : FunctionId → Prop}

namespace Access

/-! ## When the rounds are over -/

section Closure

variable {accesses : Table FunctionId Access} {reach : Reach} {entries : List (FunctionId × Access)}

/-- A set that is closed before a round is closed behind it. -/
theorem Closed.foldl_grow (closed : Closed struct entries reach) :
    Closed struct entries (entries.foldl grow reach) :=
  closed.congr (fun _ => closed.knows_foldl) fun _ => isSome_foldl_grow _

/-- What each round keeps up holds of the sets in the end, and they are closed. -/
theorem settle_induction {motive : Reach → Prop} (start : motive reach)
    (step : ∀ reach, motive reach → motive (accesses.entries.foldl grow reach)) :
    motive (settle accesses reach) ∧ ∀ struct, Closed struct accesses.entries
    (settle accesses reach) := by
  fun_induction settle accesses reach with
  | case1 reach grown noted ih => exact ih (eq_foldl_of_round noted ▸ step reach start)
  | case2 reach grown noted =>
    rw [← eq_foldl_of_round noted]
    exact ⟨step reach start, fun struct => (closed_of_round noted struct).foldl_grow⟩

theorem get?_ownReach (id : FunctionId) :
    (ownReach accesses).get? id = (accesses.get? id).map (·.direct) :=
  Table.get?_rewrite (fun _ (access : Access) => access.direct) accesses id

theorem knows_ownReach : knows struct (ownReach accesses) id = true ↔
    ∃ access, accesses.get? id = some access ∧ struct ∈ access.direct := by
  simp [knows_iff, get?_ownReach]

theorem knows_closure_of_direct (found : accesses.get? id = some access)
    (reaches : struct ∈ access.direct) : knows struct (closure accesses) id = true :=
  (settle_induction (motive := (knows struct · id = true))
    (knows_ownReach.mpr ⟨access, found, reaches⟩) fun _ => knows_foldl_grow _).1

theorem isSome_closure (id : FunctionId) :
    ((closure accesses).get? id).isSome = (accesses.get? id).isSome :=
  (settle_induction (motive := fun reach => (reach.get? id).isSome = (accesses.get? id).isSome)
    (by rw [get?_ownReach, Option.isSome_map]) fun _ => (isSome_foldl_grow _).trans).1

/-- A function reaches what the functions it calls reach. -/
theorem knows_closure_of_call {id callee : FunctionId} (found : accesses.get? id = some access)
    (called : callee ∈ access.calls) (known : knows struct (closure accesses) callee = true) :
    knows struct (closure accesses) id = true := by
  have closed : Closed struct accesses.entries (closure accesses) :=
    (settle_induction (motive := fun _ => True) trivial fun _ _ => trivial).2 struct
  refine closed (id, access) (Table.mem_entries_of_get? found) ?_ callee called known
  rw [isSome_closure, found]
  rfl

/-- What holds of all functions that call one of which it holds is passed on by a round. -/
theorem of_knows_foldl_grow (sound : ∀ id, knows struct reach id = true → motive id)
    (call : ∀ entry ∈ entries, ∀ callee ∈ entry.2.calls, motive callee → motive entry.1) :
    ∀ id, knows struct (entries.foldl grow reach) id = true → motive id := by
  refine List.foldlRecOn (motive := fun reach => ∀ id, knows struct reach id = true → motive id)
    entries grow sound fun before sound entry listed id known => ?_
  rcases knows_grow.mp known with earlier | ⟨rfl, _, callee, called, reaches⟩
  · exact sound id earlier
  · exact call entry listed callee called (sound callee reaches)

/-- What holds of the functions that reach the struct by themselves, and of all that call one of
which it holds, holds of every function that reaches the struct. -/
theorem of_knows_closure (own : ∀ entry ∈ accesses.entries, struct ∈ entry.2.direct →
    motive entry.1) (call : ∀ entry ∈ accesses.entries, ∀ callee ∈ entry.2.calls, motive callee →
    motive entry.1) (known : knows struct (closure accesses) id = true) : motive id := by
  refine (settle_induction (motive := fun reach => ∀ id, knows struct reach id = true → motive id)
    ?_ fun _ sound => of_knows_foldl_grow sound call).1 id known
  intro id known
  obtain ⟨access, found, reaches⟩ := knows_ownReach.mp known
  exact own (id, access) (Table.mem_entries_of_get? found) reaches

/-! ## Clauses -/

/-- A clause that is in order names every struct of the function's module that it reaches. -/
theorem mem_acquires_of_verify {u : Universe} (clean : verify u accesses = [])
    (registered : u.function? id = some signature)
    (known : knows struct (closure accesses) id = true) (own : struct.module = id.module) :
    struct.name ∈ signature.acquires := by
  obtain ⟨set, found, member⟩ := knows_iff.mp known
  have passed := List.flatMap_eq_nil_iff.mp clean _ (Table.mem_entries_of_get? found)
  simp only [verifyFunction, registered, List.append_eq_nil_iff, List.map_eq_nil_iff,
    List.filter_eq_nil_iff] at passed
  have declared := passed.2 struct member
  simp only [own, decide_true, Bool.true_and, Bool.not_eq_true', decide_eq_false_iff_not,
    Classical.not_not, List.mem_filterMap, List.mem_map] at declared
  obtain ⟨result, ⟨name, listed, rfl⟩, named⟩ := declared
  have same : struct = ⟨id.module, name⟩ := by
    unfold acquired at named
    cases present : u.struct? ⟨id.module, name⟩ with
    | none => simp [present, Except.toOption] at named
    | some definition =>
      cases key : definition.abilities.key with
      | true =>
        simp only [present, key, if_true, Except.toOption, Option.some.injEq] at named
        exact named.symm
      | false => simp [present, key, Except.toOption] at named
  rw [same]
  exact listed

end Closure

end Access

/-! ## Accepted programs -/

namespace Program

/-- What the body of each function does by itself. -/
def accesses (program : Program) : Table FunctionId Access :=
  Table.ofList ((checkBodies program.types program.modules).map fun body => (body.1, body.2.access))

/-- What the functions of a program reach in storage. -/
def reach (program : Program) : Access.Reach := Access.closure program.accesses

section Accounts

variable {modules : List Module} {program : Program} {id : FunctionId}

/-- The account of a function is the one that the walk over its body leaves behind. -/
theorem get?_accesses (found : program.function? id = some decl)
    (registered : program.types.function? id = some signature) :
    program.accesses.get? id = some
    (Check.runBody ⟨program.types, signature⟩ decl.body).access := by
  refine Table.get?_ofList_of_mem ?_
    (List.mem_map.mpr ⟨_, mem_checkBodies_of_function? found registered, rfl⟩)
  rw [List.map_map]
  exact nodup_checkBodies _ _

/-- Everything that a function of an accepted program may evaluate is on record. -/
theorem Accepted.recorded (accepted : program.Accepted) (found : program.function? id = some decl) :
    ∃ signature access, program.Checked id decl signature ∧ program.accesses.get? id = some access ∧
      Check.RecordedBlock ⟨program.types, signature⟩ access (decl.params.map (·.name))
      decl.body := by
  obtain ⟨signature, checked⟩ := accepted.function found
  refine ⟨signature, _, checked, get?_accesses found checked.registered, ?_⟩
  rw [← checked.params]
  refine Check.recorded_body accepted.types ?_ checked.body
  rw [accepted.types.function_id checked.registered]
  exact checked.registered

/-- The clause of a function names what it reaches of its module's structs. -/
theorem mem_acquires_of_check (accepted : check modules = .ok program)
    (registered : program.types.function? id = some signature)
    (known : Access.knows struct program.reach id = true) (own : struct.module = id.module) :
    struct.name ∈ signature.acquires := by
  obtain ⟨clean, rfl⟩ := problems_eq_nil accepted
  simp only [problems, problemsOf, List.append_eq_nil_iff] at clean
  exact Access.mem_acquires_of_verify clean.2 registered known own

end Accounts

end Program

end Custody
