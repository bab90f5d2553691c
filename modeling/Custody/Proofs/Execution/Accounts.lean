import Custody.Proofs.Execution.Orderly
import Custody.Proofs.Execution.Soundness
import Custody.Proofs.Types.Registered
/-!
# What executions call and reach

The account of an execution lists the calls it began and its operations on storage, whether it
returned or not. For every accepted program the account is in order: operations are announced by
every active function of the module they are in, calls are fully instantiated, and functions that
are registered are found. Only the last needs a proviso, on the names of modules.
-/

namespace Custody

/-! ## Announced operations -/

/-- Whenever an execution of an accepted program takes a struct out of storage or borrows it there,
every active function of the module that declares the struct announces it. -/
theorem reached_structs_are_acquired {modules : List Module} {program : Program}
    (accepted : check modules = .ok program) (maxCallDepth loopBound : Nat) (store : Store)
    (function : FunctionId) (typeArgs : List Ty) (args : List Value) {reach : Reach}
    (happened : reach ∈
      (Setup.tally ⟨program, maxCallDepth, loopBound⟩ store function typeArgs args).reached)
    (acquires : reach.use.acquires = true) {frame : Frame} (active : frame ∈ reach.calls)
    (own : frame.function.module = reach.key.tag.id.module) :
    ∃ decl, program.function? frame.function = some decl ∧ reach.key.tag.id.name ∈
    decl.acquires := by
  obtain ⟨_, orderly⟩ := tally_orderly ⟨program, maxCallDepth, loopBound⟩ store function
    typeArgs args (accepted_of_check accepted)
  have justified := orderly.reached reach happened
  obtain ⟨decl, signature, found, checked, _⟩ := justified.active frame active
  have announced := Program.mem_acquires_of_check accepted checked.registered
    (justified.known acquires frame active) own.symm
  exact ⟨decl, found, checked.acquires ▸ announced⟩

/-- Boxes of any type that can be stored, one module that owns them, and another that passes
requests on to it. -/
def fetching : List Module := [
  { name := "Safe"
    structs := [
      { name := "Box"
        typeParams := [{ name := "T", constraints := { store := true } }]
        abilities := { key := true }
        fields := [⟨"item", .param "T"⟩] }]
    functions := [
      { name := "put"
        typeParams := [{ name := "T", constraints := { store := true } }]
        params := [⟨"owner", .ref false .signer⟩, ⟨"item", .param "T"⟩]
        body := [
          .eval (.moveTo { name := "Box", args := [.param "T"] } (.var "owner")
            (.pack { name := "Box", args := [.param "T"] } [("item", .move "item")]))] },
      { name := "take"
        typeParams := [{ name := "T", constraints := { store := true } }]
        params := [⟨"at", .address⟩]
        ret := some (.param "T")
        acquires := ["Box"]
        body := [
          .unpack { name := "Box", args := [.param "T"] } [("item", .bind "item")]
            (.moveFrom { name := "Box", args := [.param "T"] } (.var "at")),
          .ret (some (.move "item"))] },
      { name := "main"
        params := [⟨"owner", .ref false .signer⟩]
        ret := some .u64
        acquires := ["Box"]
        body := [
          .bind "at" none (.signerAddress (.var "owner")),
          .eval (.call none "put" [.u64] [.var "owner", .u64 7]),
          .ret (some (.call (some "Desk") "fetch" [.u64] [.var "at"]))] }] },
  { name := "Desk"
    functions := [
      { name := "fetch"
        typeParams := [{ name := "T", constraints := { store := true } }]
        params := [⟨"at", .address⟩]
        ret := some (.param "T")
        body := [.ret (some (.call (some "Safe") "take" [.param "T"] [.var "at"]))] }] }]

/-- What the main function does for the signer of address one. -/
def fetchingTally : Tally :=
  Setup.tally ⟨programOf fetching, 16, 16⟩ ∅ ⟨"Safe", "main"⟩ [] [.signer (.ofNat 1)]

theorem fetched_boxes_are_acquired :
    check fetching = .ok (programOf fetching) ∧
      ∃ reach ∈ fetchingTally.reached, reach.use = .moveFrom ∧ reach.key.tag.id = ⟨"Safe", "Box"⟩ ∧
        ∃ frame ∈ reach.calls, frame.function = ⟨"Safe", "main"⟩ ∧
          ∃ decl, (programOf fetching).function? frame.function = some decl ∧
          "Box" ∈ decl.acquires := by
  have accepted : check fetching = .ok (programOf fetching) := check_of_clean (by decide +kernel)
  have taken : (fetchingTally.reached.any fun reach =>
      decide (reach.use = .moveFrom) && decide (reach.key.tag.id = ⟨"Safe", "Box"⟩) &&
        reach.calls.any fun frame => decide (frame.function = ⟨"Safe", "main"⟩)) = true := by
    decide +kernel
  obtain ⟨reach, happened, here⟩ := List.any_eq_true.mp taken
  simp only [Bool.and_eq_true, decide_eq_true_eq, List.any_eq_true] at here
  obtain ⟨⟨use, struct⟩, frame, active, main⟩ := here
  obtain ⟨decl, found, announced⟩ := reached_structs_are_acquired accepted 16 16 ∅
    ⟨"Safe", "main"⟩ [] [.signer (.ofNat 1)] happened (by rw [use]; rfl) active
    (by rw [main, struct])
  rw [struct] at announced
  exact ⟨accepted, reach, happened, use, struct, frame, active, main, decl, found, announced⟩

/-! ## Instantiated calls -/

/-- In every execution of an accepted program, every call has one type argument for each type
parameter of its function: a type of values, well-formed and with the abilities that the parameter
asks for. So the slots that operations reach are slots of such types, with the ability to be stored
at the top. -/
theorem calls_and_slots_are_instantiated {modules : List Module} {program : Program}
    (accepted : check modules = .ok program) (maxCallDepth loopBound : Nat) (store : Store)
    (function : FunctionId) (typeArgs : List Ty) (args : List Value) :
    (∀ frame ∈
        (Setup.tally ⟨program, maxCallDepth, loopBound⟩ store function typeArgs args).entered,
      ∃ decl signature, program.function? frame.function = some decl ∧
        program.types.function? frame.function = some signature ∧
        signature.typeParams = decl.typeParams ∧
        frame.typeArgs.length = decl.typeParams.length ∧
        ∀ entry ∈ decl.typeParams.zip frame.typeArgs, program.types.isValueType entry.2 = true ∧
          entry.1.constraints.subset (program.types.abilities [] entry.2) = true) ∧
    ∀ reach ∈ (Setup.tally ⟨program, maxCallDepth, loopBound⟩ store function typeArgs args).reached,
      program.types.isValueType reach.key.tag.ty = true ∧
        (program.types.abilities [] reach.key.tag.ty).key = true := by
  obtain ⟨_, orderly⟩ := tally_orderly ⟨program, maxCallDepth, loopBound⟩ store function
    typeArgs args (accepted_of_check accepted)
  constructor
  · intro frame begun
    obtain ⟨decl, signature, found, checked, _, instantiates⟩ := orderly.entered frame begun
    rw [checked.typeParams] at instantiates
    refine ⟨decl, signature, found, checked.registered, checked.typeParams, instantiates.length,
      fun entry listed => ⟨?_, instantiates.constrained entry listed⟩⟩
    rw [Universe.isValueType_eq]
    exact Universe.arePlain_iff.mp instantiates.plain _ (List.of_mem_zip listed).2
  · intro reach happened
    have justified := orderly.reached reach happened
    exact ⟨(Universe.isValueType_eq _ _).trans justified.plain, justified.key⟩

theorem fetching_is_instantiated :
    check fetching = .ok (programOf fetching) ∧
      (∃ frame ∈ fetchingTally.entered,
        frame.function = ⟨"Desk", "fetch"⟩ ∧ frame.typeArgs = [.u64] ∧
        ∃ decl, (programOf fetching).function? frame.function = some decl ∧
          frame.typeArgs.length = decl.typeParams.length) ∧
      ∃ reach ∈ fetchingTally.reached, reach.key.tag = ⟨⟨"Safe", "Box"⟩, [.u64]⟩ ∧
        (programOf fetching).types.isValueType reach.key.tag.ty = true ∧
        ((programOf fetching).types.abilities [] reach.key.tag.ty).key = true := by
  have accepted : check fetching = .ok (programOf fetching) := check_of_clean (by decide +kernel)
  obtain ⟨calls, slots⟩ := calls_and_slots_are_instantiated accepted 16 16 ∅ ⟨"Safe", "main"⟩ []
    [.signer (.ofNat 1)]
  have passedOn : (fetchingTally.entered.any fun frame =>
      decide (frame.function = ⟨"Desk", "fetch"⟩) && decide (frame.typeArgs = [.u64])) = true := by
    decide +kernel
  have boxed : (fetchingTally.reached.any fun reach =>
      decide (reach.key.tag = ⟨⟨"Safe", "Box"⟩, [.u64]⟩)) = true := by
    decide +kernel
  obtain ⟨frame, begun, here⟩ := List.any_eq_true.mp passedOn
  simp only [Bool.and_eq_true, decide_eq_true_eq] at here
  obtain ⟨reach, happened, tagged⟩ := List.any_eq_true.mp boxed
  obtain ⟨decl, _, found, _, _, count, _⟩ := calls frame begun
  exact ⟨accepted, ⟨frame, begun, here.1, here.2, decl, found, count⟩, reach, happened,
    of_decide_eq_true tagged, slots reach happened⟩

/-! ## Functions that are found -/

/-- An execution that begins with a registered function, in a program where all of them are found,
never fails for want of a function. -/
theorem execute_finds_functions {setup : Setup} {store : Store} {function : FunctionId}
    {typeArgs : List Ty} {args : List Value} (accepted : setup.program.Accepted)
    (found : ∀ id, (setup.program.types.function? id).isSome = true →
      (setup.program.function? id).isSome = true)
    (registered : (setup.program.types.function? function).isSome = true) (other : FunctionId) :
    setup.execute store function typeArgs args ≠ .error (.failure (.unknownFunction other)) := by
  intro ended
  rcases launch_of_execute ended with refused | ⟨m, stopped⟩ | ⟨key, conflict⟩
  · rcases (refusal_of_launch refused).unknown other rfl with unfound | unregistered
    · cases unfound.symm ▸ found function registered
    · cases unregistered.symm ▸ registered
  · obtain ⟨top, _, accountable⟩ := orderly_launch accepted stopped
    obtain ⟨known, missing⟩ := (accountable _ m rfl).2 other rfl
    cases missing.symm ▸ found other known
  · cases conflict

/-- Let a declaration set be accepted. If no module repeats the name of an earlier one with
functions of its own, and only then, every registered function is found where executions look for
it. It is the one whose signature was registered and whose body was checked, and no execution that
begins with it fails for want of a function. -/
theorem registered_functions_are_executable {modules : List Module} {program : Program}
    (accepted : check modules = .ok program) :
    Unrepeated modules ↔
      ∀ id signature, program.types.function? id = some signature →
        ∃ decl, program.function? id = some decl ∧
          signature = (program.types.defineFunction id.module decl).1 ∧
          (id, Check.runBody ⟨program.types, signature⟩ decl.body) ∈
            checkBodies program.types modules ∧
          (Check.runBody ⟨program.types, signature⟩ decl.body).problems = [] ∧
          ∀ maxCallDepth loopBound store typeArgs args other,
            Setup.execute ⟨program, maxCallDepth, loopBound⟩ store id typeArgs args ≠
              .error (.failure (.unknownFunction other)) := by
  have sound := accepted_of_check accepted
  obtain ⟨clean, rfl⟩ := problems_eq_nil accepted
  constructor
  · intro unrepeated id signature registered
    have everywhere : ∀ id, ((Universe.build modules).1.function? id).isSome = true →
        (Program.function? ⟨(Universe.build modules).1, modules⟩ id).isSome = true := by
      intro id registered
      obtain ⟨decl, found⟩ :=
        function?_of_unrepeated unrepeated (Universe.isSome_function?_build.mp registered)
      exact Option.isSome_of_eq_some found
    have known := Option.isSome_of_eq_some registered
    obtain ⟨decl, found⟩ := Option.isSome_iff_exists.mp (everywhere id known)
    obtain ⟨signature', checked⟩ := sound.function found
    obtain rfl : signature' = signature :=
    Option.mem_unique checked.registered registered
    exact ⟨decl, found,
      signature_of_function? found registered, mem_checkBodies_of_function? found registered,
      checked.body, fun _ _ _ _ _ other => execute_finds_functions sound everywhere known other⟩
  · intro found
    refine unrepeated_of_found (Universe.build modules).1
      (Universe.distinct_of_clean clean) fun module listed decl inside => ?_
    have registered : ((Universe.build modules).1.function? ⟨module.name, decl.name⟩).isSome =
        true :=
      Universe.isSome_function?_build.mpr ⟨(module.name, decl),
        List.mem_flatMap.mpr ⟨module, listed, List.mem_map.mpr ⟨decl, inside, rfl⟩⟩, rfl⟩
    obtain ⟨signature, registered⟩ := Option.isSome_iff_exists.mp registered
    obtain ⟨other, here, _⟩ := found _ signature registered
    exact ⟨other, here⟩

theorem fetching_is_executable :
    check fetching = .ok (programOf fetching) ∧ Unrepeated fetching ∧
      ∃ decl, (programOf fetching).function? ⟨"Desk", "fetch"⟩ = some decl := by
  have accepted : check fetching = .ok (programOf fetching) := check_of_clean (by decide +kernel)
  have unrepeated : Unrepeated fetching := by
    unfold Unrepeated
    decide +kernel
  have registered : ((programOf fetching).types.function? ⟨"Desk", "fetch"⟩).isSome = true := by
    decide +kernel
  obtain ⟨signature, registered⟩ := Option.isSome_iff_exists.mp registered
  obtain ⟨decl, found, _⟩ :=
    (registered_functions_are_executable accepted).mp unrepeated ⟨"Desk", "fetch"⟩
      signature registered
  exact ⟨accepted, unrepeated, decl, found⟩

/-- Two modules of one name, of which only the second declares a function. -/
def overshadowed : List Module := [
  { name := "M" },
  { name := "M"
    functions := [{ name := "main", ret := some .u64, body := [.ret (some (.u64 7))] }] }]

theorem overshadowed_is_not_executable :
    check overshadowed = .ok (programOf overshadowed) ∧
      ((programOf overshadowed).types.function? ⟨"M", "main"⟩).isSome = true ∧
      (programOf overshadowed).function? ⟨"M", "main"⟩ = none ∧
      trial overshadowed ⟨"M", "main"⟩ [] = .error (.failure (.unknownFunction ⟨"M", "main"⟩)) := by
  refine ⟨check_of_clean (by decide +kernel), by decide +kernel, rfl, eq_error_of_stop? ?_⟩
  decide +kernel

end Custody
