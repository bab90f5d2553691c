import Custody.Proofs.Execution.Soundness
/-!
# Integrity of references

In executions of an accepted, steady and guarded program no reference into storage dangles: a
resource is missed only by the operation that seeks it. And if mutable references are handed over
apart from every other one, no call that returns has changed what a shared reference among its
arguments leads to. Without the provisos both fail, since the checker looks at the direct callee
only, and at the places that references are known to point at.
-/

namespace Custody

open Exec

section Hosting

variable {typeArgs : List Ty} {setup : Setup} {fair : Visit → Prop} {store : Store}
  {function : FunctionId} {args : List Value}

/-- However a run ends that a request starts, the calls on record returned in good order, and if it
stopped for want of a resource, the operation that sought it is on record. -/
theorem launch_secured (accepted : setup.program.Accepted)
    (steady : setup.program.steady false = true) {guard : Guard}
    (guarded : setup.program.guarded guard = true)
    (inOrder : ∀ visit : Visit,
      (guard.apart = true → visit.Undisturbed setup.program.types) → fair visit)
    (conforms : store.Conforms setup.program.types) {result : EStateM.Result Stop Machine Value}
    (launched : setup.launch store function typeArgs args = .ok result) :
    (∀ value m, result = .ok value m → m.Clear fair) ∧
      ∀ stop m, result = .error stop m → m.Clear fair ∧ stop.MissedByOperation m := by
  obtain ⟨admitted, rfl⟩ := run_of_launch launched
  have governs : Regime.Governs ⟨⟨fair, True⟩, guard, fun _ => 0⟩ setup.program false :=
    ⟨accepted, steady, fun _ => guarded, .inr fun _ => rfl, fun visit undisturbed =>
      inOrder visit (undisturbed trivial)⟩
  have secured := ensures_hostCall governs (weighs_zero _) conforms admitted
    fun visit none => by cases none
  exact ⟨fun _ _ ended => (secured.of_ok ended).1,
    fun _ _ ended => (secured.of_error ended).imp_right fun allowed => allowed.missed trivial⟩

end Hosting

/-! ## No reference into storage dangles -/

/-- An execution of an accepted, steady and guarded program that fails for want of a resource was
sent to the slot by no reference: the last operation on storage that it began sought the resource
there, to move it out or to borrow it. -/
theorem missing_only_by_operation {modules : List Module} {program : Program} {store : Store}
    (accepted : check modules = .ok program) (steady : program.isSteady = true)
    (guarded : program.isGuarded = true) (conforms : store.Conforms program.types)
    (maxCallDepth loopBound : Nat) (function : FunctionId) (typeArgs : List Ty)
    (args : List Value) {absence : Absence}
    (stopped : Setup.execute ⟨program, maxCallDepth, loopBound⟩ store function typeArgs args =
      .error (.failure (.missing absence))) :
    absence.viaReference = false ∧
      ∃ reach, (Setup.tally ⟨program, maxCallDepth, loopBound⟩ store function typeArgs
          args).reached.head? = some reach ∧
        reach.key = absence.key ∧
          (reach.use = .moveFrom ∨ ∃ mutable, reach.use = .borrowGlobal mutable) := by
  have sound := accepted_of_check accepted
  rw [execute_eq] at stopped
  cases launched : Setup.launch ⟨program, maxCallDepth, loopBound⟩ store function typeArgs args with
  | error stop =>
    rw [launched] at stopped
    obtain rfl : stop = .failure (.missing absence) := Except.error.inj stopped
    exact absurd rfl ((refusal_of_launch launched).present absence)
  | ok result =>
    have secured := @launch_secured _ ⟨program, maxCallDepth, loopBound⟩ (fun _ => True) _ _ _ sound
      steady ⟨program.reach, false⟩ guarded (fun _ _ => trivial) conforms _ launched
    rw [launched] at stopped
    cases result with
    | error stop m =>
      obtain rfl : stop = .failure (.missing absence) := Except.error.inj stopped
      have missed := (secured.2 _ m rfl).2 absence rfl
      simpa only [Seeks, Setup.tally, launched] using missed
    | ok value m =>
      -- A commit fails for another reason.
      cases stale : m.tx.stale? store with
      | none => simp [Except.bind, settleAccount, Transaction.commit, stale,
          Except.mapError] at stopped
      | some key => simp [Except.bind, settleAccount, Transaction.commit, stale,
          Except.mapError] at stopped

/-- A resource is lent to another module while it is borrowed, and then one is sought that is not
there. -/
def auditing : List Module := [
  { name := "Bank"
    structs := [{ name := "Vault", abilities := { key := true }, fields := [⟨"amount", .u64⟩] }]
    functions := [
      { name := "main"
        params := [⟨"owner", .ref false .signer⟩, ⟨"other", .address⟩]
        ret := some .u64
        acquires := ["Vault"]
        body := [
          .eval (.moveTo { name := "Vault" } (.var "owner")
            (.pack { name := "Vault" } [("amount", .u64 7)])),
          .bind "mine" none
            (.borrowGlobal { name := "Vault" } false (.signerAddress (.var "owner"))),
          .bind "seen" none
            (.call (some "Clerk") "read" [] [.borrowField false (.var "mine") "amount"]),
          .unpack { name := "Vault" } [("amount", .bind "amount")]
            (.moveFrom { name := "Vault" } (.var "other")),
          .ret (some (.binary .add (.var "seen") (.var "amount")))] }] },
  { name := "Clerk"
    functions := [
      { name := "read"
        params := [⟨"amount", .ref false .u64⟩]
        ret := some .u64
        body := [.ret (some (.deref (.var "amount")))] }] }]

/-- The vault at address two. -/
def otherVault : SlotKey := ⟨.ofNat 2, ⟨⟨"Bank", "Vault"⟩, []⟩⟩

theorem auditing_misses_by_operation :
    check auditing = .ok (programOf auditing) ∧ (programOf auditing).isSteady = true ∧
      (programOf auditing).isGuarded = true ∧
      trial auditing ⟨"Bank", "main"⟩ [.signer (.ofNat 1), .address (.ofNat 2)] =
        .error (.failure (.missing otherVault)) ∧
      ∃ reach, (Setup.tally ⟨programOf auditing, 16, 16⟩ ∅ ⟨"Bank", "main"⟩ []
          [.signer (.ofNat 1), .address (.ofNat 2)]).reached.head? = some reach ∧
        reach.key = otherVault ∧
          (reach.use = .moveFrom ∨ ∃ mutable, reach.use = .borrowGlobal mutable) := by
  have accepted : check auditing = .ok (programOf auditing) := check_of_clean (by decide +kernel)
  have steady : (programOf auditing).isSteady = true := by decide +kernel
  have guarded : (programOf auditing).isGuarded = true := by decide +kernel
  have stopped : trial auditing ⟨"Bank", "main"⟩ [.signer (.ofNat 1), .address (.ofNat 2)] =
      .error (.failure (.missing otherVault)) := by
    apply eq_error_of_stop?
    decide +kernel
  exact ⟨accepted, steady, guarded, stopped, (missing_only_by_operation accepted steady guarded
    (conforms_empty _) 16 16 ⟨"Bank", "main"⟩ [] [.signer (.ofNat 1), .address (.ofNat 2)]
    stopped).2⟩

/-- A module that keeps a resource borrowed while another one has it taken out. -/
def evicting : List Module := [
  { name := "A"
    structs := [
      { name := "R", abilities := { key := true, drop := true }, fields := [⟨"n", .u64⟩] }]
    functions := [
      { name := "take"
        params := [⟨"a", .address⟩]
        acquires := ["R"]
        body := [
          .unpack { name := "R" } [("n", .bind "n")] (.moveFrom { name := "R" } (.var "a"))] },
      { name := "main"
        ret := some .u64
        acquires := ["R"]
        body := [
          .bind "r" none (.borrowGlobal { name := "R" } false (.address (.ofNat 1))),
          .eval (.call (some "B") "g" [] [.address (.ofNat 1)]),
          .ret (some (.deref (.borrowField false (.var "r") "n")))] }] },
  { name := "B"
    functions := [
      { name := "g"
        params := [⟨"a", .address⟩]
        body := [.eval (.call (some "A") "take" [] [.var "a"])] }] }]

/-- The slot that is borrowed. -/
def lentSlot : SlotKey := ⟨.ofNat 1, ⟨⟨"A", "R"⟩, []⟩⟩

/-- Storage with the resource in it. -/
def lentStore : Store := (∅ : Store).write lentSlot (some (.struct lentSlot.tag [.u64 7]))

theorem evicting_dangles :
    check evicting = .ok (programOf evicting) ∧ (programOf evicting).isSteady = true ∧
      lentStore.Conforms (programOf evicting).types ∧
      Setup.execute ⟨programOf evicting, 16, 16⟩ lentStore ⟨"A", "main"⟩ [] [] =
        .error (.failure (.missing { key := lentSlot, viaReference := true })) := by
  refine ⟨check_of_clean (by decide +kernel), by decide +kernel, ?_, eq_error_of_stop? ?_⟩
  · intro key value found
    rw [lentStore, Store.get?_write] at found
    split at found
    · rename_i same
      obtain rfl := Option.some.inj found
      rw [same]
      decide +kernel
    · cases found
  · decide +kernel

/-! ## No change under a shared reference -/

/-- In every execution of an accepted and steady program that hands mutable references over apart,
every call that returned left what its shared reference arguments led to as it found it. -/
theorem shared_arguments_are_undisturbed {modules : List Module} {program : Program} {store : Store}
    (accepted : check modules = .ok program) (steady : program.isSteady = true)
    (apart : program.isApart = true) (conforms : store.Conforms program.types)
    (maxCallDepth loopBound : Nat) (function : FunctionId) (typeArgs : List Ty) (args : List Value)
    {visit : Visit}
    (returned : visit ∈ (Setup.tally ⟨program, maxCallDepth, loopBound⟩ store function typeArgs
      args).returned)
    {signature : Signature} {index : Nat} {name : String} {inner : Ty}
    (registered : program.types.function? visit.function = some signature)
    (declared : signature.params[index]? = some (name, .ref false inner)) :
    ∃ value, visit.began[index]? = some (some value) ∧ visit.ended[index]? = some (some value) := by
  have sound := accepted_of_check accepted
  have undisturbed : visit.Undisturbed program.types := by
    unfold Setup.tally at returned
    cases launched : Setup.launch ⟨program, maxCallDepth, loopBound⟩ store function
      typeArgs args with
    | error stop =>
      rw [launched] at returned
      cases returned
    | ok result =>
      have secured := @launch_secured _ ⟨program, maxCallDepth, loopBound⟩
        (fun visit => visit.Undisturbed program.types) _ _ _ sound steady
        ⟨program.reach, true⟩ apart (fun _ undisturbed => undisturbed rfl) conforms _ launched
      rw [launched] at returned
      cases result with
      | ok value m => exact secured.1 value m rfl visit returned
      | error stop m => exact (secured.2 stop m rfl).1 visit returned
  exact undisturbed signature index name inner registered declared

/-- A call that writes through one of its arguments while it reads through the other. -/
def poking : Module :=
  { name := "M"
    functions := [
      { name := "poke"
        params := [⟨"m", .ref true .u64⟩, ⟨"s", .ref false .u64⟩]
        ret := some .bool
        body := [
          .bind "before" none (.deref (.var "s")),
          .write (.var "m") (.u64 5),
          .ret (some (.binary .eq (.var "before") (.deref (.var "s"))))] }] }

/-- The call is given references to two locals. -/
def pokingApart : List Module := [
  { poking with
    functions := poking.functions ++ [
      { name := "main"
        ret := some .bool
        body := [
          .bind "x" none (.u64 1),
          .bind "y" none (.u64 2),
          .ret (some (.call none "poke" [] [.borrow true "x", .borrow false "y"]))] }] }]

theorem pokingApart_is_undisturbed :
    check pokingApart = .ok (programOf pokingApart) ∧ (programOf pokingApart).isSteady = true ∧
      (programOf pokingApart).isApart = true ∧
      ∃ visit ∈ (Setup.tally ⟨programOf pokingApart, 16, 16⟩ ∅ ⟨"M", "main"⟩ [] []).returned,
        visit.function = ⟨"M", "poke"⟩ ∧
        ∃ value, visit.began[1]? = some (some value) ∧ visit.ended[1]? = some (some value) := by
  have accepted : check pokingApart = .ok (programOf pokingApart) :=
    check_of_clean (by decide +kernel)
  have steady : (programOf pokingApart).isSteady = true := by decide +kernel
  have apart : (programOf pokingApart).isApart = true := by decide +kernel
  have called : ⟨"M", "poke"⟩ ∈ (Setup.tally ⟨programOf pokingApart, 16, 16⟩ ∅ ⟨"M", "main"⟩ []
      []).returned.map (·.function) := by
    decide +kernel
  have shared : (((programOf pokingApart).types.function? ⟨"M", "poke"⟩).map (·.params[1]?)) =
      some (some ("s", .ref false .u64)) := by
    decide +kernel
  obtain ⟨visit, returned, function⟩ := List.mem_map.mp called
  obtain ⟨signature, registered, declared⟩ := Option.map_eq_some_iff.mp shared
  exact ⟨accepted, steady, apart, visit, returned, function,
    shared_arguments_are_undisturbed accepted steady apart (conforms_empty _) 16 16 ⟨"M", "main"⟩ []
    [] returned (function ▸ registered) declared⟩

/-- The call is given two references that another call returned, from a place that is not known. -/
def pokingAlias : List Module := [
  { poking with
    functions := poking.functions ++ [
      { name := "pick"
        params := [⟨"a", .ref true .u64⟩, ⟨"b", .ref true .u64⟩]
        ret := some (.ref true .u64)
        body := [.ret (some (.var "a"))] },
      { name := "main"
        ret := some .bool
        body := [
          .bind "x" none (.u64 1),
          .bind "y" none (.u64 2),
          .bind "r" none (.call none "pick" [] [.borrow true "x", .borrow true "y"]),
          .ret (some (.call none "poke" [] [.copy "r", .freeze (.copy "r")]))] }] }]

theorem pokingAlias_is_disturbed :
    check pokingAlias = .ok (programOf pokingAlias) ∧ (programOf pokingAlias).isSteady = true ∧
      (((programOf pokingAlias).types.function? ⟨"M", "poke"⟩).map (·.params[1]?)) =
        some (some ("s", .ref false .u64)) ∧
      ∃ visit ∈ (Setup.tally ⟨programOf pokingAlias, 16, 16⟩ ∅ ⟨"M", "main"⟩ [] []).returned,
        visit.function = ⟨"M", "poke"⟩ ∧ visit.began[1]? = some (some (.u64 1)) ∧
          visit.ended[1]? = some (some (.u64 5)) := by
  refine ⟨check_of_clean (by decide +kernel), by decide +kernel, by decide +kernel, ?_⟩
  have changed : ((Setup.tally ⟨programOf pokingAlias, 16, 16⟩ ∅ ⟨"M", "main"⟩ [] []).returned.any
      fun visit => decide (visit.function = ⟨"M", "poke"⟩) &&
        decide (visit.began[1]? = some (some (.u64 1))) &&
        decide (visit.ended[1]? = some (some (.u64 5)))) = true := by
    decide +kernel
  obtain ⟨visit, returned, here⟩ := List.any_eq_true.mp changed
  simp only [Bool.and_eq_true, decide_eq_true_eq] at here
  exact ⟨visit, returned, here.1.1, here.1.2, here.2⟩

end Custody
