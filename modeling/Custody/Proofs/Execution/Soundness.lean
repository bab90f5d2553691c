import Custody.Proofs.Execution.Entry
/-!
# Soundness of the checker

Executions of an accepted program run without a breach and keep every value of the type it should
have, provided that the program is steady. Without that proviso both fail: the checker walks a loop
once, and an operand that waits for its operation can lose what it borrowed to the operands behind
it.
-/

namespace Custody

variable {result : Except Stop Receipt}

/-! ## Storage that programs leave -/

/-- Storage that executions of a program lead to from the empty one. -/
inductive Reached (program : Program) : Store → Prop
  | empty : Reached program ∅
  | executed {store : Store} {maxCallDepth loopBound : Nat} {function : FunctionId}
      {typeArgs : List Ty} {args : List Value} {receipt : Receipt} (before : Reached program store)
      (done : Setup.execute ⟨program, maxCallDepth, loopBound⟩ store function typeArgs args =
        .ok receipt) : Reached program receipt.store

theorem conforms_empty (u : Universe) : Store.Conforms u ∅ := fun _ _ found => nomatch found

/-- What is reached conforms. -/
theorem Reached.conforms {program : Program} {linear : Bool} {store : Store}
    (reached : Reached program store) (accepted : program.Accepted)
    (steady : program.steady linear = true) : store.Conforms program.types := by
  induction reached with
  | empty => exact conforms_empty _
  | executed _ done ih =>
    exact (executed_of_ok done accepted steady (.inr fun _ => rfl) (weighs_zero _) ih).stored

/-! ## Looking at one execution -/

/-- A call on empty storage, with room for short runs. -/
def trial (modules : List Module) (function : FunctionId) (args : List Value) :
    Except Stop Receipt :=
  Setup.execute ⟨programOf modules, 16, 16⟩ ∅ function [] args

/-- Why an execution stopped. -/
def stop? : Except Stop Receipt → Option Stop
  | .error stop => some stop
  | .ok _ => none

theorem eq_error_of_stop? {stop : Stop} (found : stop? result = some stop) :
    result = .error stop := by
  cases result with
  | error other => exact congrArg _ (Option.some.inj found)
  | ok receipt => cases found

/-- What is seen of a result shows that there is one. -/
theorem eq_ok_of_toOption {ε ρ α : Type} {result : Except ε ρ} {look : ρ → α} {seen : α}
    (found : result.toOption.map look = some seen) :
    ∃ done, result = .ok done ∧ look done = seen := by
  cases result with
  | error _ => cases found
  | ok done => exact ⟨done, rfl, Option.some.inj found⟩

/-! ## No breach -/

/-- An execution of an accepted and steady program, on storage that the program left, never breaches
an invariant of the machine. -/
theorem execute_never_breaches {modules : List Module} {program : Program} {store : Store}
    (accepted : check modules = .ok program) (steady : program.isSteady = true)
    (reached : Reached program store) (maxCallDepth loopBound : Nat) (function : FunctionId)
    (typeArgs : List Ty) (args : List Value) (breach : Breach) :
    Setup.execute ⟨program, maxCallDepth, loopBound⟩ store function typeArgs args ≠
      .error (.failure (.invariantViolation breach)) := by
  intro stopped
  have sound := accepted_of_check accepted
  have fair := fair_of_error stopped sound steady (reached.conforms sound steady)
  exact nomatch fair

/-- A loop whose body counts through a reference. -/
def counting : List Module := [
  { name := "Counter"
    functions := [
      { name := "bump"
        params := [⟨"n", .ref true .u64⟩]
        body := [.write (.var "n") (.binary .add (.deref (.var "n")) (.u64 1))] },
      { name := "main"
        ret := some .u64
        body := [
          .bind "n" none (.u64 0),
          .loop (.binary .lt (.var "n") (.u64 3)) [.eval (.call none "bump" [] [.borrow true "n"])],
          .ret (some (.var "n"))] }] }]

theorem counting_never_breaches :
    check counting = .ok (programOf counting) ∧ (programOf counting).isSteady = true ∧
      (trial counting ⟨"Counter", "main"⟩ []).toOption.map (·.value) = some (.u64 3) ∧
      trial counting ⟨"Counter", "main"⟩ [] ≠ .error
      (.failure (.invariantViolation .danglingLocal)) := by
  have accepted : check counting = .ok (programOf counting) := check_of_clean (by decide +kernel)
  have steady : (programOf counting).isSteady = true := by decide +kernel
  exact ⟨accepted, steady, by decide +kernel,
    execute_never_breaches accepted steady .empty 16 16 ⟨"Counter", "main"⟩ [] [] .danglingLocal⟩

/-- A loop whose condition moves a local away, and is then asked again. -/
def spinning : List Module := [
  { name := "M"
    functions := [
      { name := "yes"
        params := [⟨"n", .u64⟩]
        ret := some .bool
        body := [.ret (some (.bool true))] },
      { name := "main"
        body := [.bind "x" none (.u64 1), .loop (.call none "yes" [] [.move "x"]) []] }] }]

theorem spinning_breaches :
    check spinning = .ok (programOf spinning) ∧
      trial spinning ⟨"M", "main"⟩ [] = .error
      (.failure (.invariantViolation (.movedMove "x"))) := by
  refine ⟨check_of_clean (by decide +kernel), eq_error_of_stop? ?_⟩
  decide +kernel

/-! ## Types -/

/-- What conforms to the type of a tag is a struct with that tag. -/
theorem eq_struct_of_conforms {u : Universe} {tag : StructTag} {value : Value}
    (conforms : value.conformsTo u tag.ty = true) : ∃ fields, value = .struct tag fields := by
  obtain ⟨fields, _, same, _⟩ := Value.conformsTo_struct_iff.mp conforms
  exact ⟨fields, same⟩

/-- An execution of an accepted and steady program returns a value of the type its function
declares, and leaves in every slot a value of the type that the slot is for. -/
theorem execute_preserves_types {modules : List Module} {program : Program} {store : Store}
    (accepted : check modules = .ok program) (steady : program.isSteady = true)
    (conforms : store.Conforms program.types) {maxCallDepth loopBound : Nat} {function : FunctionId}
    {typeArgs : List Ty} {args : List Value} {receipt : Receipt}
    (done : Setup.execute ⟨program, maxCallDepth, loopBound⟩ store function typeArgs args =
      .ok receipt) :
    (∃ signature, program.types.function? function = some signature ∧
        receipt.value.conformsTo program.types (signature.ret.subst typeArgs) = true) ∧
      ∀ key value, receipt.store.get? key = some value →
        value.conformsTo program.types key.tag.ty = true ∧ ∃ fields, value = .struct key.tag
        fields := by
  have executed := executed_of_ok done (accepted_of_check accepted) steady (.inr fun _ => rfl)
    (weighs_zero _) conforms
  refine ⟨executed.value, fun key value found => ?_⟩
  have conforms' := executed.stored key value found
  exact ⟨conforms', eq_struct_of_conforms conforms'⟩

/-- A resource that is put into storage. -/
def opening : List Module := [
  { name := "Bank"
    structs := [{ name := "Vault", abilities := { key := true }, fields := [⟨"amount", .u64⟩] }]
    functions := [
      { name := "open"
        params := [⟨"owner", .ref false .signer⟩]
        ret := some .u64
        body := [
          .bind "vault" none (.pack { name := "Vault" } [("amount", .u64 7)]),
          .eval (.moveTo { name := "Vault" } (.var "owner") (.move "vault")),
          .ret (some (.u64 7))] }] }]

theorem opening_preserves_types :
    check opening = .ok (programOf opening) ∧ (programOf opening).isSteady = true ∧
      ∃ receipt, trial opening ⟨"Bank", "open"⟩ [.signer (.ofNat 1)] = .ok receipt ∧
        ∀ key value, receipt.store.get? key = some value →
          value.conformsTo (programOf opening).types key.tag.ty = true ∧
            ∃ fields, value = .struct key.tag fields := by
  have accepted : check opening = .ok (programOf opening) := check_of_clean (by decide +kernel)
  have steady : (programOf opening).isSteady = true := by decide +kernel
  have returned : (trial opening ⟨"Bank", "open"⟩ [.signer (.ofNat 1)]).toOption.map (·.value) =
      some (.u64 7) := by
    decide +kernel
  obtain ⟨receipt, done, _⟩ := eq_ok_of_toOption returned
  exact ⟨accepted, steady, receipt, done,
    (execute_preserves_types accepted steady (conforms_empty _) done).2⟩

/-- A reference to a local that its frame outlives, since an operand behind it let its loan go. -/
def leaking : List Module := [
  { name := "M"
    functions := [
      { name := "pick"
        params := [⟨"r", .ref false .u64⟩, ⟨"a", .u64⟩]
        ret := some (.ref false .u64)
        body := [.ret (some (.var "r"))] },
      { name := "leak"
        ret := some (.ref false .u64)
        body := [
          .bind "x" none (.u64 7),
          .bind "r" none (.borrow false "x"),
          .ret (some (.call none "pick" [] [.var "r", .deref (.move "r")]))] },
      { name := "peek"
        params := [⟨"b", .bool⟩, ⟨"r", .ref false .u64⟩]
        ret := some .u64
        body := [.ret (some (.deref (.var "r")))] },
      { name := "main"
        ret := some .u64
        body := [.ret (some (.call none "peek" [] [.bool true, .call none "leak" [] []]))] }] }]

theorem leaking_changes_type :
    check leaking = .ok (programOf leaking) ∧
      ∃ receipt signature, trial leaking ⟨"M", "main"⟩ [] = .ok receipt ∧
        (programOf leaking).types.function? ⟨"M", "main"⟩ = some signature ∧
        receipt.value.conformsTo (programOf leaking).types (signature.ret.subst []) = false := by
  have returned : (trial leaking ⟨"M", "main"⟩ []).toOption.map (·.value) = some (.bool true) := by
    decide +kernel
  have declared : ((programOf leaking).types.function? ⟨"M", "main"⟩).map (·.ret) = some .u64 := by
    decide +kernel
  obtain ⟨receipt, done, value⟩ := eq_ok_of_toOption returned
  obtain ⟨signature, found, ret⟩ := Option.map_eq_some_iff.mp declared
  refine ⟨check_of_clean (by decide +kernel), receipt, signature, done, found, ?_⟩
  rw [value, ret]
  rfl

end Custody
