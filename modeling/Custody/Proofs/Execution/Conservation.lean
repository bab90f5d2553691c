import Custody.Proofs.Execution.Soundness
/-!
# Conservation of resources

Values of a struct that may be neither copied nor dropped are made by packing and unmade by
unpacking, and by nothing else. The books are kept by weighing: give the struct the weight one and
all others none, and what a machine is worth changes by what is packed and unpacked only.

A loop may break the balance, since the checker walks it once: a condition may consume what it has
consumed before, and a body may fill a binding that was empty when the loop began. Frugal programs
have no such loops.
-/

namespace Custody

/-- The weight of one struct. -/
def unitWeight (id other : StructId) : Nat := if other = id then 1 else 0

/-- How often a struct occurs in a value, at any depth. -/
def Value.instances (id : StructId) (value : Value) : Nat := value.weigh (unitWeight id)

/-- How often a struct occurs in storage, at any depth. -/
def Store.instances (id : StructId) (store : Store) : Nat := store.weigh (unitWeight id)

theorem sum_unitWeight (id : StructId) (ids : List StructId) :
    (ids.map (unitWeight id)).sum = ids.count id := by
  induction ids with
  | nil => rfl
  | cons other ids ih =>
    rw [List.map_cons, List.sum_cons, ih, List.count_cons, unitWeight, Nat.add_comm]
    simp only [beq_iff_eq]

theorem weighs_unitWeight {u : Universe} {id : StructId} {struct : StructDef}
    (declared : u.struct? id = some struct) (noCopy : struct.abilities.copy = false)
    (noDrop : struct.abilities.drop = false) : u.Weighs (unitWeight id) := by
  intro other found here loose
  by_cases same : other = id
  · subst same
    obtain rfl := Option.mem_unique declared here
    simp [noCopy, noDrop] at loose
  · simp [unitWeight, same]

/-- An execution of an accepted and frugal program neither makes nor unmakes values of a struct that
may be neither copied nor dropped, other than by packing and unpacking. -/
theorem execute_conserves_instances {modules : List Module} {program : Program} {store : Store}
    (accepted : check modules = .ok program) (frugal : program.isFrugal = true) {id : StructId}
    {struct : StructDef} (declared : program.types.struct? id = some struct)
    (noCopy : struct.abilities.copy = false) (noDrop : struct.abilities.drop = false)
    (conforms : store.Conforms program.types) {maxCallDepth loopBound : Nat} {function : FunctionId}
    {typeArgs : List Ty} {args : List Value} {receipt : Receipt}
    (done : Setup.execute ⟨program, maxCallDepth, loopBound⟩ store function typeArgs args =
      .ok receipt) :
    store.instances id + (args.map (·.instances id)).sum + receipt.tally.packed.count id =
      receipt.store.instances id + receipt.value.instances id +
      receipt.tally.unpacked.count id := by
  have executed := executed_of_ok done (accepted_of_check accepted) frugal (.inl rfl)
    (weighs_unitWeight declared noCopy noDrop) conforms
  have balanced := executed.balanced
  rw [sum_unitWeight, sum_unitWeight, Value.weighAll_eq_sum] at balanced
  exact balanced

theorem opening_conserves_vaults :
    check opening = .ok (programOf opening) ∧ (programOf opening).isFrugal = true ∧
      ∃ receipt, trial opening ⟨"Bank", "open"⟩ [.signer (.ofNat 1)] = .ok receipt ∧
        receipt.tally.packed.count ⟨"Bank", "Vault"⟩ = 1 ∧
        Store.instances ⟨"Bank", "Vault"⟩ ∅ +
            ([Value.signer (.ofNat 1)].map (·.instances ⟨"Bank", "Vault"⟩)).sum +
            receipt.tally.packed.count ⟨"Bank", "Vault"⟩ =
          receipt.store.instances ⟨"Bank", "Vault"⟩ + receipt.value.instances ⟨"Bank", "Vault"⟩ +
            receipt.tally.unpacked.count ⟨"Bank", "Vault"⟩ := by
  have accepted : check opening = .ok (programOf opening) := check_of_clean (by decide +kernel)
  have frugal : (programOf opening).isFrugal = true := by decide +kernel
  have declared : ((programOf opening).types.struct? ⟨"Bank", "Vault"⟩).map (·.abilities) =
      some { key := true } := by
    decide +kernel
  have packed : (trial opening ⟨"Bank", "open"⟩ [.signer (.ofNat 1)]).toOption.map
      (·.tally.packed.count ⟨"Bank", "Vault"⟩) = some 1 := by
    decide +kernel
  obtain ⟨struct, found, abilities⟩ := Option.map_eq_some_iff.mp declared
  obtain ⟨receipt, done, once⟩ := eq_ok_of_toOption packed
  exact ⟨accepted, frugal, receipt, done, once,
    execute_conserves_instances accepted frugal found (by rw [abilities]) (by rw [abilities])
      (conforms_empty _) done⟩

/-- A condition that consumes the same coin each time it is asked. -/
def burning : List Module := [
  { name := "M"
    structs := [{ name := "Coin", abilities := { store := true }, fields := [⟨"amount", .u64⟩] }]
    functions := [
      { name := "burn"
        params := [⟨"coin", .struct none "Coin" []⟩, ⟨"times", .ref true .u64⟩]
        ret := some .bool
        body := [
          .unpack { name := "Coin" } [("amount", .bind "amount")] (.var "coin"),
          .write (.var "times") (.binary .add (.deref (.var "times")) (.u64 1)),
          .ret (some (.binary .lt (.deref (.var "times")) (.u64 3)))] },
      { name := "main"
        ret := some .u64
        body := [
          .bind "coin" none (.pack { name := "Coin" } [("amount", .u64 5)]),
          .bind "times" none (.u64 0),
          .loop (.call none "burn" [] [.var "coin", .borrow true "times"]) [],
          .ret (some (.var "times"))] }] }]

theorem burning_unmakes_more_than_it_makes :
    check burning = .ok (programOf burning) ∧
      ((programOf burning).types.struct? ⟨"M", "Coin"⟩).map (·.abilities) = some { store := true } ∧
      ∃ receipt, trial burning ⟨"M", "main"⟩ [] = .ok receipt ∧
        Store.instances ⟨"M", "Coin"⟩ ∅ + receipt.tally.packed.count ⟨"M", "Coin"⟩ = 1 ∧
        receipt.store.instances ⟨"M", "Coin"⟩ + receipt.value.instances ⟨"M", "Coin"⟩ +
          receipt.tally.unpacked.count ⟨"M", "Coin"⟩ = 3 := by
  have counted : (trial burning ⟨"M", "main"⟩ []).toOption.map (fun receipt =>
      (Store.instances ⟨"M", "Coin"⟩ ∅ + receipt.tally.packed.count ⟨"M", "Coin"⟩,
        receipt.store.instances ⟨"M", "Coin"⟩ + receipt.value.instances ⟨"M", "Coin"⟩ +
          receipt.tally.unpacked.count ⟨"M", "Coin"⟩)) = some (1, 3) := by
    decide +kernel
  obtain ⟨receipt, done, seen⟩ := eq_ok_of_toOption counted
  obtain ⟨made, unmade⟩ := Prod.mk.inj seen
  exact ⟨check_of_clean (by decide +kernel), by decide +kernel, receipt, done, made, unmade⟩

end Custody
