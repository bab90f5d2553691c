import Custody.Proofs.Execution.Keeping
import Custody.Proofs.Execution.Soundness
/-!
# Authority to publish

A signer stands for the consent of an address. No expression makes one: a program has the signers
that the host passed in and those that storage holds, wherever it keeps them meanwhile. A slot is
filled only under the address of a signer, so a slot that an execution fills for the first time
belongs to an address that the host or storage vouched for. Nothing here depends on the checker.
-/

namespace Custody

variable {value : Value} {args : List Value} {known : Address → Prop} {store : Store} {m : Machine}

/-! ## Signers inside values -/

namespace Value

/-- The addresses of the signers inside a value. -/
def signers : Value → List Address := collect (fun _ => []) fun owner => [owner]

/-- Every signer inside the value is of a known address. -/
def Vouched (known : Address → Prop) (value : Value) : Prop := ∀ address ∈ value.signers,
    known address

theorem vouched_of_signers (none : value.signers = []) : value.Vouched known := by
  intro address inside
  simp [none] at inside

theorem hereditary_vouched : Hereditary (Vouched known) := hereditary_collect

end Value

/-! ## The invariant -/

/-- What may stand in a slot: a value whose signers are known, and under an address that is known
unless the slot was filled from the start. -/
def Lawful (known : Address → Prop) (base : Store) (key : SlotKey) (slot : Option Value) : Prop :=
  ∀ value, slot = some value → value.Vouched known ∧ (base.get? key = none → known key.address)

/-- Every signer that the machine has anywhere is of a known address, and every slot that was empty
in the storage it started from is filled under one. -/
abbrev Machine.Vouched (known : Address → Prop) (base : Store) (m : Machine) : Prop :=
  m.Holds (Value.Vouched known) (fun key entry => Lawful known base key entry.value) base

/-! ## Steps of the machine -/

namespace Exec

section Steps

variable {base : Store} {setup : Setup}

theorem vouched_ref (reference : Reference) : (Value.ref reference).Vouched known :=
  Value.vouched_of_signers rfl

/-- No expression makes a signer, and none fills a slot without one. -/
theorem keeps_vouched : Keeps (Machine.Vouched known base) (Value.Vouched known) known where
  hereditary := Value.hereditary_vouched
  reference := fun _ _ => vouched_ref _
  signer := fun here => here _ (by simp [Value.signers, Value.collect])
  intoSlot := fun _ _ => vouched_ref _
  intoOwn := fun _ _ _ => vouched_ref _
  current := fun vouched => vouched.frames _ List.mem_cons_self
  atLocal := fun vouched _ _ found => vouched.of_local? found
  host := fun vouched => vouched.host
  slot := fun vouched seen => (vouched.slots _ _ seen).1
  setLocal := fun vouched _ _ new => vouched.setLocal _ _ new
  rebind := fun vouched held => vouched.rebind held
  setHost := fun vouched index here => vouched.setHost index here
  record := fun {m key _} vouched lawful => vouched.record key fun value same => by
    obtain ⟨here, authority⟩ := lawful value same
    refine ⟨here, fun absent => ?_⟩
    cases seen : (m.tx.entry m.store key).value with
    | none => exact authority seen
    | some old => exact (vouched.slots key old seen).2 absent
  tally := fun vouched => { vouched with }

/-- The body of a function, put on record when it returns. -/
theorem vouched_runBody {invoke : Invoke} [GrowingCalls invoke]
    (calls : KeepingCalls (Machine.Vouched known base) (Value.Vouched known) invoke)
    (decl : FunctionDecl) {id : FunctionId} :
    Maintains (Machine.Vouched known base) (visiting id args (runBody setup invoke decl))
      (Value.Vouched known) :=
  maintains_visiting ((keeps_vouched.judges calls).runBody decl)
    (fun _ _ vouched => { vouched with }) id args

theorem vouched_call (depth : Nat) :
    KeepingCalls (Machine.Vouched known base) (Value.Vouched known) (call setup depth) := by
  have nests : Nests (fun _ => Machine.Vouched known base) (Value.Vouched known) known :=
    { keeps := fun _ => keeps_vouched
      enter := fun vouched new => vouched.enter new
      leave := fun vouched => vouched.leave
      tally := fun vouched => { vouched with } }
  exact nests.call depth 0

end Steps

end Exec

/-! ## Requests of the host -/

/-- The address signed before the execution began: a signer of it is inside an argument of the host,
or inside a value of storage. -/
def SignedFor (store : Store) (args : List Value) (address : Address) : Prop :=
  (∃ arg ∈ args, address ∈ arg.signers) ∨
    ∃ key value, store.get? key = some value ∧ address ∈ value.signers

/-- An execution begins with what the host supplied and with what storage holds. -/
theorem vouched_start {args values host : List Value} (function : FunctionId) (decl : FunctionDecl)
    (typeArgs : List Ty) (values' : ∀ value ∈ values, value.Vouched (SignedFor store args))
    (cells : ∀ cell ∈ host, cell.Vouched (SignedFor store args)) :
    (Machine.start (Exec.callFrame function decl typeArgs values) host store).Vouched
      (SignedFor store args) store where
  frames := by
    intro frame member
    exact List.mem_singleton.mp member ▸ Exec.holds_callFrame function decl typeArgs values'
  host := cells
  store := rfl
  slots := by
    intro key value (found : store.get? key = some value)
    refine ⟨fun address inside => .inr ⟨key, value, found, inside⟩, fun absent => ?_⟩
    cases absent.symm.trans found

/-- What a committed transaction leaves in storage, it saw there or storage held before. -/
theorem Machine.Vouched.committed {after : Store} {written : Nat}
    (vouched : m.Vouched (SignedFor store args) store)
    (committed : m.tx.commit store = .ok (written, after)) (key : SlotKey) :
    Lawful (SignedFor store args) store key (after.get? key) := by
  obtain ⟨_, _, rfl⟩ := Transaction.commit_eq_ok committed
  have kept : Lawful (SignedFor store args) store key (store.get? key) := by
    intro value found
    refine ⟨fun address inside => .inr ⟨key, value, found, inside⟩, fun absent => ?_⟩
    cases absent.symm.trans found
  have seen := vouched.slots key
  rw [vouched.store] at seen
  rw [Transaction.get?_writeAll_writes]
  cases touched : m.tx.entries.get? key with
  | none => exact kept
  | some entry =>
    simp only [Transaction.entry, touched] at seen
    dsimp only
    split
    · exact seen
    · exact kept

/-- Whatever program is run on whatever storage: an execution that returns leaves no signer of an
address that had not signed before it began, and every slot that it fills for the first time is
under an address that had. -/
theorem execute_publishes_with_authority {setup : Setup} {store : Store} {function : FunctionId}
    {typeArgs : List Ty} {args : List Value} {receipt : Receipt}
    (done : setup.execute store function typeArgs args = .ok receipt) :
    receipt.value.Vouched (SignedFor store args) ∧
      ∀ key value, receipt.store.get? key = some value →
        value.Vouched (SignedFor store args) ∧
          (store.get? key = none → SignedFor store args key.address) := by
  rcases execute_cases setup store function typeArgs args with
    ⟨stop, refused, _⟩ | ⟨admitted, ran⟩
  · cases refused.symm.trans done
  · have supplied : ∀ arg ∈ args, arg.Vouched (SignedFor store args) :=
      fun arg member address inside => .inl ⟨arg, member, inside⟩
    obtain ⟨values, cells⟩ := (acceptCall_eq_ok admitted.passed).2.holds
      (fun _ _ => Exec.vouched_ref _)
      (fun entry listed _ => supplied entry.2 (List.of_mem_zip listed).2) (List.forall_mem_nil _)
    have start := vouched_start function admitted.decl typeArgs values cells
    obtain ⟨m, ended, committed⟩ := settleAccount_eq_ok (ran.symm.trans done)
    obtain ⟨vouched, result⟩ :=
      (Exec.vouched_runBody (Exec.vouched_call admitted.depth) admitted.decl).of_ok start ended
    exact ⟨result, fun key => vouched.committed committed key⟩

/-- The account is opened in a slot that was empty, under the address of the signer passed in. -/
theorem opening_publishes_with_authority :
    ∃ receipt, trial opening ⟨"Bank", "open"⟩ [.signer (.ofNat 1)] = .ok receipt ∧
      (∅ : Store).get? ⟨.ofNat 1, ⟨⟨"Bank", "Vault"⟩, []⟩⟩ = none ∧
      (receipt.store.get? ⟨.ofNat 1, ⟨⟨"Bank", "Vault"⟩, []⟩⟩).isSome = true ∧
      receipt.value.Vouched (SignedFor ∅ [.signer (.ofNat 1)]) ∧
      ∀ key value, receipt.store.get? key = some value →
        value.Vouched (SignedFor ∅ [.signer (.ofNat 1)]) ∧
          ((∅ : Store).get? key = none → SignedFor ∅ [.signer (.ofNat 1)] key.address) := by
  have returned : (trial opening ⟨"Bank", "open"⟩ [.signer (.ofNat 1)]).toOption.map
      (fun receipt => (receipt.store.get? ⟨.ofNat 1, ⟨⟨"Bank", "Vault"⟩, []⟩⟩).isSome) =
        some true := by
    decide +kernel
  obtain ⟨receipt, done, filled⟩ := eq_ok_of_toOption returned
  exact ⟨receipt, done, rfl, filled, execute_publishes_with_authority done⟩

end Custody
