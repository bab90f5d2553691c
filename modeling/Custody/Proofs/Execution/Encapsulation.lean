import Custody.Proofs.Execution.Accounts
import Custody.Proofs.Execution.Confinement
/-!
# Modules own their slots

Only functions of a module operate on the slots of its structs, and nobody else can have a reference
into them that none of its functions handed out. So an execution that enters no function of the
module does not depend on what is in its slots, and leaves them alone, unless storage held such a
reference before. A program whose loans end too early can see to that.
-/

namespace Custody

/-! ## Values without references -/

namespace Value

/-- A value of a type without references leads into no slot. -/
theorem slots_eq_nil {u : Universe} (accepted : u.Accepted) (value : Value) (ty : Ty)
    (plain : u.isPlain 0 ty = true) (conforms : value.conformsTo u ty = true) :
    value.slots = [] := by
  have none : ∀ values : List Value, (∀ value ∈ values, value.slots = []) →
      collectAll (·.root.slots) (fun _ => []) values = [] := by
    intro values each
    refine List.eq_nil_iff_forall_not_mem.mpr fun key inside => ?_
    obtain ⟨value, member, here⟩ := mem_collectAll.mp inside
    exact List.ne_nil_of_mem here (each value member)
  refine induction_of_plain (p := fun _ value => value.slots = []) accepted (fun _ value atom => ?_)
    (fun _ => none) (fun _ _ fields _ _ _ each => none fields fun field member =>
      (each field member).elim fun _ found => found.2) value ty plain conforms
  cases value <;> first | rfl | cases atom

end Value

/-! ## Executions that keep to some slots -/

section Executions

variable {setup : Setup} {function : FunctionId} {typeArgs : List Ty} {args : List Value}
  {view : Outlook}

/-- What a call from the host is given leads into no slot. -/
theorem rooted_admitted (view : Outlook) (accepted : setup.program.Accepted)
    (admitted : Admitted setup function typeArgs args) :
    (∀ value ∈ admitted.values, value.Rooted view) ∧
      ∀ cell ∈ admitted.host, cell.Rooted view := by
  obtain ⟨instantiates, taken⟩ := acceptCall_eq_ok admitted.passed
  refine taken.holds (fun _ _ => Value.rooted_of_slots rfl) (fun entry listed given => ?_)
    (List.forall_mem_nil _)
  rcases given with ⟨owner, signs⟩ | ⟨noReference, conforms⟩
  · rw [signs]
    exact Value.rooted_of_slots rfl
  · refine Value.rooted_of_slots (Value.slots_eq_nil accepted.types entry.2 _ ?_ conforms)
    have bindable := accepted.types.params_bindable admitted.registered entry.1
      (List.of_mem_zip listed).1
    exact Universe.isPlain_of_isBindable (Universe.isBindable_subst
      (Nat.le_of_eq instantiates.length.symm) instantiates.plain bindable) noReference

theorem keepsTo_start
    (stored : ∀ key value, view.known key → view.base.get? key = some value → value.Rooted view)
    (decl : FunctionDecl) {values host : List Value} (given : ∀ value ∈ values, value.Rooted view)
    (cells : ∀ cell ∈ host, cell.Rooted view) :
    (Machine.start (Exec.callFrame function decl typeArgs values) host view.base).KeepsTo view where
  holds := {
    frames := List.forall_mem_singleton.mpr (Exec.holds_callFrame function decl typeArgs given)
    host := cells
    store := rfl
    slots := fun key here => ⟨rfl, fun value found => stored key value here found⟩ }
  touched := fun _ none => by cases none

/-- Two executions over stores that agree on the known slots returned alike. -/
structure SameReceipts (view : Outlook) (receipt receipt' : Receipt) : Prop where
  value : receipt'.value = receipt.value
  writes : receipt'.writes = receipt.writes
  agree : ∀ key, view.known key → receipt.store.get? key = receipt'.store.get? key
  untouched : ∀ key, ¬ view.known key → receipt.store.slots.get? key = view.base.slots.get? key ∧
    receipt'.store.slots.get? key = view.other.slots.get? key

/-- A machine that kept to the known slots has its transaction committed, over either store. -/
theorem settleAccount_onto {m : Machine} (keeps : m.KeepsTo view) (value : Value) :
    ∃ receipt receipt', settleAccount view.base (.ok value m) = .ok receipt ∧
      settleAccount view.other (.ok value (m.onto view.other)) = .ok receipt' ∧
      SameReceipts view receipt receipt' := by
  have here : m.tx.commit view.base = .ok (m.tx.writes.length, view.base.writeAll m.tx.writes) :=
    Transaction.commit_eq keeps.fresh
  have there : (m.onto view.other).tx.commit view.other =
      .ok (m.tx.writes.length, view.other.writeAll m.tx.writes) := by
    have committed := Transaction.commit_eq (Transaction.stale?_onto m.tx view.other)
    rw [Transaction.writes_onto] at committed
    exact committed
  refine ⟨⟨value, m.tx.writes.length, view.base.writeAll m.tx.writes, m.tally⟩,
    ⟨value, m.tx.writes.length, view.other.writeAll m.tx.writes, m.tally⟩, ?_, ?_, rfl, rfl, ?_, ?_⟩
  · simp only [settleAccount, here]
    rfl
  · simp only [settleAccount, there]
    rfl
  · exact fun key known => Store.get?_writeAll_congr (view.agree key known) m.tx.writes
  · intro key unknown
    have absent : ∀ value, (key, value) ∉ m.tx.writes := by
      intro value written
      obtain ⟨entry, listed, same⟩ := List.mem_map.mp written
      obtain ⟨rfl, _⟩ := Prod.mk.inj same
      exact unknown (keeps.touched entry (List.mem_filter.mp listed).1)
    exact ⟨view.base.slots_writeAll_of_not_mem _ key absent,
      view.other.slots_writeAll_of_not_mem _ key absent⟩

/-- Let an execution of an accepted program operate on known slots only, and let storage hold no
references from these into others. Over a store that agrees on the known slots it has the same
outcome, and over either store it leaves all other slots as they were. -/
theorem execute_confined (view : Outlook) (accepted : setup.program.Accepted)
    (stored : ∀ key value, view.known key → view.base.get? key = some value → value.Rooted view)
    (reaches : ∀ reach ∈ (setup.tally view.base function typeArgs args).reached,
      view.known reach.key) :
    (∃ stop, setup.execute view.base function typeArgs args = .error stop ∧
        setup.execute view.other function typeArgs args = .error stop) ∨
      ∃ receipt receipt', setup.execute view.base function typeArgs args = .ok receipt ∧
        setup.execute view.other function typeArgs args = .ok receipt' ∧
        SameReceipts view receipt receipt' := by
  rw [execute_eq, execute_eq]
  rcases launch_cases setup function typeArgs args with ⟨failure, _, refused⟩ | ⟨admitted, ran⟩
  · rw [refused, refused]
    exact .inl ⟨.failure failure, rfl, rfl⟩
  simp only [Setup.tally, ran] at reaches
  rw [ran, ran]
  have ⟨given, cells⟩ := rooted_admitted view accepted admitted
  have confined : Exec.Confined view Value admitted.body (Value.Rooted view) :=
    Exec.confined_visiting given (Exec.confined_runBody admitted.depth admitted.decl)
  generalize admitted.body = run at *
  have went := confined (admitted.start view.base) (keepsTo_start stored _ given cells)
  cases ended : run (admitted.start view.base) with
  | ok value m =>
    rw [ended] at reaches
    obtain ⟨keeps, _, same⟩ := went.of_ok ended reaches
    obtain ⟨receipt, receipt', here, there, alike⟩ := settleAccount_onto keeps value
    refine .inr ⟨receipt, receipt', here, ?_, alike⟩
    have same' : run (admitted.start view.other) = .ok value (m.onto view.other) := same
    rw [same']
    exact there
  | error stop m =>
    rw [ended] at reaches
    have same' : run (admitted.start view.other) = .error stop (m.onto view.other) :=
      went.of_error ended reaches
    rw [same']
    exact .inl ⟨stop, rfl, rfl⟩

end Executions

/-! ## Modules -/

/-- Let two stores agree on every slot but those of one module, and let no other slot hold a
reference into them: what conforms to its tag holds none, and neither does what has a document, but
an accepted program that is not steady may leave one behind. An execution of an accepted program
that enters no function of the module over the first store has the same outcome over the second one:
both stop for the same reason, or both return the same value with the same number of slots written.
In either store the slots of the module are left exactly as they were. -/
theorem execute_respects_module_slots {modules : List Module} {program : Program}
    (accepted : check modules = .ok program) (maxCallDepth loopBound : Nat) (module : String)
    {store other : Store}
    (agree : ∀ key : SlotKey, key.tag.id.module ≠ module → store.get? key = other.get? key)
    (unreferenced : ∀ (key : SlotKey) (value : Value), key.tag.id.module ≠ module →
      store.get? key = some value → ∀ slot ∈ value.slots, slot.tag.id.module ≠ module)
    (function : FunctionId) (typeArgs : List Ty) (args : List Value)
    (outside : ∀ frame ∈
      (Setup.tally ⟨program, maxCallDepth, loopBound⟩ store function typeArgs args).entered,
      frame.function.module ≠ module) :
    (∃ stop,
        Setup.execute ⟨program, maxCallDepth, loopBound⟩ store function typeArgs args =
          .error stop ∧
        Setup.execute ⟨program, maxCallDepth, loopBound⟩ other function typeArgs args =
          .error stop) ∨
      ∃ receipt receipt',
        Setup.execute ⟨program, maxCallDepth, loopBound⟩ store function typeArgs args =
          .ok receipt ∧
        Setup.execute ⟨program, maxCallDepth, loopBound⟩ other function typeArgs args =
          .ok receipt' ∧
        receipt'.value = receipt.value ∧ receipt'.writes = receipt.writes ∧
        ∀ key : SlotKey, key.tag.id.module = module →
          receipt.store.slots.get? key = store.slots.get? key ∧
            receipt'.store.slots.get? key = other.slots.get? key := by
  have sound := accepted_of_check accepted
  obtain ⟨_, orderly⟩ :=
    tally_orderly ⟨program, maxCallDepth, loopBound⟩ store function typeArgs args sound
  have reaches : ∀ reach ∈
      (Setup.tally ⟨program, maxCallDepth, loopBound⟩ store function typeArgs args).reached,
      reach.key.tag.id.module ≠ module := by
    intro reach happened
    obtain ⟨frame, entered, same⟩ := orderly.owned reach happened
    rw [← same]
    exact outside frame entered
  rcases execute_confined ⟨_, store, other, agree⟩ sound unreferenced reaches with
    stopped | ⟨receipt, receipt', here, there, alike⟩
  · exact .inl stopped
  · exact .inr ⟨receipt, receipt', here, there, alike.value, alike.writes, fun key own =>
      alike.untouched key (not_not_intro own)⟩

/-- A module that keeps boxes, and one that keeps counters. -/
def neighbours : List Module := [
  { name := "Safe"
    structs := [{ name := "Box", abilities := { key := true }, fields := [⟨"item", .u64⟩] }]
    functions := [
      { name := "isFull"
        params := [⟨"at", .address⟩]
        ret := some .bool
        body := [.ret (some (.existsAt { name := "Box" } (.var "at")))] }] },
  { name := "Pad"
    structs := [{ name := "Count", abilities := { key := true }, fields := [⟨"n", .u64⟩] }]
    functions := [
      { name := "open"
        params := [⟨"owner", .ref false .signer⟩]
        ret := some .bool
        body := [
          .eval (.moveTo { name := "Count" } (.var "owner")
            (.pack { name := "Count" } [("n", .u64 0)])),
          .ret (some (.existsAt { name := "Count" } (.signerAddress (.var "owner"))))] }] }]

/-- Storage with one box. -/
def boxed (item : BitVec 64) : Store :=
  (∅ : Store).write ⟨.ofNat 1, ⟨⟨"Safe", "Box"⟩, []⟩⟩
    (some (.struct ⟨⟨"Safe", "Box"⟩, []⟩ [.u64 item]))

/-- A counter is opened next to a box of whatever content, and the box stays as it is. -/
theorem neighbours_respect_boxes :
    check neighbours = .ok (programOf neighbours) ∧
      ∃ receipt receipt',
        Setup.execute ⟨programOf neighbours, 16, 16⟩ (boxed 7) ⟨"Pad", "open"⟩ []
          [.signer (.ofNat 1)] = .ok receipt ∧
        Setup.execute ⟨programOf neighbours, 16, 16⟩ (boxed 8) ⟨"Pad", "open"⟩ []
          [.signer (.ofNat 1)] = .ok receipt' ∧
        receipt'.value = receipt.value ∧ receipt'.writes = receipt.writes ∧
        ∀ key : SlotKey, key.tag.id.module = "Safe" →
          receipt.store.slots.get? key = (boxed 7).slots.get? key ∧
            receipt'.store.slots.get? key = (boxed 8).slots.get? key := by
  have accepted : check neighbours = .ok (programOf neighbours) :=
    check_of_clean (by decide +kernel)
  have elsewhere : ∀ (item : BitVec 64) (key : SlotKey), key.tag.id.module ≠ "Safe" →
      (boxed item).get? key = none := by
    intro item key foreign
    rw [boxed, Store.get?_write, if_neg]
    · rfl
    · rintro rfl
      exact foreign rfl
  have outside : ((Setup.tally ⟨programOf neighbours, 16, 16⟩ (boxed 7) ⟨"Pad", "open"⟩ []
      [.signer (.ofNat 1)]).entered.all fun frame => decide (frame.function.module ≠ "Safe")) =
        true := by
    decide +kernel
  have opens : ((Setup.execute ⟨programOf neighbours, 16, 16⟩ (boxed 7) ⟨"Pad", "open"⟩ []
      [.signer (.ofNat 1)]).toOption.map (·.value)) = some (.bool true) := by
    decide +kernel
  rcases execute_respects_module_slots accepted 16 16 "Safe"
      (fun key foreign => (elsewhere 7 key foreign).trans (elsewhere 8 key foreign).symm)
      (fun key value foreign found => by rw [elsewhere 7 key foreign] at found; cases found)
      ⟨"Pad", "open"⟩ [] [.signer (.ofNat 1)]
      (fun frame entered => of_decide_eq_true (List.all_eq_true.mp outside frame entered)) with
    ⟨stop, stopped, _⟩ | alike
  · rw [stopped] at opens
    cases opens
  · exact ⟨accepted, alike⟩

/-- A module that lends what is in a box, and one that keeps the loan. `leak` gives out a reference
to a local that is gone, since its loan ends while `pick` waits for the other argument. By the time
`jot` runs, the reference leads to its first parameter, whose value, itself a reference, is noted as
a number. By the time `pry` runs it leads to the first parameter again, and the note is written
there. -/
def prying : List Module :=
  let word : TypeExpr := .ref true .u64
  let leak : Expr := .call (some "Pad") "leak" [] []
  [{ name := "Safe"
     structs := [{ name := "Box", abilities := { key := true }, fields := [⟨"item", .u64⟩] }]
     functions := [
       { name := "lend"
         params := [⟨"owner", .ref false .signer⟩]
         acquires := ["Box"]
         body := [
           .eval (.moveTo { name := "Box" } (.var "owner")
             (.pack { name := "Box" } [("item", .u64 7)])),
           .eval (.call (some "Pad") "jot" [] [
             .borrowField true
               (.borrowGlobal { name := "Box" } true (.signerAddress (.var "owner"))) "item",
             leak, .var "owner"])] }] },
   { name := "Pad"
     structs := [{ name := "Note", abilities := { key := true }, fields := [⟨"n", .u64⟩] }]
     functions := [
       { name := "pick"
         params := [⟨"r", word⟩, ⟨"a", .u64⟩]
         ret := some word
         body := [.ret (some (.var "r"))] },
       { name := "leak"
         ret := some word
         body := [
           .bind "x" none (.u64 7),
           .bind "r" none (.borrow true "x"),
           .ret (some (.call none "pick" [] [.copy "r", .deref (.move "r")]))] },
       { name := "jot"
         params := [⟨"item", word⟩, ⟨"r", word⟩, ⟨"owner", .ref false .signer⟩]
         body := [.eval (.moveTo { name := "Note" } (.var "owner")
           (.pack { name := "Note" } [("n", .deref (.var "r"))]))] },
       { name := "pry"
         params := [⟨"item", word⟩, ⟨"r", word⟩, ⟨"n", .u64⟩]
         body := [.write (.var "r") (.var "n"), .write (.var "item") (.u64 99)] },
       { name := "main"
         params := [⟨"at", .address⟩]
         acquires := ["Note"]
         body := [
           .bind "x" none (.u64 1),
           .eval (.call none "pry" [] [.borrow true "x", leak, .deref (.borrowField false
             (.borrowGlobal { name := "Note" } false (.var "at")) "n")])] }] }]

/-- The program leaves storage over which a further execution enters no function of `Safe` and
writes into its box. -/
theorem prying_changes_boxes :
    let setup : Setup := ⟨programOf prying, 16, 16⟩
    let key : SlotKey := ⟨.ofNat 1, ⟨⟨"Safe", "Box"⟩, []⟩⟩
    check prying = .ok (programOf prying) ∧ ∃ lent pried,
      trial prying ⟨"Safe", "lend"⟩ [.signer (.ofNat 1)] = .ok lent ∧
      (∀ frame ∈ (setup.tally lent.store ⟨"Pad", "main"⟩ [] [.address (.ofNat 1)]).entered,
        frame.function.module ≠ "Safe") ∧
      setup.execute lent.store ⟨"Pad", "main"⟩ [] [.address (.ofNat 1)] = .ok pried ∧
      lent.store.get? key = (boxed 7).get? key ∧ pried.store.get? key = (boxed 99).get? key := by
  intro setup key
  have pries : (trial prying ⟨"Safe", "lend"⟩ [.signer (.ofNat 1)]).toOption.map (fun lent =>
      ((setup.tally lent.store ⟨"Pad", "main"⟩ [] [.address (.ofNat 1)]).entered.all fun frame =>
          decide (frame.function.module ≠ "Safe"),
        lent.store.get? key, (setup.execute lent.store ⟨"Pad", "main"⟩ []
          [.address (.ofNat 1)]).toOption.map (·.store.get? key))) =
      some (true, (boxed 7).get? key, some ((boxed 99).get? key)) := by
    decide +kernel
  obtain ⟨lent, lends, seen⟩ := eq_ok_of_toOption pries
  obtain ⟨outside, seen⟩ := Prod.mk.inj seen
  obtain ⟨kept, seen⟩ := Prod.mk.inj seen
  obtain ⟨pried, done, changed⟩ := eq_ok_of_toOption seen
  exact ⟨check_of_clean (by decide +kernel), lent, pried, lends, fun frame entered =>
    of_decide_eq_true (List.all_eq_true.mp outside frame entered), done, kept, changed⟩

end Custody
