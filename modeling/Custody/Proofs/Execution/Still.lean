import Custody.Proofs.Execution.Invariants
/-!
# Steps that concern values only

Most steps of the machine read and write values: bindings, cells, slots. They neither begin nor end
a call, and they leave alone the account of the calls and of the operations on storage. An invariant
that does not look at values is maintained by all of them. Nor does such a step fail because a
function or a binding is missing, or because of a request.
-/

namespace Custody

variable {inv : Machine → Prop} {fair : Stop → Prop}

/-- The failure is not for want of a function or of a binding, and not about a request. -/
@[reducible] def Failure.isOrdinary : Failure → Bool
  | .unknownFunction _ | .invariantViolation (.unknownLocal _) | .invalidArgument _ => false
  | _ => true

namespace Exec

/-- An invariant that does not look at values, and reasons to stop among which are all ordinary
ones. -/
class Aloof (inv : Machine → Prop) (fair : Stop → Prop) : Prop where
  setLocal : ∀ m frame index value, inv m → inv (m.setLocal frame index value)
  tx : ∀ m tx, inv m → inv { m with tx := tx }
  host : ∀ m host, inv m → inv { m with host := host }
  packed : ∀ m packed, inv m → inv { m with tally := { m.tally with packed := packed } }
  unpacked : ∀ m unpacked, inv m → inv { m with tally := { m.tally with unpacked := unpacked } }
  fair : ∀ failure, failure.isOrdinary = true → fair (.failure failure)

theorem aloof_any (ordinary : ∀ failure, failure.isOrdinary = true → fair (.failure failure)) :
    Aloof (fun _ => True) fair where
  setLocal _ _ _ _ _ := trivial
  tx _ _ _ := trivial
  host _ _ _ := trivial
  packed _ _ _ := trivial
  unpacked _ _ _ := trivial
  fair := ordinary

/-- The step maintains the invariant. -/
class Still (inv : Machine → Prop) (fair : Stop → Prop) {α : Type} (x : Exec α) : Prop where
  maintains : Maintains inv x (fun _ => True) fair

/-- A test that is known to pass. -/
class Passes (flag : Bool) : Prop where
  passes : flag = true

instance passes_true : Passes true := ⟨rfl⟩

/-- A breach is not for want of a binding. -/
class Ordinary {α : Type} (result : Except Breach α) : Prop where
  ordinary : ∀ reason, result = .error reason →
    (Failure.invariantViolation reason).isOrdinary = true

section Rules

variable {α β : Type} {x y : Exec α}

instance still_pure (value : α) : Still inv fair (pure value) := ⟨maintains_pure trivial⟩

instance still_bind {f : α → Exec β} [first : Still inv fair x]
    [rest : ∀ value, Still inv fair (f value)] : Still inv fair (x >>= f) :=
  ⟨first.maintains.bind fun value _ => (rest value).maintains⟩

instance still_ite {condition : Prop} [Decidable condition] [onTrue : Still inv fair x]
    [onFalse : Still inv fair y] : Still inv fair (if condition then x else y) := by
  split
  · exact onTrue
  · exact onFalse

instance still_get : Still inv fair (get : Exec Machine) := ⟨maintains_get.mono fun _ _ => trivial⟩

theorem still_modify {change : Machine → Machine} (step : ∀ m, inv m → inv (change m)) :
    Still inv fair (modify change : Exec PUnit) :=
  ⟨maintains_modify step⟩

/-- A step that only changes the machine stops for nothing. -/
instance still_change (change : Machine → Machine) :
    Still (fun _ => True) fair (modify change : Exec PUnit) := still_modify fun _ _ => trivial

instance still_mapM {f : α → Exec β} [each : ∀ item, Still inv fair (f item)] (items : List α) :
    Still inv fair (items.mapM f) :=
  ⟨maintains_mapM (fun item => (each item).maintains) items⟩

instance still_forM {f : α → Exec PUnit} [each : ∀ item, Still inv fair (f item)] (items : List α) :
    Still inv fair (items.forM f) :=
  ⟨maintains_forM items fun item _ => (each item).maintains⟩

variable [aloof : Aloof inv fair]

instance still_fail {failure : Failure} [ordinary : Passes failure.isOrdinary] :
    Still inv fair (fail failure : Exec α) :=
  ⟨maintains_fail (aloof.fair failure ordinary.passes)⟩

instance still_breach {reason : Breach} [Passes (Failure.invariantViolation reason).isOrdinary] :
    Still inv fair (breach reason : Exec α) := still_fail

instance still_require (result : Option α) {otherwise : Breach}
    [Passes (Failure.invariantViolation otherwise).isOrdinary] :
    Still inv fair (require result otherwise) := by
  cases result <;> (unfold require; infer_instance)

theorem maintains_ordinary {result : Except Breach α} [ordinary : Ordinary result] {good : α → Prop}
    (here : ∀ value, result = .ok value → good value) : Maintains inv (sound result) good fair := by
  cases result with
  | ok value => exact maintains_pure (here value rfl)
  | error reason => exact maintains_fail (aloof.fair _ (ordinary.ordinary reason rfl))

instance still_sound (result : Except Breach α) [Ordinary result] : Still inv fair (sound result) :=
  ⟨maintains_ordinary fun _ _ => trivial⟩

instance still_resolved (result : Except Fault α) : Still inv fair (resolved result) := by
  cases result <;> (unfold resolved; infer_instance)

instance still_look (step : Operation α) : Still inv fair (look step) :=
  ⟨maintains_look fun m here => ⟨aloof.tx m _ here, trivial⟩⟩

theorem still_storage {step : Operation (Except Failure α)}
    (ordinary : ∀ tx store failure, (step tx store).1 = .error failure →
      failure.isOrdinary = true) : Still inv fair (storage step) :=
  ⟨maintains_storage (fun m here => ⟨aloof.tx m _ here, fun _ _ => trivial⟩)
    fun tx store failure error => aloof.fair _ (ordinary tx store failure error)⟩

theorem still_referred {step : Operation (Except Failure α)}
    (ordinary : ∀ tx store failure, (step tx store).1 = .error failure →
      failure.isOrdinary = true) : Still inv fair (referred step) := by
  refine ⟨maintains_referred (fun m here => ⟨aloof.tx m _ here, fun _ _ => trivial⟩)
    fun tx store failure error => aloof.fair _ ?_⟩
  have here := ordinary tx store failure error
  cases failure <;> exact here

end Rules

/-! ## Operations on values -/

section Values

variable {α β : Type}

instance ordinary_ok (value : α) : Ordinary (.ok value) := ⟨fun _ error => by cases error⟩

instance ordinary_pure (value : α) : Ordinary (pure value) := ordinary_ok value

instance ordinary_error {reason : Breach}
    [passes : Passes (Failure.invariantViolation reason).isOrdinary] :
    Ordinary (.error reason : Except Breach α) where
  ordinary _ error := Except.error.inj error ▸ passes.passes

instance ordinary_bind {result : Except Breach α} {f : α → Except Breach β}
    [first : Ordinary result] [rest : ∀ value, Ordinary (f value)] : Ordinary (result >>= f) := by
  cases result with
  | error reason => exact ⟨fun _ error => first.ordinary _ (Except.error.inj error ▸ rfl)⟩
  | ok value => exact rest value

instance passes_misstep (step : Value.Misstep) :
    Passes (Failure.invariantViolation (misstep step)).isOrdinary :=
  ⟨by cases step <;> rfl⟩

instance ordinary_mapError (result : Except Value.Misstep α) :
    Ordinary (result.mapError misstep) := by
  cases result <;> (unfold Except.mapError; infer_instance)

instance ordinary_compareValues (op : BinOp) (left right : Value) :
    Ordinary (op.compareValues left right) := by
  unfold BinOp.compareValues
  split <;> infer_instance

instance ordinary_combineValues (op : BinOp) (left right : Value) :
    Ordinary (op.combineValues left right) := by
  unfold BinOp.combineValues
  split <;> infer_instance

instance ordinary_placeFields (struct : StructDef) (tag : StructTag) (given : List (String × Value))
    (places : List (Option Value)) : Ordinary (struct.placeFields tag given places) := by
  induction given generalizing places with
  | nil => exact ordinary_ok places
  | cons entry rest ih =>
    rw [StructDef.placeFields]
    split <;> infer_instance

instance ordinary_pack (struct : StructDef) (tag : StructTag) (given : List (String × Value)) :
    Ordinary (struct.pack tag given) := by
  refine @ordinary_bind _ _ _ _ _ fun places => ?_
  split <;> infer_instance

instance ordinary_unpack (struct : StructDef) (binders : List (String × Binder))
    (places : List (Option Value)) : Ordinary (struct.unpack binders places) := by
  induction binders generalizing places with
  | nil => exact ordinary_ok []
  | cons entry rest ih =>
    rw [StructDef.unpack]
    refine @ordinary_bind _ _ _ _ ?_ fun index => ?_
    · cases struct.fieldIndex? entry.1 <;> (unfold Option.elim; infer_instance)
    · split
      · refine @ordinary_bind _ _ _ _ _ fun bound => ?_
        split <;> infer_instance
      · infer_instance

end Values

/-! ## Steps of transactions -/

section Transactions

variable {tx : Transaction} {store : Store} {key : SlotKey} {failure : Failure}

theorem error_read (error : (tx.read store key).1 = .error failure) : failure = .missing key := by
  unfold Transaction.read at error
  dsimp only at error
  split at error
  · cases error
  · exact (Except.error.inj error).symm

theorem error_moveFrom (error : (tx.moveFrom store key).1 = .error failure) :
    failure = .missing key := by
  unfold Transaction.moveFrom at error
  dsimp only at error
  split at error
  · cases error
  · exact (Except.error.inj error).symm

theorem error_update {ε : Type} {change : Value → Except ε Value}
    (error : (tx.update store key change).1 = .error failure) : failure = .missing key := by
  unfold Transaction.update at error
  dsimp only at error
  split at error
  · split at error <;> cases error
  · exact (Except.error.inj error).symm

theorem error_moveTo {value : Value} (error : (tx.moveTo store key value).1 = .error failure) :
    failure = .alreadyExists key := by
  unfold Transaction.moveTo at error
  dsimp only at error
  split at error
  · exact (Except.error.inj error).symm
  · cases error

end Transactions

/-! ## Steps of the machine -/

section Steps

variable {setup : Setup} [aloof : Aloof inv fair]

instance still_moveTo (key : SlotKey) (value : Value) :
    Still inv fair (storage fun tx store => tx.moveTo store key value) :=
  still_storage fun _ _ _ error => error_moveTo error ▸ rfl

instance still_moveFrom (key : SlotKey) :
    Still inv fair (storage fun tx store => tx.moveFrom store key) :=
  still_storage fun _ _ _ error => error_moveFrom error ▸ rfl

instance still_read (key : SlotKey) : Still inv fair (storage fun tx store => tx.read store key) :=
  still_storage fun _ _ _ error => error_read error ▸ rfl

instance still_countPacked (id : StructId) : Still inv fair (countPacked id) :=
  still_modify fun m => aloof.packed m _

instance still_countUnpacked (id : StructId) : Still inv fair (countUnpacked id) :=
  still_modify fun m => aloof.unpacked m _

instance still_resolveStruct (struct : StructExpr) :
    Still inv fair (resolveStruct setup struct) := by
  unfold resolveStruct
  infer_instance

instance still_resolveType (type : TypeExpr) : Still inv fair (resolveType setup type) := by
  unfold resolveType
  infer_instance

instance still_structDef (tag : StructTag) : Still inv fair (structDef setup tag) := still_require _

instance still_readRoot (root : RefRoot) : Still inv fair (readRoot root) := by
  cases root with
  | global key => exact still_referred fun _ _ _ error => error_read error ▸ rfl
  | _ => unfold readRoot; infer_instance

instance still_follow (result : Except Value.Misstep Value) : Still inv fair (follow result) :=
  still_sound _

instance still_readPlace (reference : Reference) : Still inv fair (readPlace reference) := by
  unfold readPlace
  infer_instance

variable (value : Value)

instance still_readThrough : Still inv fair (readThrough value) := by
  cases value <;> (unfold readThrough; infer_instance)

instance still_setLocal (frame index : Nat) (value : Option Value) :
    Still inv fair (modify fun m => m.setLocal frame index value : Exec PUnit) :=
  still_modify fun m => aloof.setLocal m _ _ _

section Names

variable {name : String} [found : Still inv fair (bindingIndex name)]

instance still_readLocal : Still inv fair (readLocal name) := by
  unfold readLocal
  infer_instance

instance still_takeLocal : Still inv fair (takeLocal name) := by
  refine ⟨found.maintains.bind fun index _ => maintains_get.bind fun m here => ?_⟩
  refine (still_require _).maintains.bind fun value _ => ?_
  exact (maintains_set (aloof.setLocal m _ _ _ here)).bind fun _ _ => maintains_pure trivial

instance still_borrowLocal (mutable : Bool) : Still inv fair (borrowLocal mutable name) := by
  unfold borrowLocal
  infer_instance

instance still_assign : Still inv fair (assign name value) := by
  have stored (index : Nat) : Still inv fair (modify fun m => m.setLocal m.top index (some value) :
      Exec PUnit) := still_modify fun m => aloof.setLocal m _ _ _
  unfold assign
  infer_instance

end Names

instance still_writePlace (reference : Reference) (part : Value) :
    Still inv fair (writePlace reference part) := by
  unfold writePlace
  split
  · infer_instance
  · refine @still_bind _ _ _ _ _ _ (still_referred fun _ _ _ error => error_update error ▸ rfl) ?_
    intro result
    cases result <;> infer_instance
  · have written (index : Nat) (whole : Value) : Still inv fair (modify fun m =>
        { m with host := m.host.set index whole } : Exec PUnit) := still_modify fun m =>
          aloof.host m _
    infer_instance

instance still_asBool : Still inv fair (asBool value) := by
  cases value <;> (unfold asBool; infer_instance)

instance still_asAddress : Still inv fair (asAddress value) := by
  cases value <;> (unfold asAddress; infer_instance)

instance still_signerOf : Still inv fair (signerOf value) := by
  refine @still_bind _ _ _ _ _ _ (still_readThrough value) fun found => ?_
  cases found <;> infer_instance

instance still_slotKey (struct : StructExpr) (address : Value) :
    Still inv fair (slotKey setup struct address) := by
  unfold slotKey
  infer_instance

instance still_binary (op : BinOp) (left right : Value) :
    Still inv fair (binary op left right) := by
  cases op with
  | add | sub | mul | div | mod =>
    refine @still_bind _ _ _ _ _ _ (still_sound _) fun result => ?_
    cases result <;> infer_instance
  | _ => unfold binary; infer_instance

instance still_borrowField (mutable : Bool) (base : Value) (field : String) :
    Still inv fair (borrowField setup mutable base field) := by
  cases base with
  | ref reference =>
    refine @still_bind _ _ _ _ _ _ (still_readPlace reference) fun found => ?_
    cases found <;> infer_instance
  | _ => unfold borrowField; infer_instance

instance still_freeze : Still inv fair (freeze value) := by
  cases value <;> (unfold freeze; infer_instance)

instance still_dereference : Still inv fair (dereference value) := by
  cases value <;> (unfold dereference; infer_instance)

instance still_pack (struct : StructExpr) (given : List (String × Value)) :
    Still inv fair (pack setup struct given) := by
  unfold pack
  infer_instance

instance still_writeThrough (target value : Value) :
    Still inv fair (writeThrough target value) := by
  cases target <;> (unfold writeThrough; infer_instance)

instance still_abort {α : Type} (code : BitVec 64) : Still inv fair (abort code : Exec α) := by
  unfold abort
  infer_instance

instance still_abortWith : Still inv fair (abortWith value) := by
  cases value <;> (unfold abortWith; infer_instance)

end Steps

end Exec

end Custody
