import Custody.Proofs.Execution.Invariants
import Custody.Proofs.Storage.Commit
/-!
# What a machine holds

A machine holds values in the bindings of its frames, in the cells of the host and in the slots of
its transaction. A property of values that goes by their parts can be followed through all of them:
taking values apart, putting them together and moving them about never makes a value that lacks it.
-/

namespace Custody

variable {value : Value} {slot : Option Value} {tag : StructTag} {frame : Frame} {p : Value → Prop}
  {places : List (Option Value)} {binders : List (String × Binder)}
  {given bound : List (String × Value)} {path : List Nat} {m : Machine} {op : BinOp}

/-! ## Properties of values that go by their parts -/

namespace Value

/-- Neither made of other values, nor standing for an address or a place. -/
def isScalar : Value → Bool
  | .unit | .bool _ | .u8 _ | .u64 _ | .u128 _ | .address _ => true
  | .signer _ | .vector _ | .struct _ _ | .ref _ => false

/-- Scalars have the property, and what is made of other values has it if those do. -/
structure Hereditary (p : Value → Prop) : Prop where
  scalar : ∀ {value : Value}, value.isScalar = true → p value
  vector : ∀ {items : List Value}, p (.vector items) ↔ ∀ item ∈ items, p item
  struct : ∀ {tag : StructTag} {fields : List Value}, p (.struct tag fields) ↔
    ∀ field ∈ fields, p field

section Parts

variable (hereditary : Hereditary p)

include hereditary

theorem Hereditary.descend {whole part : Value} (has : p whole)
    (reached : whole.descend path = .ok part) : p part := by
  induction path generalizing whole with
  | nil =>
    rw [Value.descend] at reached
    exact Except.ok.inj reached ▸ has
  | cons index path ih =>
    cases whole with
    | struct tag fields =>
      simp only [Value.descend] at reached
      split at reached
      · rename_i field found
        exact ih (hereditary.struct.mp has field (List.mem_of_getElem? found)) reached
      · cases reached
    | _ => simp [Value.descend] at reached

/-- A value with one part replaced has parts of the old value and of the new part. -/
theorem Hereditary.replaceAt {whole part changed : Value} (has : p whole) (new : p part)
    (replaced : whole.replaceAt path part = .ok changed) : p changed := by
  induction path generalizing whole changed with
  | nil =>
    rw [Value.replaceAt] at replaced
    exact Except.ok.inj replaced ▸ new
  | cons index path ih =>
    cases whole with
    | struct tag fields =>
      have inside := hereditary.struct.mp has
      simp only [Value.replaceAt] at replaced
      split at replaced
      · rename_i field found
        cases below : field.replaceAt path part with
        | error step => simp [below, bind, Except.bind] at replaced
        | ok deeper =>
          simp only [below, bind, Except.bind, pure, Except.pure] at replaced
          obtain rfl := Except.ok.inj replaced
          refine hereditary.struct.mpr fun other member => ?_
          rcases List.mem_or_eq_of_mem_set member with old | rfl
          · exact inside other old
          · exact ih (inside field (List.mem_of_getElem? found)) below
      · cases replaced
    | _ => simp [Value.replaceAt] at replaced

end Parts

section Leaves

variable {α : Type} (ofRef : Reference → List α) (ofSigner : Address → List α)

mutual

/-- What the references and the signers inside a value stand for. -/
def collect : Value → List α
  | .ref reference => ofRef reference
  | .signer owner => ofSigner owner
  | .vector items => collectAll items
  | .struct _ fields => collectAll fields
  | .unit | .bool _ | .u8 _ | .u64 _ | .u128 _ | .address _ => []

/-- The same of several values, one after the other. -/
def collectAll : List Value → List α
  | [] => []
  | value :: values => collect value ++ collectAll values

end

variable {ofRef ofSigner}

theorem mem_collectAll {item : α} {values : List Value} :
    item ∈ collectAll ofRef ofSigner values ↔ ∃ value ∈ values, item ∈ value.collect ofRef
    ofSigner := by
  induction values with
  | nil => simp [collectAll]
  | cons value values ih => simp [collectAll, ih]

/-- It is hereditary that all of this is allowed. -/
theorem hereditary_collect {allowed : α → Prop} :
    Hereditary fun value => ∀ item ∈ value.collect ofRef ofSigner, allowed item := by
  have each : ∀ values, (∀ item ∈ collectAll ofRef ofSigner values, allowed item) ↔
      ∀ value ∈ values, ∀ item ∈ value.collect ofRef ofSigner, allowed item := by
    simp only [mem_collectAll]
    exact fun _ => ⟨fun all value member item inside => all item ⟨value, member, inside⟩,
      fun all item ⟨value, member, inside⟩ => all value member item inside⟩
  refine ⟨fun {value} scalar => ?_, by simp [collect, each], by simp [collect, each]⟩
  cases value <;> first | cases scalar; done | simp [collect]

end Leaves

theorem isScalar_compareValues {left right value : Value}
    (compared : op.compareValues left right = .ok value) : value.isScalar = true := by
  unfold BinOp.compareValues at compared
  split at compared <;> cases compared <;> rfl

theorem isScalar_combineValues {left right value : Value}
    (combined : op.combineValues left right = .ok (.ok value)) : value.isScalar = true := by
  have number : ∀ {width : Nat} {make : BitVec width → Value} {result : Except ArithmeticFault _},
      (∀ bits, (make bits).isScalar = true) → Except.map make result = .ok value →
        value.isScalar = true := by
    intro width make result plain mapped
    cases result with
    | error fault => cases mapped
    | ok bits => exact Except.ok.inj mapped ▸ plain bits
  unfold BinOp.combineValues at combined
  split at combined <;>
    first | exact number (fun _ => rfl) (Except.ok.inj combined) | cases combined

end Value

/-! ## Structs -/

section Structs

variable {struct : StructDef}

/-- The values that stand in places. -/
def Placed (p : Value → Prop) (places : List (Option Value)) : Prop :=
  ∀ value, some value ∈ places → p value

theorem Placed.set (placed : Placed p places) {index : Nat}
    (new : ∀ value, slot = some value → p value) : Placed p (places.set index slot) := by
  intro value member
  rcases List.mem_or_eq_of_mem_set member with old | same
  · exact placed value old
  · exact new value same.symm

theorem Placed.placeFields {filled : List (Option Value)} (placed : Placed p places)
    (values : ∀ entry ∈ given, p entry.2)
    (done : struct.placeFields tag given places = .ok filled) : Placed p filled := by
  induction given generalizing places with
  | nil => exact Except.ok.inj done ▸ placed
  | cons entry rest ih =>
    simp only [StructDef.placeFields] at done
    split at done
    · refine ih (placed.set ?_)
        (fun other member => values other (List.mem_cons_of_mem _ member)) done
      rintro value same
      exact Option.some.inj same ▸ values entry List.mem_cons_self
    · cases done

theorem mem_of_allFilled? {α : Type} {places : List (Option α)} {values : List α}
    (filled : allFilled? places = some values) {value : α} (member : value ∈ values) :
    some value ∈ places := by
  induction places generalizing values with
  | nil =>
    obtain rfl := Option.some.inj filled
    cases member
  | cons place rest ih =>
    cases place with
    | none => cases filled
    | some first =>
      obtain ⟨others, rest', rfl⟩ := Option.map_eq_some_iff.mp filled
      rcases List.mem_cons.mp member with rfl | later
      · exact List.mem_cons_self
      · exact List.mem_cons_of_mem _ (ih rest' later)

theorem Value.Hereditary.pack (hereditary : Value.Hereditary p)
    (values : ∀ entry ∈ given, p entry.2) (packed : struct.pack tag given = .ok value) :
    p value := by
  unfold StructDef.pack at packed
  have empty : Placed p (struct.fields.map fun _ => none) := by
    intro value member
    simp at member
  cases placed : struct.placeFields tag given (struct.fields.map fun _ => none) with
  | error reason =>
    simp only [placed, bind, Except.bind] at packed
    cases packed
  | ok places =>
    simp only [placed, bind, Except.bind] at packed
    split at packed
    · rename_i fields filled
      obtain rfl := Except.ok.inj packed
      exact hereditary.struct.mpr fun field member =>
        empty.placeFields values placed field (mem_of_allFilled? filled member)
    · cases packed

theorem Placed.unpack (placed : Placed p places)
    (unpacked : struct.unpack binders places = .ok bound) : ∀ entry ∈ bound, p entry.2 := by
  induction binders generalizing places bound with
  | nil =>
    obtain rfl := Except.ok.inj unpacked
    intro entry member
    cases member
  | cons binder rest ih =>
    obtain ⟨field, binder⟩ := binder
    simp only [StructDef.unpack] at unpacked
    cases position : struct.fieldIndex? field with
    | none => simp [position, bind, Except.bind] at unpacked
    | some index =>
      simp only [position, Option.elim_some, bind, Except.bind] at unpacked
      split at unpacked
      · rename_i value found
        have remaining : Placed p (places.set index none) := by
          refine placed.set ?_
          intro other absurd
          cases absurd
        cases later : struct.unpack rest (places.set index none) with
        | error reason => simp [later] at unpacked
        | ok others =>
          have each := ih remaining later
          simp only [later] at unpacked
          cases binder with
          | ignore => exact Except.ok.inj unpacked ▸ each
          | bind name =>
            obtain rfl := Except.ok.inj unpacked
            exact List.forall_mem_cons.mpr ⟨placed value (List.mem_of_getElem? found), each⟩
      · cases unpacked

/-- The fields of a struct that is taken apart. -/
theorem Value.Hereditary.unpack (hereditary : Value.Hereditary p) {fields : List Value}
    (has : p (.struct tag fields))
    (unpacked : struct.unpack binders (fields.map some) = .ok bound) :
    ∀ entry ∈ bound, p entry.2 := by
  have placed : Placed p (fields.map some) := by
    intro field member
    obtain ⟨other, inside, same⟩ := List.mem_map.mp member
    exact Option.some.inj same ▸ hereditary.struct.mp has other inside
  exact placed.unpack unpacked

end Structs

/-! ## Holdings -/

/-- Every binding with a value has one with the property. -/
def Frame.Holds (p : Value → Prop) (frame : Frame) : Prop :=
  ∀ binding ∈ frame.bindings, ∀ value, binding.value = some value → p value

theorem Frame.Holds.put (holds : frame.Holds p) (index : Nat)
    (new : ∀ value, slot = some value → p value) : (frame.put index slot).Holds p := by
  intro binding member value held
  obtain ⟨position, found⟩ := List.mem_iff_getElem?.mp member
  simp only [Frame.put, List.getElem?_modify] at found
  obtain ⟨old, present, rfl⟩ := Option.map_eq_some_iff.mp found
  split at held
  · exact new value held
  · exact holds old (List.mem_of_getElem? present) value held

theorem Exec.holds_callFrame (id : FunctionId) (decl : FunctionDecl) (types : List Ty)
    {args : List Value} (values : ∀ arg ∈ args, p arg) :
    (callFrame id decl types args).Holds p := by
  intro binding member value held
  obtain ⟨position, found⟩ := List.mem_iff_getElem?.mp member
  simp only [callFrame, List.getElem?_zipWith_eq_some] at found
  obtain ⟨param, arg, _, here, rfl⟩ := found
  exact Option.some.inj held ▸ values arg (List.mem_of_getElem? here)

/-- Every value in a frame or a cell has the property, and every slot is seen as the law of slots
has it, in a machine that began on the given storage. -/
structure Machine.Holds (p : Value → Prop) (law : SlotKey → Entry → Prop) (base : Store)
    (m : Machine) : Prop where
  frames : ∀ frame ∈ m.current :: m.callers, frame.Holds p
  host : ∀ value ∈ m.host, p value
  store : m.store = base
  slots : ∀ key, law key (m.tx.entry m.store key)

theorem Machine.mem_of_frame? {n : Nat} (found : m.frame? n = some frame) :
    frame ∈ m.current :: m.callers := by
  simp only [Machine.frame?] at found
  split at found
  · exact Option.some.inj found ▸ List.mem_cons_self
  · split at found
    · exact List.mem_cons_of_mem _ (List.mem_of_getElem? found)
    · cases found

namespace Machine.Holds

variable {law : SlotKey → Entry → Prop} {base : Store} (holds : m.Holds p law base)

include holds

theorem of_local? {n index : Nat} (found : m.local? n index = some value) : p value := by
  rw [Machine.local?_eq] at found
  obtain ⟨frame, here, inFrame⟩ := Option.bind_eq_some_iff.mp found
  obtain ⟨binding, present, held⟩ := Option.bind_eq_some_iff.mp inFrame
  exact holds.frames frame (mem_of_frame? here) binding (List.mem_of_getElem? present) value held

theorem of_frames {current : Frame} {callers : List Frame}
    (frames : ∀ frame ∈ current :: callers, frame.Holds p) :
    ({ m with current := current, callers := callers } : Machine).Holds p law base :=
  { holds with frames := frames }

theorem setLocal (n index : Nat) (new : ∀ value, slot = some value → p value) :
    (m.setLocal n index slot).Holds p law base := by
  have current := holds.frames m.current List.mem_cons_self
  have callers : ∀ frame ∈ m.callers, frame.Holds p := fun frame member =>
    holds.frames frame (List.mem_cons_of_mem _ member)
  unfold Machine.setLocal Machine.modifyFrame
  dsimp only
  split
  · exact holds.of_frames (List.forall_mem_cons.mpr ⟨current.put index new, callers⟩)
  · split
    · refine holds.of_frames (List.forall_mem_cons.mpr ⟨current, fun frame member => ?_⟩)
      obtain ⟨position, found⟩ := List.mem_iff_getElem?.mp member
      rw [List.getElem?_modify] at found
      obtain ⟨old, present, rfl⟩ := Option.map_eq_some_iff.mp found
      have oldHolds := callers old (List.mem_of_getElem? present)
      split
      · exact oldHolds.put index new
      · exact oldHolds
    · exact holds

theorem rebind {bindings : List Binding}
    (held : ∀ binding ∈ bindings, ∀ value, binding.value = some value → p value) :
    ({ m with current := { m.current with bindings := bindings } } : Machine).Holds p law base :=
  holds.of_frames (List.forall_mem_cons.mpr
    ⟨held, fun frame member => holds.frames frame (List.mem_cons_of_mem _ member)⟩)

/-- One more binding. -/
theorem bind (name : String) (here : p value) :
    ({ m with
      current := { m.current with
        bindings := m.current.bindings ++ [{ name, value := some value }] } } : Machine).Holds
      p law base := by
  refine holds.rebind fun binding member held found => ?_
  rcases List.mem_append.mp member with old | new
  · exact holds.frames m.current List.mem_cons_self binding old held found
  · obtain rfl := List.mem_singleton.mp new
    exact Option.some.inj found ▸ here

/-- Only the oldest bindings. -/
theorem shrink (mark : Nat) :
    ({ m with
      current := { m.current with bindings := m.current.bindings.take mark } } : Machine).Holds
      p law base :=
  holds.rebind fun binding member =>
    holds.frames m.current List.mem_cons_self binding (List.mem_of_mem_take member)

theorem setHost (index : Nat) (here : p value) :
    ({ m with host := m.host.set index value } : Machine).Holds p law base := by
  refine { holds with host := fun other member => ?_ }
  rcases List.mem_or_eq_of_mem_set member with kept | rfl
  · exact holds.host other kept
  · exact here

theorem enter (new : frame.Holds p) : (m.enter frame).Holds p law base :=
  holds.of_frames (List.forall_mem_cons.mpr ⟨new, holds.frames⟩)

theorem leave : m.leave.Holds p law base := by
  unfold Machine.leave
  split
  · exact holds
  · rename_i caller callers waiting
    refine holds.of_frames fun frame member => holds.frames frame ?_
    rw [waiting]
    exact List.mem_cons_of_mem _ member

/-- Every step of the transaction records one entry. -/
theorem record (key : SlotKey) {entry : Entry} (lawful : law key entry) :
    ({ m with tx := m.tx.record key entry } : Machine).Holds p law base where
  frames := holds.frames
  host := holds.host
  store := holds.store
  slots := by
    intro other
    have kept := holds.slots other
    by_cases same : other = key
    · subst same
      simpa [Transaction.entry] using lawful
    · simpa [Transaction.entry, same] using kept

end Machine.Holds

end Custody
