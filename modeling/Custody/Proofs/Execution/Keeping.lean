import Custody.Proofs.Execution.Judgements
/-!
# Runs that keep a property of values

An invariant may say of all values that the running function can get at that they have some
property. It is enough to know what can be read where it stands, and that it keeps standing when
values with the property are written; the steps of the machine follow, and with them every body.
Where the invariant changes along with the number of active calls, so do the calls to any depth.
-/

namespace Custody.Exec

variable {inv : Machine → Prop} {p : Value → Prop} {signed : Address → Prop} {value : Value}
  {m : Machine} {key : SlotKey}

/-- The invariant goes with a property of values: where it stands, what is read has the property,
and it keeps standing when what is written has it. Addresses taken from signers have another
property, which is asked for where a slot is filled. -/
structure Keeps (inv : Machine → Prop) (p : Value → Prop) (signed : Address → Prop) : Prop
    extends Inherited p signed where
  intoSlot : ∀ key mutable, p (.ref { root := .global key, mutable })
  intoOwn : ∀ {m}, inv m → ∀ index mutable, p (.ref { root := .local m.top index, mutable })
  -- what is read
  current : ∀ {m}, inv m → m.current.Holds p
  atLocal : ∀ {m reference frame index value}, inv m → p (.ref reference) →
    reference.root = .local frame index → m.local? frame index = some value → p value
  host : ∀ {m}, inv m → ∀ value ∈ m.host, p value
  slot : ∀ {m key value}, inv m → (m.tx.entry m.store key).value = some value → p value
  -- what is written
  setLocal : ∀ {m reference frame index slot}, inv m → p (.ref reference) →
    reference.root = .local frame index → (∀ value, slot = some value → p value) →
    inv (m.setLocal frame index slot)
  rebind : ∀ {m bindings}, inv m →
    (∀ binding ∈ bindings, ∀ value, binding.value = some value → p value) →
    inv { m with current := { m.current with bindings := bindings } }
  setHost : ∀ {m value}, inv m → ∀ index, p value → inv { m with host := m.host.set index value }
  record : ∀ {m key entry}, inv m →
    (∀ value, entry.value = some value →
      p value ∧ ((m.tx.entry m.store key).value = none → signed key.address)) →
    inv { m with tx := m.tx.record key entry }
  tally : ∀ {m tally}, inv m → inv { m with tally := tally }

/-- Calls keep the property too. -/
def KeepingCalls (inv : Machine → Prop) (p : Value → Prop) (invoke : Invoke) : Prop :=
  ∀ id decl types args, (∀ arg ∈ args, p arg) → Maintains inv (invoke id decl types args) p

theorem KeepingCalls.callFunction {setup : Setup} {invoke : Invoke}
    (calls : KeepingCalls inv p invoke) (module : Option String) (function : String)
    (typeArgs : List TypeExpr) {args : List Value} (values : ∀ arg ∈ args, p arg) :
    Maintains inv (callFunction setup invoke module function typeArgs args) p := by
  refine (maintains_mapM (fun _ => maintains_resolveType) typeArgs).bind fun types _ => ?_
  refine maintains_get.bind fun m _ => ?_
  dsimp only
  split
  · exact calls _ _ types args values
  · exact maintains_fail trivial

namespace Keeps

section Steps

variable (keeps : Keeps inv p signed)

include keeps

theorem atOwn (here : inv m) {index : Nat} (found : m.local? m.top index = some value) : p value :=
  keeps.atLocal here (keeps.intoOwn here index false) rfl found

theorem setOwn {slot : Option Value} (here : inv m) (index : Nat)
    (new : ∀ value, slot = some value → p value) : inv (m.setLocal m.top index slot) :=
  keeps.setLocal here (keeps.intoOwn here index false) rfl new

theorem readLocal (name : String) : Maintains inv (readLocal name) p :=
  maintains_bindingIndex.bind fun _ _ => maintains_get.bind fun _ here =>
    maintains_require fun _ found => keeps.atOwn here found

theorem takeLocal (name : String) : Maintains inv (takeLocal name) p := by
  refine maintains_bindingIndex.bind fun index _ => maintains_get.bind fun m here => ?_
  refine Maintains.bind (maintains_require fun _ found => keeps.atOwn here found)
    fun value has => ?_
  have emptied : inv (m.setLocal m.top index none) := keeps.setOwn here index fun _ absurd =>
    by cases absurd
  exact (maintains_set emptied).bind fun _ _ => maintains_pure has

theorem bindLocal (name : String) (has : p value) :
    Maintains inv (Exec.bind name value) fun _ => True := by
  refine maintains_modify fun m here => keeps.rebind here ?_
  exact List.forall_mem_append.mpr ⟨keeps.current here,
    List.forall_mem_singleton.mpr fun _ same => Option.some.inj same ▸ has⟩

theorem assign (name : String) (has : p value) : Maintains inv (assign name value) fun _ => True :=
  maintains_bindingIndex.bind fun index _ => maintains_modify fun _ here =>
    keeps.setOwn here index fun _ same => Option.some.inj same ▸ has

theorem inScope {block : Exec Flow} {good : Flow → Prop} (runs : Maintains inv block good) :
    Maintains inv (inScope block) good :=
  maintains_get.bind fun _ _ => runs.bind fun _ returns =>
    Maintains.bind (maintains_modify fun _ here => keeps.rebind here fun binding member =>
      keeps.current here binding (List.mem_of_mem_take member)) fun _ _ => maintains_pure returns

theorem countReached (use : StructUse) (key : SlotKey) :
    Maintains inv (countReached use key) fun _ => True :=
  maintains_modify fun _ here => keeps.tally here

/-! ### Slots -/

theorem touch (here : inv m) (key : SlotKey) :
    inv { m with tx := m.tx.record key (m.tx.entry m.store key) } :=
  keeps.record here fun _ seen =>
    ⟨keeps.slot here seen, fun absent => by cases absent.symm.trans seen⟩

theorem readSlot (here : inv m) (key : SlotKey) :
    inv { m with tx := (m.tx.read m.store key).2 } ∧
      ∀ value, (m.tx.read m.store key).1 = .ok value → p value := by
  have touched := keeps.touch here key
  simp only [Transaction.read]
  cases seen : (m.tx.entry m.store key).value with
  | none => exact ⟨touched, fun _ absurd => by cases absurd⟩
  | some value => exact ⟨touched, fun _ same => Except.ok.inj same ▸ keeps.slot here seen⟩

theorem readRoot {reference : Reference} (has : p (.ref reference)) :
    Maintains inv (readRoot reference.root) p := by
  cases root : reference.root with
  | «local» frame index =>
    exact maintains_get.bind fun _ here => maintains_require fun _ found =>
      keeps.atLocal here has root found
  | global key =>
    exact maintains_referred (fun _ here => keeps.readSlot here key) fun _ _ _ _ => trivial
  | host index =>
    exact maintains_get.bind fun _ here => maintains_require fun value found =>
      keeps.host here value (List.mem_of_getElem? found)

/-- Writing into a slot needs a value there, so it fills none. -/
theorem update (key : SlotKey) (path : List Nat) {part : Value} (new : p part) :
    Maintains inv (referred fun tx store => tx.update store key (·.replaceAt path part))
      fun _ => True := by
  refine maintains_referred (fun m here => ⟨?_, fun _ _ => trivial⟩) fun _ _ _ _ => trivial
  simp only [Transaction.update]
  cases seen : (m.tx.entry m.store key).value with
  | none => exact keeps.touch here key
  | some whole =>
    have old : p whole := keeps.slot here seen
    have filled : (m.tx.entry m.store key).value = none → signed key.address :=
      fun absent => by cases absent.symm.trans seen
    cases changed : whole.replaceAt path part with
    | error step =>
      simp only [changed]
      exact keeps.record here fun _ same => ⟨Option.some.inj same ▸ old, filled⟩
    | ok value =>
      simp only [changed]
      exact keeps.record here fun _ same =>
        ⟨Option.some.inj same ▸ keeps.hereditary.replaceAt old new changed, filled⟩

/-- Only here is an empty slot filled, under the address of a signer. -/
theorem moveTo (authority : signed key.address) (has : p value) :
    Maintains inv (storage fun tx store => tx.moveTo store key value) fun _ => True := by
  refine maintains_storage (fun m here => ⟨?_, fun _ _ => trivial⟩) fun _ _ _ _ => trivial
  simp only [Transaction.moveTo]
  split
  · exact keeps.touch here key
  · exact keeps.record here fun _ same => ⟨Option.some.inj same ▸ has, fun _ => authority⟩

theorem moveFrom (key : SlotKey) :
    Maintains inv (storage fun tx store => tx.moveFrom store key) p := by
  refine maintains_storage (fun m here => ?_) fun _ _ _ _ => trivial
  simp only [Transaction.moveFrom]
  cases seen : (m.tx.entry m.store key).value with
  | none => exact ⟨keeps.touch here key, fun _ absurd => by cases absurd⟩
  | some value =>
    exact ⟨keeps.record here fun _ absurd => (by cases absurd), fun _ same =>
      Except.ok.inj same ▸ keeps.slot here seen⟩

end Steps

/-! ## Bodies -/

variable {setup : Setup} {invoke : Invoke}

/-- The property is kept by every expression and every statement. -/
theorem judges (keeps : Keeps inv p signed) (calls : KeepingCalls inv p invoke) :
    Judges setup invoke p signed fun _ x good => Maintains inv x good where
  toInherited := keeps.toInherited
  pure := maintains_pure
  bind := fun _ first rest => first.bind rest
  stop := fun _ => maintains_throw trivial
  raise := fun _ => maintains_get.bind fun _ _ => maintains_fail trivial
  resolveStruct := fun _ => maintains_resolveStruct
  countPacked := fun _ => maintains_modify fun _ here => keeps.tally here
  countUnpacked := fun _ => maintains_modify fun _ here => keeps.tally here
  readLocal := keeps.readLocal
  takeLocal := keeps.takeLocal
  borrowLocal := fun mutable _ => maintains_bindingIndex.bind fun index _ => maintains_get.bind
    fun _ here => maintains_pure (keeps.intoOwn here index mutable)
  bindLocal := fun name _ has => keeps.bindLocal name has
  assign := fun name _ has => keeps.assign name has
  inScope := keeps.inScope
  readRoot := keeps.readRoot
  setLocal := fun leads root has => maintains_modify fun _ here => keeps.setLocal here leads root
    fun _ same => Option.some.inj same ▸ has
  setHost := fun index _ has => maintains_modify fun _ here => keeps.setHost here index has
  update := fun _ _ new => keeps.update _ _ new
  call := fun module function typeArgs _ => calls.callFunction module function typeArgs
  moveTo := fun authority has => (keeps.countReached _ _).bind fun _ _ =>
    (keeps.moveTo authority has).bind fun _ _ => maintains_pure (keeps.hereditary.scalar rfl)
  moveFrom := fun key => (keeps.countReached _ _).bind fun _ _ => keeps.moveFrom key
  borrowGlobal := fun mutable key => (keeps.countReached _ _).bind fun _ _ =>
    Maintains.bind
      (maintains_storage (fun _ here => keeps.readSlot here key) fun _ _ _ _ => trivial)
      fun _ _ => maintains_pure (keeps.intoSlot key mutable)
  existsAt := fun key => (keeps.countReached _ _).bind fun _ _ =>
    Maintains.bind (maintains_look fun _ here => ⟨keeps.touch here key, trivial⟩) fun _
      (_ : True) =>
      maintains_pure (keeps.hereditary.scalar rfl)

end Keeps

/-! ## Calls -/

/-- An invariant for each number of active calls. While there are any, it goes with the property; it
is carried from each number to the next when a call begins, and back when it ends. -/
structure Nests (inv : Nat → Machine → Prop) (p : Value → Prop) (signed : Address → Prop) :
    Prop where
  keeps : ∀ level, Keeps (inv (level + 1)) p signed
  enter : ∀ {level m frame}, inv level m → frame.Holds p → inv (level + 1) (m.enter frame)
  leave : ∀ {level m}, inv (level + 1) m → inv level m.leave
  tally : ∀ {level m tally}, inv level m → inv level { m with tally := tally }

/-- Calls to any depth, by induction on how many more may be active. -/
theorem Nests.call {inv : Nat → Machine → Prop} {setup : Setup} (nests : Nests inv p signed)
    (depth level : Nat) : KeepingCalls (inv level) p (call setup depth) := by
  induction depth generalizing level with
  | zero => exact fun _ _ _ _ _ => maintains_fail trivial
  | succ depth ih =>
    intro id decl types args values
    have body : Maintains (inv level) (inFrame (callFrame id decl types args)
        (runBody setup (Exec.call setup depth) decl)) p :=
      maintains_inFrame (fun _ here => nests.enter here (holds_callFrame id decl types values))
        (fun _ here => nests.leave here)
        (((nests.keeps level).judges (ih (level + 1))).runBody decl)
    exact Maintains.bind (maintains_modify fun _ here => nests.tally here) fun _ _ =>
      maintains_visiting body (fun _ _ here => nests.tally here) id args

end Custody.Exec
