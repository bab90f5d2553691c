import Custody.CommandLine.Commands
import Custody.Proofs.Execution.Accounts
import Custody.Proofs.Execution.Growing
/-!
# Spelled arguments are accepted

Two checks are made of an argument that is spelled by a word: the word is read as data of the type
of the parameter, and the machine asks whether the value conforms to that type. What passes the
first passes the second. A request with spelled arguments is refused, if at all, for its type
arguments or for what the function returns, and a run that has begun never puts its failure down to
the request.
-/

namespace Custody

open Universe

variable {u : Universe} {ty : Ty} {value : Value}

/-! ## Values that data spells -/

namespace Data

variable {values : List Value} {parts : List (String × Reader)}

/-- Spelled values conform to their type, which is none of references. -/
def Reader.Sound (u : Universe) (read : Reader) : Prop :=
  ∀ ty value, read ty = .ok value → value.conformsTo u ty = true ∧ ty.isRef = false

theorem sound_asPlain (data : Data) : Reader.Sound u data.asPlain := by
  intro ty value read
  cases ty with
  | bool | u8 | u64 | u128 | address =>
    obtain ⟨_, _, done⟩ := bind_eq_ok read
    obtain rfl := Except.ok.inj done
    exact ⟨rfl, rfl⟩
  | _ => cases read

theorem forall₂_assemble {tag : StructTag} {fields : List (String × Ty)}
    (sound : ∀ part ∈ parts, Reader.Sound u part.2)
    (read : assemble tag parts fields = .ok values) :
    Value.ConformAll u values (fields.map (·.2)) := by
  induction fields generalizing values with
  | nil =>
    obtain rfl := Except.ok.inj read
    exact .nil
  | cons field fields ih =>
    obtain ⟨name, ty⟩ := field
    rw [assemble] at read
    split at read
    · cases read
    · rename_i part found
      obtain ⟨value, first, read⟩ := bind_eq_ok read
      obtain ⟨others, rest, read⟩ := bind_eq_ok read
      obtain rfl := Except.ok.inj read
      exact .cons (sound _ (StructDef.mem_of_lookup found) ty value first).1 (ih rest)

theorem conformsTo_asStruct {id : StructId} {args : List Ty}
    (sound : ∀ part ∈ parts, Reader.Sound u part.2)
    (read : asStruct u ⟨id, args⟩ parts = .ok value) :
    value.conformsTo u (.struct id args) = true := by
  unfold asStruct at read
  split at read
  · cases read
  · rename_i declared known
    split at read
    · cases read
    · obtain ⟨fields, assembled, read⟩ := bind_eq_ok read
      obtain rfl := Except.ok.inj read
      exact Value.conformsTo_struct_iff.mpr
        ⟨fields, declared, rfl, known, forall₂_assemble sound assembled⟩

mutual

theorem sound_asValue : (data : Data) → Reader.Sound u (asValue u data)
  | .null | .bool _ | .number _ | .string _ => by
    rw [asValue]
    · exact sound_asPlain _
    all_goals simp
  | .array items => by
    intro ty value read
    rw [asValue] at read
    dsimp only at read
    split at read
    · obtain ⟨values, all, read⟩ := bind_eq_ok read
      obtain rfl := Except.ok.inj read
      exact ⟨allConformTo_asValues items all, rfl⟩
    · exact sound_asPlain _ _ _ read
  | .object fields => by
    intro ty value read
    rw [asValue] at read
    dsimp only at read
    split at read
    · exact ⟨conformsTo_asStruct (sound_readers fields) read, rfl⟩
    · exact sound_asPlain _ _ _ read

theorem allConformTo_asValues : (items : List Data) → {ty : Ty} → {values : List Value} →
    asValues u items ty = .ok values → Value.allConformTo u ty values = true
  | [], _, _, read => by
    rw [asValues] at read
    obtain rfl := Except.ok.inj read
    rfl
  | item :: items, ty, _, read => by
    rw [asValues] at read
    obtain ⟨value, first, read⟩ := bind_eq_ok read
    obtain ⟨values, rest, read⟩ := bind_eq_ok read
    obtain rfl := Except.ok.inj read
    rw [Value.allConformTo, (sound_asValue item ty value first).1, allConformTo_asValues items rest]
    rfl

theorem sound_readers : (fields : List (String × Data)) →
    ∀ part ∈ readers u fields, Reader.Sound u part.2
  | [] => by
    rw [readers]
    exact List.forall_mem_nil _
  | (_, data) :: rest => by
    rw [readers]
    exact List.forall_mem_cons.mpr ⟨sound_asValue data, sound_readers rest⟩

end

end Data

theorem eq_ok_of_mapError {α ε δ : Type} {result : Except ε α} {f : ε → δ} {done : α}
    (mapped : result.mapError f = .ok done) : result = .ok done := by
  cases result with
  | error _ => cases mapped
  | ok _ => exact congrArg Except.ok (Except.ok.inj mapped)

theorem Value.conformsTo_parse {source : String} (read : Value.parse u ty source = .ok value) :
    value.conformsTo u ty = true ∧ ty.isRef = false :=
  Data.sound_asValue _ ty value (eq_ok_of_mapError read)

/-! ## Arguments that words spell -/

/-- The machine takes the argument for the parameter, whatever cells are taken already. -/
def Universe.Admits (u : Universe) (typeArgs : List Ty) (param : String × Ty) (arg : Value) :
    Prop :=
  ∀ host, ∃ bound, u.entryArgument host param.1 (param.2.subst typeArgs) arg = .ok bound

/-- The fault lies in the arguments of a request, and not in its type arguments or in the
function. -/
def ArgumentFault.concernsArguments : ArgumentFault → Bool
  | .argumentCount _ _ _ | .notSigner _ _ | .hostReference _ _ | .nonconforming _ _ _ => true
  | _ => false

section Requests

variable {typeArgs : List Ty} {params : List (String × Ty)} {values : List Value} {sender : Address}
  {function : FunctionId} {words : List String} {signature : Signature} {fault : ArgumentFault}

theorem Universe.admits_of_conformsTo {param : String × Ty}
    (plain : (param.2.subst typeArgs).isRef = false)
    (conforms : value.conformsTo u (param.2.subst typeArgs) = true) :
    u.Admits typeArgs param value := by
  intro host
  refine ⟨(value, host), ?_⟩
  unfold entryArgument
  split
  · rename_i shape
    rw [shape] at plain
    cases plain
  · rename_i shape
    rw [shape] at plain
    cases plain
  · rw [if_pos conforms]

/-- Words that fill the parameters give one value to each, and the machine takes it. -/
theorem admits_fillParams
    (filled : fillParams u function typeArgs sender params words = .ok values) :
    List.Forall₂ (u.Admits typeArgs) params values := by
  induction params generalizing words values with
  | nil =>
    cases words with
    | nil =>
      obtain rfl := Except.ok.inj filled
      exact .nil
    | cons _ _ => cases filled
  | cons param params ih =>
    unfold fillParams at filled
    split at filled
    · rename_i mutable signs
      obtain ⟨others, rest, filled⟩ := bind_eq_ok filled
      obtain rfl := Except.ok.inj filled
      refine .cons (fun host => ?_) (ih rest)
      rw [signs]
      exact ⟨_, rfl⟩
    · cases filled
    · obtain ⟨value, read, filled⟩ := bind_eq_ok filled
      obtain ⟨others, rest, filled⟩ := bind_eq_ok filled
      obtain rfl := Except.ok.inj filled
      obtain ⟨conforms, plain⟩ := Value.conformsTo_parse (eq_ok_of_mapError read)
      exact .cons (admits_of_conformsTo plain conforms) (ih rest)

theorem exists_entryArguments (admitted : List.Forall₂ (u.Admits typeArgs) params values)
    (host : List Value) : ∃ taken, u.entryArguments typeArgs params values host = .ok taken := by
  induction admitted generalizing host with
  | nil => exact ⟨_, rfl⟩
  | cons first _ ih =>
    obtain ⟨⟨value, between⟩, first⟩ := first host
    obtain ⟨⟨others, after⟩, rest⟩ := ih between
    refine ⟨(value :: others, after), ?_⟩
    rw [entryArguments, first]
    simp only [bind, Except.bind, rest]
    rfl

theorem error_of_forM {α ε : Type} {f : α → Except ε Unit} {items : List α} {error : ε}
    (failed : items.forM f = .error error) : ∃ item, f item = .error error := by
  induction items with
  | nil => cases failed
  | cons item items ih =>
    change (f item >>= fun _ => items.forM f) = _ at failed
    cases first : f item with
    | error other =>
      rw [first] at failed
      exact ⟨item, first.trans (congrArg _ (Except.error.inj failed))⟩
    | ok _ =>
      rw [first] at failed
      exact ih failed

theorem concerns_checkTypeArguments
    (refused : u.checkTypeArguments signature typeArgs = .error fault) :
    fault.concernsArguments = false := by
  unfold checkTypeArguments at refused
  split at refused
  · obtain rfl := Except.error.inj refused
    rfl
  · obtain ⟨entry, refused⟩ := error_of_forM refused
    unfold checkTypeArgument at refused
    dsimp only at refused
    split at refused
    · obtain rfl := Except.error.inj refused
      rfl
    · split at refused
      · obtain rfl := Except.error.inj refused
        rfl
      · split at refused
        · cases refused
        · obtain rfl := Except.error.inj refused
          rfl

/-- A request whose arguments are admitted is refused for something else. -/
theorem concerns_acceptCall (admitted : List.Forall₂ (u.Admits typeArgs) signature.params values)
    (refused : u.acceptCall signature typeArgs values = .error fault) :
    fault.concernsArguments = false := by
  unfold acceptCall at refused
  cases checked : u.checkTypeArguments signature typeArgs with
  | error other =>
    rw [checked] at refused
    obtain rfl := Except.error.inj refused
    exact concerns_checkTypeArguments checked
  | ok _ =>
    rw [checked] at refused
    simp only [bind, Except.bind] at refused
    split at refused
    · obtain rfl := Except.error.inj refused
      rfl
    · rw [if_neg (not_not.mpr admitted.length_eq.symm)] at refused
      obtain ⟨taken, accepted⟩ := exists_entryArguments admitted []
      cases accepted.symm.trans refused

end Requests

/-! ## Runs do not blame the request -/

namespace Exec

/-- The reason to stop is not about a request. -/
def Raises (stop : Stop) : Prop := ∀ fault, stop ≠ .failure (.invalidArgument fault)

instance lenient_raises : Lenient Raises where
  raised failure raised := by
    rintro fault same
    rw [Stop.failure.inj same] at raised
    cases raised
  outOfFuel _ := nofun

instance aloof_raises : Aloof (fun _ => True) Raises := aloof_any fun failure ordinary
    fault same => by
  rw [Stop.failure.inj same] at ordinary
  cases ordinary

/-- Calls to any depth, by induction on how many more may be active. -/
instance raises_call (setup : Setup) (depth : Nat) :
    LeavingCalls (fun _ => True) (call setup depth) Raises := by
  induction depth with
  | zero => exact ⟨fun _ _ _ _ => leaves_raised _⟩
  | succ depth ih =>
    refine ⟨fun id decl types args => ?_⟩
    have counted (frame : Frame) : Still (fun _ => True) Raises (countEntered frame) :=
      still_change _
    have body : Still (fun _ => True) Raises (runBody setup (call setup depth) decl) :=
      inferInstance
    have framed (frame : Frame) : Still (fun _ => True) Raises
        (inFrame frame (runBody setup (call setup depth) decl)) := by
      refine ⟨maintains_inFrame ?_ ?_ body.maintains⟩
      all_goals exact fun _ _ => trivial
    rw [call]
    infer_instance

end Exec

open Exec in
/-- An execution that blames its request was refused before it began. -/
theorem acceptCall_of_execute {setup : Setup} {store : Store} {function : FunctionId}
    {typeArgs : List Ty} {args : List Value} {fault : ArgumentFault}
    (stopped : setup.execute store function typeArgs args = .error
      (.failure (.invalidArgument fault))) :
    ∃ signature, setup.program.types.function? function = some signature ∧
      setup.program.types.acceptCall signature typeArgs args = .error fault := by
  rcases launch_of_execute stopped with refused | ⟨m, launched⟩ | ⟨key, other⟩
  · exact (refusal_of_launch refused).blamed fault rfl
  · obtain ⟨admitted, ran⟩ := run_of_launch launched
    have raises : Still (fun _ => True) Raises admitted.body := inferInstance
    exact absurd rfl (((raises.maintains _ trivial).of_error ran.symm).2 fault)
  · cases other

/-- A spelled value conforms to its type. Where words spell the arguments of a call, there is one
value to each parameter and the machine takes it, so that no execution is refused for an argument or
for their number. -/
theorem spelled_arguments_are_accepted :
    (∀ u ty source value, Value.parse u ty source = .ok value → value.conformsTo u ty = true) ∧
      ∀ (setup : Setup) function typeArgs words sender values,
        setup.program.types.spelledArguments function typeArgs words sender = .ok values →
          (∃ signature, setup.program.types.function? function = some signature ∧
            List.Forall₂ (setup.program.types.Admits typeArgs) signature.params values) ∧
          ∀ store fault, setup.execute store function typeArgs values =
            .error (.failure (.invalidArgument fault)) → fault.concernsArguments = false := by
  refine ⟨fun u ty source value read => (Value.conformsTo_parse read).1, ?_⟩
  intro setup function typeArgs words sender values spelled
  unfold Universe.spelledArguments at spelled
  split at spelled
  · cases spelled
  · rename_i signature registered
    have admitted := admits_fillParams spelled
    refine ⟨⟨signature, registered, admitted⟩, fun store fault stopped => ?_⟩
    obtain ⟨other, same, refused⟩ := acceptCall_of_execute stopped
    obtain rfl := Option.mem_unique registered same
    exact concerns_acceptCall admitted refused

/-- A box with a number is spelled and taken for an item; the request is refused all the same, since
boxes cannot be stored inside of others. -/
theorem spelled_box_is_accepted :
    let box := Ty.struct ⟨"Safe", "Box"⟩ [.u64]
    let item := Value.struct ⟨⟨"Safe", "Box"⟩, [.u64]⟩ [.u64 7]
    let spelling := "\x7b\"item\": \"7\"\x7d"
    let setup : Setup := ⟨programOf fetching, 16, 16⟩
    check fetching = .ok setup.program ∧
      Value.parse setup.program.types box spelling = .ok item ∧
      item.conformsTo setup.program.types box = true ∧
      setup.program.types.spelledArguments ⟨"Safe", "put"⟩ [box] [spelling] (.ofNat 1) =
        .ok [.signer (.ofNat 1), item] ∧
      List.Forall₂ (setup.program.types.Admits [box])
      [("owner", .ref false .signer), ("item", .param 0 "T")]
        [.signer (.ofNat 1), item] ∧
      ∃ fault, setup.execute ∅ ⟨"Safe", "put"⟩ [box] [.signer (.ofNat 1), item] =
        .error (.failure (.invalidArgument fault)) ∧ fault.concernsArguments = false := by
  intro box item spelling setup
  obtain ⟨_, read, rfl⟩ : ∃ value, Value.parse setup.program.types box spelling = .ok value ∧
      id value = item := eq_ok_of_toOption (by decide +kernel)
  obtain ⟨_, spelled, rfl⟩ : ∃ values, setup.program.types.spelledArguments ⟨"Safe", "put"⟩ [box]
      [spelling] (.ofNat 1) = .ok values ∧ id values = [.signer (.ofNat 1), item] :=
    eq_ok_of_toOption (by decide +kernel)
  have refused : setup.execute ∅ ⟨"Safe", "put"⟩ [box] [.signer (.ofNat 1), item] =
      .error (.failure (.invalidArgument (.missingAbilities box "T" { store := true }))) :=
    eq_error_of_stop? (by decide +kernel)
  obtain ⟨⟨signature, registered, admitted⟩, fair⟩ :=
    spelled_arguments_are_accepted.2 setup ⟨"Safe", "put"⟩ [box] [spelling] (.ofNat 1) _ spelled
  refine ⟨check_of_clean (by decide +kernel), read, spelled_arguments_are_accepted.1 _ _ _ _ read,
    spelled, ?_, _, refused, fair ∅ _ refused⟩
  obtain rfl := Option.some.inj ((by rfl : some _ = _).trans registered)
  exact admitted

end Custody
