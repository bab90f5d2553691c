import Custody.Proofs.Execution.Orderly
import Custody.Proofs.Execution.Growing
import Custody.Proofs.Types.Instantiation
/-!
# Packing and unpacking

Values are given for the fields of a struct in one order, kept in the order of declaration, and
bound in a third order when the struct is taken apart. Names that the checker lets pass are the
fields in some order, so each value finds its place, and each binding the value that was given for
its field. A struct is resolved only when all its values are there; it denotes what it denoted
before, since evaluation leaves the active calls as they are.
-/

namespace Custody

open Exec
open Universe (lodgings inn lodger)

variable {setup : Setup} {depth : Nat} {m m' : Machine} {struct : StructDef} {tag : StructTag}
  {given : List (String × Value)} {binders : List (String × Binder)} {written : StructExpr}
  {inits : List (String × Expr)} {name : String}

/-! ## Active calls -/

instance aloof_calls (calls : List Frame) :
    Aloof (fun m => m.outline.calls = calls) (fun _ => True) where
  setLocal m frame index value here := by
    rw [Machine.outline_setLocal]
    exact here
  tx _ _ here := here
  host _ _ here := here
  packed _ _ here := here
  unpacked _ _ here := here
  fair _ _ := trivial

instance bystander_calls (calls : List Frame) : Bystander fun m => m.outline.calls = calls :=
  ⟨fun _ _ here => here, fun _ _ here => here⟩

theorem calls_leave {top caller : Frame} {rest : List Frame}
    (here : m.outline.calls = top :: caller :: rest) : m.leave.outline.calls = caller :: rest := by
  obtain ⟨_, waiting⟩ := List.cons.inj here
  obtain ⟨frame, callers, same, _, _⟩ := List.map_eq_cons_iff.mp waiting
  rw [Machine.leave_eq same]
  rwa [same] at waiting

/-- A call ends in the calls in which it began, by induction on how many more may be active. -/
instance leaving_call (setup : Setup) (depth : Nat) (top : Frame) (rest : List Frame) :
    LeavingCalls (fun m => m.outline.calls = top :: rest) (call setup depth) := by
  induction depth generalizing top rest with
  | zero => exact ⟨fun _ _ _ _ => leaves_fail _⟩
  | succ depth ih =>
    refine ⟨fun id decl types args => ?_⟩
    have entered (frame : Frame) : Leaves (fun m => m.outline.calls = top :: rest)
        (countEntered frame) :=
      still_modify fun _ here => here
    have noted (visit : Visit) : Leaves (fun m => m.outline.calls = top :: rest)
        (modify (noting visit)) :=
      still_modify fun _ here => here
    have framed (frame : Frame) : Leaves (fun m => m.outline.calls = top :: rest)
        (inFrame frame (runBody setup (call setup depth) decl)) :=
      ⟨maintains_inFrame (fun _ here => congrArg (frame.header :: ·) here) (fun _ => calls_leave)
        (leaves_runBody decl).maintains⟩
    rw [call]
    infer_instance

/-- A written struct denotes after its initialisers what it denoted before. -/
theorem resolveStruct_of_evalFields
    (ran : evalFields setup (call setup depth) inits m = .ok given m')
    (resolved : setup.program.types.resolveStruct
      m.current.function.module m.current.typeParams written = .ok tag) :
    resolveStruct setup written m' = .ok (tag.subst m.current.typeArgs) m' := by
  have start : m.outline.calls = m.current.header :: m.callers.map Frame.header := rfl
  have kept : Leaves (fun m' => m'.outline.calls = m.current.header :: m.callers.map Frame.header)
    (evalFields setup (call setup depth) inits) := inferInstance
  have header := (List.cons.inj (kept.maintains.of_ok start ran).1).1
  have function : m'.current.header.function = m.current.header.function := by rw [header]
  have typeParams : m'.current.header.typeParams = m.current.header.typeParams := by rw [header]
  have typeArgs : m'.current.header.typeArgs = m.current.header.typeArgs := by rw [header]
  simp only [Frame.header] at function typeParams typeArgs
  rw [← typeArgs]
  rw [← function, ← typeParams] at resolved
  exact resolveStruct_eq resolved

/-! ## Steps of the machine -/

theorem structDef_eq (found : setup.program.types.struct? tag.id = some struct) :
    structDef setup tag m = .ok struct m := by
  rw [structDef, found]
  rfl

theorem bindAll_eq (values : List (String × Value)) (m : Machine) :
    bindAll values m = .ok ⟨⟩ { m with current := { m.current with
      bindings := m.current.bindings ++ values.map fun entry => ⟨entry.1, some entry.2⟩ } } := by
  induction values generalizing m with
  | nil => simp [bindAll, pure, EStateM.pure]
  | cons entry values ih =>
    have rest := ih { m with current := { m.current with
      bindings := m.current.bindings ++ [⟨entry.1, some entry.2⟩] } }
    rw [List.append_assoc] at rest
    exact rest

theorem names_evalFields (inits : List (String × Expr)) :
    Maintains (fun _ => True) (evalFields setup (call setup depth) inits) fun given =>
      given.map (·.1) = inits.map (·.1) := by
  induction inits with
  | nil =>
    rw [evalFields]
    exact maintains_pure rfl
  | cons init inits ih =>
    obtain ⟨field, init⟩ := init
    rw [evalFields]
    refine Maintains.bind (fun m _ => .intro (fun _ _ _ => ⟨trivial, trivial⟩) fun _ _ _ =>
      ⟨trivial, trivial⟩) fun value _ => ?_
    exact ih.bind fun values same => maintains_pure (congrArg (field :: ·) same)

/-! ## Fields -/

namespace StructDef

/-- The checker lets the names pass as those of the fields. -/
def Accepts (struct : StructDef) (names : List String) : Prop :=
  ∃ ctx use written tag s, (Check.coversFields ctx use written tag struct.names names s).1 = true

theorem coversFields_iff (distinct : struct.names.Nodup) (ctx : BodyContext) (use : StructUse)
    (written : String) (tag : StructTag) (names : List String) (s : BodyState) :
    (Check.coversFields ctx use written tag struct.names names s).1 = true ↔
    names.Perm struct.names := by
  rw [← Check.coverageFaults_eq_nil_iff distinct, ← List.isEmpty_iff]
  rfl

theorem Accepts.perm {names : List String} (accepts : struct.Accepts names)
    (distinct : struct.names.Nodup) : names.Perm struct.names := by
  obtain ⟨ctx, use, written, tag, s, covered⟩ := accepts
  exact (coversFields_iff distinct ctx use written tag names s).mp covered

section Covered

variable (covers : (given.map (·.1)).Perm struct.names)

include covers

theorem map_arranged : (struct.arranged given).map some = struct.names.map (given.lookup ·) := by
  rw [arranged, List.map_map]
  refine List.map_congr_left fun name declared => ?_
  obtain ⟨value, found⟩ := exists_lookup (covers.mem_iff.mpr declared)
  simp [found]

theorem valueOf_arranged (declared : name ∈ struct.names) :
    some (struct.valueOf (struct.arranged given) name) = given.lookup name := by
  obtain ⟨index, placed, here⟩ := fieldIndex?_of_mem declared
  obtain ⟨value, found⟩ := exists_lookup (covers.mem_iff.mpr declared)
  simp [valueOf, placed, arranged, here, found]

end Covered

end StructDef

/-- The bindings that binders make of values given by name. -/
def boundTo (given : List (String × Value)) (binders : List (String × Binder)) : List Binding :=
  binders.filterMap fun entry =>
    match entry.2 with
    | .bind name => some ⟨name, given.lookup entry.1⟩
    | .ignore => none

theorem map_bound_arranged (covers : (given.map (·.1)).Perm struct.names)
    (known : ∀ entry ∈ binders, entry.1 ∈ struct.names) :
    (struct.bound (struct.arranged given) binders).map (fun entry => ⟨entry.1, some entry.2⟩) =
      boundTo given binders := by
  rw [StructDef.bound, boundTo, List.map_filterMap]
  refine List.filterMap_congr fun entry listed => ?_
  cases binder : entry.2 with
  | ignore => rfl
  | bind name => simp [← StructDef.valueOf_arranged covers (known entry listed)]

/-- Names pass the checker if they are the fields in some order. Values given for accepted names are
packed in the order of declaration, and packing adds no failure to those of the initialisers.
Wherever the struct is taken apart with accepted names, each binding gets the value that was given
for its field. -/
theorem packed_fields_are_unpacked (struct : StructDef) (distinct : struct.names.Nodup) :
    (∀ ctx use written tag names s,
      (Check.coversFields ctx use written tag struct.names names s).1 = true ↔
      names.Perm struct.names) ∧
    ∀ (setup : Setup) (depth : Nat) (m : Machine) (written : StructExpr) (tag : StructTag)
      (inits : List (String × Expr)),
      setup.program.types.resolveStruct m.current.function.module m.current.typeParams written =
        .ok tag →
      setup.program.types.struct? tag.id = some struct → struct.Accepts (inits.map (·.1)) →
      (∀ stop m', eval setup (call setup depth) (.pack written inits) m = .error stop m' →
        evalFields setup (call setup depth) inits m = .error stop m') ∧
      ∀ given m', evalFields setup (call setup depth) inits m = .ok given m' →
        given.map (·.1) = inits.map (·.1) ∧
        ∃ fields, fields.map some = struct.names.map (given.lookup ·) ∧
          eval setup (call setup depth) (.pack written inits) m =
            .ok (.struct (tag.subst m.current.typeArgs) fields)
              { m' with tally := { m'.tally with packed := tag.id :: m'.tally.packed } } ∧
          ∀ (depth' : Nat) (n n' : Machine) (written' : StructExpr)
            (binders : List (String × Binder)) (value : Expr),
            struct.Accepts (binders.map (·.1)) →
            eval setup (call setup depth') value n =
              .ok (.struct (tag.subst m.current.typeArgs) fields) n' →
            run setup (call setup depth') (.unpack written' binders value) n =
              .ok .next { n' with
                current := { n'.current with bindings :=
                  n'.current.bindings ++ boundTo given binders }
                tally := { n'.tally with unpacked := tag.id :: n'.tally.unpacked } } := by
  refine ⟨StructDef.coversFields_iff distinct,
    fun setup depth m written tag inits resolved found accepts => ?_⟩
  have instantiated : ∀ types, setup.program.types.struct? (tag.subst types).id = some struct :=
    fun _ => found
  -- behind the initialisers, packing goes through
  have packed : ∀ given m', evalFields setup (call setup depth) inits m = .ok given m' →
      (given.map (·.1)).Perm struct.names ∧ eval setup (call setup depth) (.pack written inits) m =
        .ok (.struct (tag.subst m.current.typeArgs) (struct.arranged given))
          { m' with tally := { m'.tally with packed := tag.id :: m'.tally.packed } } := by
    intro given m' ran
    have covers : (given.map (·.1)).Perm struct.names := by
      rw [((names_evalFields inits).of_ok trivial ran).2]
      exact accepts.perm distinct
    refine ⟨covers, ?_⟩
    rw [eval, bind_of_ok ran, pack, bind_of_ok (resolveStruct_of_evalFields ran resolved),
      bind_of_ok (structDef_eq (instantiated _)), StructDef.pack_eq_ok distinct _ covers]
    rfl
  refine ⟨fun stop m' stopped => ?_, fun given m' ran => ?_⟩
  · cases ran : evalFields setup (call setup depth) inits m with
    | ok given between =>
      rw [(packed given between ran).2] at stopped
      cases stopped
    | error stop' between =>
      rw [eval, bind_of_error ran] at stopped
      cases stopped
      rfl
  · obtain ⟨covers, done⟩ := packed given m' ran
    refine ⟨((names_evalFields inits).of_ok trivial ran).2,
      struct.arranged given, StructDef.map_arranged covers, done, ?_⟩
    intro depth' n n' written' binders value accepts' evaluated
    have covers' := accepts'.perm distinct
    have known : ∀ entry ∈ binders, entry.1 ∈ struct.names := fun entry listed =>
      covers'.mem_iff.mp (List.mem_map_of_mem listed)
    have length : (struct.arranged given).length = struct.names.length := List.length_map _
    rw [run, bind_of_ok evaluated, unpack, bind_assoc, bind_of_ok (structDef_eq (instantiated _)),
      StructDef.unpack_eq_ok distinct length covers', ← map_bound_arranged covers known]
    exact bind_of_ok (bindAll_eq _ _)

/-- A room, made of its guest and its boxes in this order and taken apart in the other, keeps its
guest. -/
theorem lodger_keeps_the_guest :
    ∃ n, run inn (call inn 0)
    (.unpack { name := "Room" } [("boxes", .ignore), ("guest", .bind "who")]
        (.pack { name := "Room", args := [.param "S", .param "T"] }
          [("guest", .u64 7), ("boxes", .vector .bool [])])) lodger = .ok .next n ∧
      n.current.bindings = [⟨"who", some (.u64 7)⟩] := by
  have declared : ((Universe.build lodgings).1.struct? ⟨"Inn", "Room"⟩).map (·.names) =
      some ["boxes", "guest"] := by
    decide +kernel
  obtain ⟨struct, found, names⟩ := Option.map_eq_some_iff.mp declared
  have distinct : struct.names.Nodup := by
    rw [names]
    decide
  obtain ⟨covers, packs⟩ := packed_fields_are_unpacked struct distinct
  have accepts : ∀ given, given.Perm ["boxes", "guest"] → struct.Accepts given := fun given perm =>
    ⟨⟨{}, { id := ⟨"Inn", "enter"⟩ }⟩,
      .pack, "Room", ⟨⟨"Inn", "Room"⟩, []⟩, {}, (covers ..).mpr (names ▸ perm)⟩
  obtain ⟨_, unpacks⟩ := packs inn 0 lodger
    { name := "Room", args := [.param "S", .param "T"] }
    ⟨⟨"Inn", "Room"⟩, [.param 0 "S", .param 1 "T"]⟩ [("guest", .u64 7), ("boxes", .vector .bool [])]
    rfl found (accepts _ (by decide))
  obtain ⟨_, fields, _, packed, unpacked⟩ := unpacks [("guest", .u64 7), ("boxes", .vector [])]
    lodger rfl
  exact ⟨_, unpacked 0 lodger _ _ _ _ (accepts _ (by decide)) packed, rfl⟩

end Custody
