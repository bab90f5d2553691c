import Custody.Document.Values
import Custody.Proofs.Documents.Declarations
import Custody.Proofs.Execution.Encapsulation
import Custody.Proofs.Storage.Restoring
/-!
# Written storage is read back

Storage is written with no limit on how deep it nests, and read with one. Types of values can nest
without bound, so there is storage that a program leaves and that no later run can start from. All
other storage that a steady program leaves survives: its slots are for plain types, so what they
hold has a document, the document is read back, and seeding the slots in order fills them alike.
-/

namespace Custody

open Decoder

variable {u : Universe} {json : Json} {value : Value} {store : Store}

/-! ## Types without parameters -/

theorem QualifiedName.decoder_reads (room : Nat) (id : QualifiedName) :
    Reads QualifiedName.decoder room id.toJson id := by
  refine record_reads rfl fun inner _ => ?_
  refine bind_get rfl (text_reads inner id.module) ?_
  exact bind_get rfl (text_reads inner id.name) rfl

theorem StructTag.decoderWith_reads {ty : Decoder Ty} {room : Nat} (tag : StructTag)
    (reads : ∀ inner < room, ReadsAll ty inner (Ty.allToJson tag.args) tag.args) :
    Reads (decoderWith ty) room tag.toJson tag := by
  obtain ⟨id, args⟩ := tag
  unfold StructTag.decoderWith StructTag.toJson tagFields
  cases args with
  | nil =>
    refine record_reads rfl fun inner below => ?_
    refine bind_get rfl (QualifiedName.decoder_reads inner id) ?_
    exact bind_getD_absent rfl rfl
  | cons arg args =>
    refine record_reads rfl fun inner below => ?_
    refine bind_get rfl (QualifiedName.decoder_reads inner id) ?_
    refine bind_getD rfl (listOf_reads fun inside less => ?_) rfl
    exact reads inside (Nat.lt_trans less below)

section Types

mutual

theorem Ty.decoderBelow_reads {height room : Nat} (below : room < height) (ty : Ty)
    (plain : u.isPlain 0 ty = true) : Reads (decoderBelow height) room ty.toJson ty := by
  cases height with
  | zero => omega
  | succ height =>
    cases ty with
    | unit | bool | u8 | u64 | u128 | address | signer => exact choice_plain rfl room
    | vector elem =>
      refine choice_tagged rfl fun inner less => ?_
      exact map_reads _ (decoderBelow_reads (by omega) elem plain)
    | struct id args =>
      have argsPlain := (Universe.isPlain_struct_iff.mp plain).2
      refine choice_tagged rfl fun inner less => ?_
      refine map_reads StructTag.ty (StructTag.decoderWith_reads ⟨id, args⟩ ?_)
      exact fun inside lesser => decoderBelow_readsAll (by omega) args argsPlain
    | param index name => simp [Universe.isPlain] at plain
    | ref mutable inner => cases plain

theorem Ty.decoderBelow_readsAll {height room : Nat} (below : room < height) (types : List Ty)
    (plain : u.arePlain 0 types = true) :
    ReadsAll (decoderBelow height) room (allToJson types) types := by
  cases types with
  | nil => exact readsAll_nil _ _
  | cons ty types =>
    obtain ⟨here, rest⟩ := Bool.and_eq_true_iff.mp plain
    exact readsAll_cons (decoderBelow_reads below ty here) (decoderBelow_readsAll below types rest)

end

theorem StructTag.decoder_reads {room : Nat} (within : room ≤ nestingLimit) (tag : StructTag)
    (plain : u.isPlain 0 tag.ty = true) : Reads StructTag.decoder room tag.toJson tag := by
  have argsPlain := (Universe.isPlain_struct_iff.mp plain).2
  refine decoderWith_reads tag fun inner less => ?_
  exact Ty.decoderBelow_readsAll (by omega) tag.args argsPlain

mutual

theorem Ty.plain_toJson (ty : Ty) : ty.toJson.Plain := by
  cases ty with
  | unit | bool | u8 | u64 | u128 | address | signer => exact Json.plain_text _
  | vector elem => simp [toJson, plain_toJson elem]
  | struct id args =>
    have argsPlain := plain_allToJson args
    by_cases empty : (allToJson args).isEmpty = true <;>
      simp_all [toJson, tagFields, QualifiedName.toJson]
  | param index name => simp [toJson]
  | ref mutable inner => simp [toJson, Json.Plain, plain_toJson inner]

theorem Ty.plain_allToJson (types : List Ty) : ∀ json ∈ allToJson types, json.Plain := by
  cases types with
  | nil => simp [allToJson]
  | cons ty types => simpa [allToJson, plain_toJson ty] using plain_allToJson types

end

theorem StructTag.plain_toJson (tag : StructTag) : tag.toJson.Plain :=
  Json.plain_tagged.mp (Ty.plain_toJson tag.ty)

end Types

/-! ## Values without references -/

namespace Value

/-- The document of a value, from which the value is read back. -/
structure Documented (value : Value) (json : Json) : Prop where
  written : value.toJson? = some json
  plain : json.Plain
  reads : ∀ {height room : Nat}, room < height → room ≤ nestingLimit →
    Reads (decoderBelow height) room json value

/-- The documents of some values. -/
structure AllDocumented (values : List Value) (items : List Json) : Prop where
  written : allToJson? values = some items
  plain : ∀ item ∈ items, item.Plain
  reads : ∀ {height room : Nat}, room < height → room ≤ nestingLimit →
    ReadsAll (decoderBelow height) room items values

theorem exists_allDocumented {values : List Value} (each : ∀ value ∈ values, ∃ json,
    value.Documented json) : ∃ items, AllDocumented values items := by
  induction values with
  | nil => exact ⟨[], rfl, by simp, fun _ _ => readsAll_nil _ _⟩
  | cons value values ih =>
    obtain ⟨⟨json, here⟩, rest⟩ := List.forall_mem_cons.mp each
    obtain ⟨items, others⟩ := ih rest
    refine ⟨json :: items, ?_, List.forall_mem_cons.mpr ⟨here.plain, others.plain⟩, ?_⟩
    · simp [allToJson?, here.written, others.written]
    · exact fun below within => readsAll_cons (here.reads below within) (others.reads below within)

theorem exists_documented_atom (value : Value) (atom : value.isAtom = true) :
    ∃ json, value.Documented json := by
  cases value with
  | unit =>
    refine ⟨_, rfl, Json.plain_text _, fun {height room} below _ => ?_⟩
    cases height with
    | zero => omega
    | succ height => exact choice_plain rfl room
  | bool flag =>
    refine ⟨_, rfl, by simp [Json.Plain], fun {height room} below _ => ?_⟩
    cases height with
    | zero => omega
    | succ height => exact choice_tagged rfl fun inner _ => map_reads _ (flag_reads inner flag)
  | u8 word | u64 word | u128 word =>
    refine ⟨_, rfl, by simp, fun {height room} below _ => ?_⟩
    cases height with
    | zero => omega
    | succ height => exact choice_tagged rfl fun inner _ => map_reads _ (word_reads inner word)
  | address address | signer address =>
    refine ⟨_, rfl, by simp [Address.toJson], fun {height room} below _ => ?_⟩
    cases height with
    | zero => omega
    | succ height =>
      exact choice_tagged rfl fun inner _ => map_reads _ (Address.decoder_reads inner address)
  | vector items | struct tag fields | ref reference => cases atom

theorem exists_documented_vector (items : List Value)
    (each : ∀ item ∈ items, ∃ json, item.Documented json) :
    ∃ json, (Value.vector items).Documented json := by
  obtain ⟨documents, all⟩ := exists_allDocumented each
  refine ⟨.tagged "vector" (.array documents), by simp [toJson?, all.written],
    by simpa using all.plain, fun {height room} below within => ?_⟩
  cases height with
  | zero => omega
  | succ height =>
    refine choice_tagged rfl fun inner less => map_reads _ (listOf_reads fun inside lesser => ?_)
    exact all.reads (by omega) (by omega)

theorem exists_documented_struct (tag : StructTag) (fields : List Value)
    (plain : u.isPlain 0 tag.ty = true) (each : ∀ field ∈ fields, ∃ json, field.Documented json) :
    ∃ json, (Value.struct tag fields).Documented json := by
  obtain ⟨documents, all⟩ := exists_allDocumented each
  refine ⟨.tagged "struct" (.record [("tag", tag.toJson), ("fields", .array documents)]),
    by simp [toJson?, all.written], ?_, fun {height room} below within => ?_⟩
  · simpa [tag.plain_toJson] using all.plain
  · cases height with
    | zero => omega
    | succ height =>
      refine choice_tagged rfl fun _ less => record_reads rfl fun inside lesser => ?_
      refine bind_get rfl (StructTag.decoder_reads (by omega) tag plain) ?_
      refine bind_get rfl (listOf_reads fun innermost least => ?_) rfl
      exact all.reads (by omega) (by omega)

/-- A value of a plain type has a document, from which it is read back. -/
theorem exists_documented (accepted : u.Accepted) {ty : Ty} (plain : u.isPlain 0 ty = true)
    (conforms : value.conformsTo u ty = true) : ∃ json, value.Documented json :=
  induction_of_plain (p := fun _ value => ∃ json, value.Documented json) accepted
    (fun _ => exists_documented_atom) (fun _ => exists_documented_vector)
    (fun tag _ fields plain _ _ each =>
      exists_documented_struct tag fields plain fun field member =>
        (each field member).elim fun _ found => found.2)
    value ty plain conforms

theorem Documented.toJson_eq (documented : value.Documented json) : value.toJson = json := by
  rw [toJson, documented.written]
  rfl

end Value

/-! ## Resources -/

theorem Resource.decoder_reads {room : Nat} (within : room ≤ nestingLimit) (resource : Resource)
    (documented : resource.value.Documented json) :
    Reads Resource.decoder room resource.toJson resource := by
  rw [Resource.toJson, documented.toJson_eq]
  refine record_reads rfl fun inner less => ?_
  refine bind_get rfl (Address.decoder_reads inner resource.address) ?_
  exact bind_get rfl (documented.reads (by omega) (by omega)) rfl

theorem Resource.plain_toJson (resource : Resource) (documented : resource.value.Documented json) :
    resource.toJson.Plain := by
  simp [Resource.toJson, documented.toJson_eq, documented.plain, Address.toJson]

/-! ## Storage -/

namespace Store

/-- What is written of the storage is read back, and fills storage of which the same is written. -/
def Survives (store : Store) : Prop :=
  ∃ resources again, readSnapshot? store.toJson.pretty = some resources ∧
    ofSnapshot resources = .ok again ∧ again.snapshot = store.snapshot

/-- Every slot is for a plain type, and holds a value of it. -/
structure Wholesome (u : Universe) (store : Store) : Prop where
  conforms : store.Conforms u
  plain : ∀ key value, store.get? key = some value → u.isPlain 0 key.tag.ty = true

section Wholesome

variable (accepted : u.Accepted) (wholesome : store.Wholesome u)

include wholesome

theorem Wholesome.entry {entry : SlotKey × Cell} (member : entry ∈ store.slots.entries) :
    u.isPlain 0 entry.1.tag.ty = true ∧ entry.2.value.conformsTo u entry.1.tag.ty = true := by
  have found : store.get? entry.1 = some entry.2.value := by
    rw [get?, Table.get?_of_mem member]
    rfl
  exact ⟨wholesome.plain _ _ found, wholesome.conforms _ _ found⟩

theorem Wholesome.filed : store.Filed := by
  intro key value held
  obtain ⟨fields, same⟩ := eq_struct_of_conforms (wholesome.conforms key value held)
  rw [same]
  rfl

include accepted

theorem Wholesome.documented {resource : Resource} (listed : resource ∈ store.snapshot) :
    ∃ json, resource.value.Documented json := by
  obtain ⟨entry, member, rfl⟩ := List.mem_map.mp listed
  obtain ⟨plain, conforms⟩ := wholesome.entry member
  exact Value.exists_documented accepted plain conforms

theorem Wholesome.readSnapshot?_pretty :
    readSnapshot? store.toJson.pretty =
      if store.toJson.depth ≤ nestingLimit then some store.snapshot else none := by
  have plain : store.toJson.Plain := by
    rw [toJson, Json.plain_array, List.forall_mem_map]
    intro resource listed
    obtain ⟨json, documented⟩ := wholesome.documented accepted listed
    exact resource.plain_toJson documented
  have reads : ∀ (room : Nat), room ≤ nestingLimit → ∀ resources : List Resource,
      (∀ resource ∈ resources, ∃ json, resource.value.Documented json) →
      ReadsAll Resource.decoder room (resources.map Resource.toJson) resources := by
    intro room within resources each
    induction resources with
    | nil => exact readsAll_nil _ _
    | cons resource resources ih =>
      obtain ⟨⟨json, documented⟩, rest⟩ := List.forall_mem_cons.mp each
      exact readsAll_cons (resource.decoder_reads within documented) (ih rest)
  rw [readSnapshot?, Decoder.readText, Json.parse?_pretty plain]
  exact listOf_reads fun inner less =>
    reads inner (Nat.le_of_lt less) store.snapshot fun _ => wholesome.documented accepted

theorem Wholesome.survives_iff : store.Survives ↔ store.toJson.depth ≤ nestingLimit := by
  have read := wholesome.readSnapshot?_pretty accepted
  constructor
  · rintro ⟨resources, again, found, _⟩
    by_cases shallow : store.toJson.depth ≤ nestingLimit
    · exact shallow
    · rw [read, if_neg shallow] at found
      cases found
  · intro shallow
    rw [if_pos shallow] at read
    obtain ⟨again, seeded, same⟩ := wholesome.filed.ofSnapshot_snapshot
    exact ⟨store.snapshot, again, read, seeded, same⟩

end Wholesome

end Store

/-! ## Storage that programs leave -/

/-- An execution fills slots of plain types only: those are the slots it reaches. -/
theorem Reached.wholesome {program : Program} (reached : Reached program store)
    (accepted : program.Accepted) (steady : program.isSteady = true) :
    store.Wholesome program.types := by
  induction reached with
  | empty => exact ⟨conforms_empty _, fun _ _ found => by cases found⟩
  | @executed store maxCallDepth loopBound function typeArgs args receipt before done ih =>
    refine ⟨(Reached.executed before done).conforms accepted steady, fun key value found => ?_⟩
    obtain ⟨_, orderly⟩ :=
      tally_orderly ⟨program, maxCallDepth, loopBound⟩ store function typeArgs args accepted
    let view : Outlook :=
      ⟨fun key => program.types.isPlain 0 key.tag.ty = true, store, store, fun _ _ => rfl⟩
    have confined := execute_confined view accepted (fun key value plain found =>
        Value.rooted_of_slots
          (Value.slots_eq_nil accepted.types value _ plain (ih.conforms key value found)))
      fun reach happened => (orderly.reached reach happened).plain
    rcases confined with ⟨stop, stopped, _⟩ | ⟨receipt', _, done', _, same⟩
    · cases stopped.symm.trans done
    · obtain rfl : receipt' = receipt := Except.ok.inj (done'.symm.trans done)
      by_cases plain : program.types.isPlain 0 key.tag.ty = true
      · exact plain
      · have unchanged := (same.untouched key plain).1
        refine ih.plain key value ?_
        rw [Store.get?, ← unchanged]
        exact found

/-- Storage that executions of an accepted and steady program lead to holds nothing without a
document, and what is written of it is read back and fills storage alike exactly if the document
nests no deeper than the limit. -/
theorem reached_storage_survives_iff {modules : List Module} {program : Program} {store : Store}
    (accepted : check modules = .ok program) (steady : program.isSteady = true)
    (reached : Reached program store) :
    (∀ resource ∈ store.snapshot, resource.value.toJson?.isSome = true) ∧
      (store.Survives ↔ store.toJson.depth ≤ nestingLimit) := by
  have sound := accepted_of_check accepted
  have wholesome := reached.wholesome sound steady
  refine ⟨fun resource listed => ?_, wholesome.survives_iff sound.types⟩
  obtain ⟨json, documented⟩ := wholesome.documented sound.types listed
  exact Option.isSome_of_eq_some documented.written

/-- Boxes that are labelled with a type and empty. -/
def labelling : List Module := [
  { name := "Label"
    structs := [
      { name := "Box"
        typeParams := [{ name := "T", phantom := true }]
        abilities := { key := true } }]
    functions := [
      { name := "keep"
        typeParams := [{ name := "T" }]
        params := [⟨"owner", .ref false .signer⟩]
        body := [
          .eval (.moveTo { name := "Box", args := [.param "T"] } (.var "owner")
            (.pack { name := "Box", args := [.param "T"] } []))] }] }]

/-- Vectors of vectors of numbers, to some depth. -/
def Ty.nested : Nat → Ty
  | 0 => .u64
  | depth + 1 => .vector (nested depth)

/-- Keep a box that is labelled with nested vectors. -/
def keepLabelled (depth : Nat) : Except Stop Receipt :=
  Setup.execute ⟨programOf labelling, 16, 16⟩ ∅ ⟨"Label", "keep"⟩ [.nested depth]
    [.signer (.ofNat 1)]

/-- The deepest label with which storage survives. -/
theorem labelled_storage_survives :
    check labelling = .ok (programOf labelling) ∧ (programOf labelling).isSteady = true ∧
      ∃ receipt, keepLabelled 121 = .ok receipt ∧ receipt.store.size = 1 ∧
      receipt.store.Survives := by
  have accepted : check labelling = .ok (programOf labelling) := check_of_clean (by decide +kernel)
  have steady : (programOf labelling).isSteady = true := by decide +kernel
  have kept : (keepLabelled 121).toOption.map (fun receipt =>
      (receipt.store.size, receipt.store.toJson.depth)) = some (1, 127) := by
    decide +kernel
  obtain ⟨receipt, done, measured⟩ := eq_ok_of_toOption kept
  obtain ⟨size, depth⟩ := Prod.mk.inj measured
  have survives := (reached_storage_survives_iff accepted steady (.executed .empty done)).2
  exact ⟨accepted, steady, receipt, done, size, survives.mpr (Nat.le_of_eq depth)⟩

/-- One level deeper, the program leaves storage that is written and refused. -/
theorem labelled_storage_is_lost :
    check labelling = .ok (programOf labelling) ∧
      ∃ receipt, keepLabelled 122 = .ok receipt ∧ Reached (programOf labelling) receipt.store ∧
        ¬ receipt.store.Survives := by
  have accepted : check labelling = .ok (programOf labelling) := check_of_clean (by decide +kernel)
  have steady : (programOf labelling).isSteady = true := by decide +kernel
  have kept : (keepLabelled 122).toOption.map (fun receipt => receipt.store.toJson.depth) =
      some 128 := by
    decide +kernel
  obtain ⟨receipt, done, depth⟩ := eq_ok_of_toOption kept
  have reached : Reached (programOf labelling) receipt.store := .executed .empty done
  refine ⟨accepted, receipt, done, reached, fun survives => ?_⟩
  have sound := accepted_of_check accepted
  have shallow := ((reached.wholesome sound steady).survives_iff sound.types).mp survives
  rw [depth] at shallow
  exact absurd shallow (by decide)

end Custody
