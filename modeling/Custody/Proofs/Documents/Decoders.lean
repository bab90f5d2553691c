import Custody.Document.Decoder
/-!
# Decoders that read back what is written

A decoder is told how many brackets may still be opened, and refuses what nests deeper. The
documents of this library hold nothing that a decoder passes over, so a written document is read
back if it nests no deeper than that, and refused otherwise. This is said of each way to put
decoders together.
-/

namespace Custody

variable {room : Nat} {names : List String} {name : String} {json : Json}

namespace Json

mutual

/-- How many brackets are open at once where the value nests deepest. -/
def depth : Json → Nat
  | .null | .bool _ | .number _ | .string _ => 0
  | .array items => depthAll items + 1
  | .object fields => depthFields fields + 1

/-- The deepest of the items. -/
def depthAll : List Json → Nat
  | [] => 0
  | item :: items => max item.depth (depthAll items)

/-- The deepest of the fields. -/
def depthFields : List (Option String × Json) → Nat
  | [] => 0
  | (_, value) :: fields => max value.depth (depthFields fields)

end

/-- The deepest of the values of a record. -/
def depthValues : List (String × Json) → Nat
  | [] => 0
  | (_, value) :: fields => max value.depth (depthValues fields)

@[simp] theorem depth_record (fields : List (String × Json)) :
    (record fields).depth = depthValues fields + 1 := by
  have each : ∀ fields : List (String × Json),
      depthFields (fields.map fun field => (some field.1, field.2)) = depthValues fields := by
    intro fields
    induction fields with
    | nil => rfl
    | cons field fields ih =>
      simp only [List.map_cons, depthFields, depthValues, ih]
  rw [record, depth, each]

@[simp] theorem depth_tagged (name : String) (payload : Json) :
    (tagged name payload).depth = payload.depth + 1 := by
  simp [tagged, depthValues]

end Json

namespace Decoder

variable {α β : Type}

/-- The value, if a document of this depth finds room. -/
def fitting (depth room : Nat) (value : α) : Option α := if depth ≤ room then some value else none

@[simp] theorem fitting_zero (room : Nat) (value : α) : fitting 0 room value = some value := rfl

@[simp] theorem fitting_succ (depth room : Nat) (value : α) :
    fitting (depth + 1) (room + 1) value = fitting depth room value := by
  simp [fitting]

@[simp] theorem map_fitting (f : α → β) (depth room : Nat) (value : α) :
    (fitting depth room value).map f = fitting depth room (f value) := by
  by_cases room : depth ≤ room <;> simp [fitting, room]

/-- What is read beside a document that finds room, or not. -/
theorem bind_fitting {depth depth' : Nat} {value : α} {value' : β} {next : α → Option β}
    (rest : next value = fitting depth' room value') :
    (fitting depth room value).bind next = fitting (max depth depth') room value' := by
  simp only [fitting, Nat.max_le]
  by_cases first : depth ≤ room
  · simp [first, rest, fitting]
  · simp [first]

/-- The document is read as the value if it finds room, and refused otherwise. -/
def Reads (item : Decoder α) (room : Nat) (json : Json) (value : α) : Prop :=
  item room json = fitting json.depth room value

/-- The same of documents that stand side by side. -/
def ReadsAll (item : Decoder α) (room : Nat) (items : List Json) (values : List α) : Prop :=
  items.mapM (item room) = fitting (Json.depthAll items) room values

section Combinators

variable {item : Decoder α} {items : List Json} {value : α} {values : List α}

/-! ## Plain values -/

theorem text_reads (room : Nat) (value : String) : Reads text room (.text value) value := rfl

theorem flag_reads (room : Nat) (value : Bool) : Reads flag room (.bool value) value := rfl

theorem natBelow_reads {bound value : Nat} (below : value < bound) (room : Nat) :
    Reads (natBelow bound) room (.nat value) value := by
  simp [Reads, natBelow, Json.nat, Json.depth, JsonNumber.isInteger, below]

theorem map_reads (f : α → β) (reads : Reads item room json value) :
    Reads (item.map f) room json (f value) := by
  unfold Reads at reads ⊢
  rw [map, reads, map_fitting]

theorem word_reads {width : Nat} (room : Nat) (value : BitVec width) :
    Reads (word width) room (.nat value.toNat) value := by
  have reads := map_reads (BitVec.ofNat width) (natBelow_reads value.isLt room)
  rwa [BitVec.ofNat_toNat, BitVec.setWidth_eq] at reads

theorem convert_reads {f : α → Option β} {value' : β} (reads : Reads item room json value)
    (converts : f value = some value') : Reads (item.convert f) room json value' := by
  unfold Reads at reads ⊢
  rw [convert, reads, bind_fitting (converts.trans (fitting_zero room value').symm), Nat.max_zero]

theorem optional_reads (given : json ≠ .null) (reads : Reads item room json value) :
    Reads (optional item) room json (some value) := by
  have mapped := map_reads some reads
  unfold Reads at mapped ⊢
  rw [← mapped]
  cases json <;> first | rfl | contradiction

/-! ## Lists -/

theorem readsAll_nil (item : Decoder α) (room : Nat) : ReadsAll item room [] [] := rfl

theorem readsAll_cons (head : Reads item room json value) (tail : ReadsAll item room items values) :
    ReadsAll item room (json :: items) (value :: values) := by
  unfold Reads at head
  unfold ReadsAll at tail ⊢
  rw [List.mapM_cons, head, tail, Json.depthAll]
  refine bind_fitting ?_
  rw [bind_pure_comp]
  exact map_fitting (value :: ·) _ _ _

theorem readsAll_map {encode : α → Json} (reads : ∀ value, Reads item room (encode value) value)
    (values : List α) : ReadsAll item room (values.map encode) values := by
  induction values with
  | nil => exact readsAll_nil item room
  | cons value values ih => exact readsAll_cons (reads value) ih

theorem listOf_reads (reads : ∀ inner < room, ReadsAll item inner items values) :
    Reads (listOf item) room (.array items) values := by
  unfold Reads
  cases room with
  | zero => rfl
  | succ inner =>
    have all := reads inner (Nat.lt_succ_self inner)
    unfold ReadsAll at all
    rw [listOf, all, Json.depth, fitting_succ]

/-! ## Choices -/

variable {plain : List (String × α)} {payload : String → Decoder α}

theorem choice_plain (listed : plain.lookup name = some value) (room : Nat) :
    Reads (choice plain payload) room (.text name) value := by
  unfold Reads
  rw [Json.text, choice, listed]
  rfl

theorem choice_tagged (unlisted : plain.lookup name = none)
    (reads : ∀ inner < room, Reads (payload name) inner json value) :
    Reads (choice plain payload) room (.tagged name json) value := by
  unfold Reads
  rw [Json.depth_tagged]
  cases room with
  | zero => rfl
  | succ inner =>
    have payloadRead := reads inner (Nat.lt_succ_self inner)
    unfold Reads at payloadRead
    rw [fitting_succ, ← payloadRead]
    simp only [Json.tagged, Json.record, List.map_cons, List.map_nil, choice, unlisted]

end Combinators

/-! ## Records -/

theorem knownFields_record (fields known : List (String × Json))
    (named : ∀ field ∈ fields, field.1 ∈ names) (distinct : (fields.map (·.1)).Nodup)
    (fresh : ∀ field ∈ fields, known.lookup field.1 = none) :
    knownFields names known (fields.map fun field => (some field.1, field.2)) =
      some (fields.reverse ++ known) := by
  induction fields generalizing known with
  | nil => rfl
  | cons field fields ih =>
    obtain ⟨apart, distinct⟩ := List.nodup_cons.mp distinct
    have listed : field.1 ∈ names := named field List.mem_cons_self
    have new : known.lookup field.1 = none := fresh field List.mem_cons_self
    have fresh' : ∀ other ∈ fields, (field :: known).lookup other.1 = none := by
      intro other member
      have different : (other.1 == field.1) = false := by
        simp only [beq_eq_false_iff_ne]
        intro same
        exact apart (List.mem_map.mpr ⟨other, member, same⟩)
      rw [List.lookup_cons, different]
      exact fresh other (List.mem_cons_of_mem _ member)
    have rest := ih (field :: known)
      (fun other member => named other (List.mem_cons_of_mem _ member)) distinct fresh'
    simp [knownFields, listed, new, rest]

/-- A record is read from its fields, wherever they stand. -/
theorem record_reads {read : Fields → Option α} {fields : List (String × Json)} {value : α}
    (valid : ((fields.map (·.1)).isSublist names && decide names.Nodup) = true)
    (reads : ∀ inner < room,
      read ⟨inner, fields.reverse⟩ = fitting (Json.depthValues fields) inner value) :
    Reads (record names read) room (Json.record fields) value := by
  unfold Reads
  cases room with
  | zero => rfl
  | succ inner =>
    obtain ⟨listed, distinct⟩ := Bool.and_eq_true_iff.mp valid
    have named := List.isSublist_iff_sublist.mp listed
    have known := knownFields_record fields []
      (fun field member => named.subset (List.mem_map_of_mem member))
      (named.nodup (of_decide_eq_true distinct)) (by simp)
    rw [List.append_nil] at known
    rw [Json.depth_record, fitting_succ, ← reads inner (Nat.lt_succ_self inner)]
    simp [record, Json.record, known]

section Fields

variable {depth : Nat} {given : List (String × Json)} {item : Decoder α} {value otherwise : α}
  {next : α → Option β} {value' : β}

/-! A record is read field by field: what a field needs is counted with what the fields after it
need. -/

section Found

variable (found : given.lookup name = some json) (reads : Reads item room json value)

include found reads

theorem bind_get (rest : next value = fitting depth room value') :
    (Fields.get ⟨room, given⟩ name item >>= next) = fitting (max json.depth depth) room value' := by
  unfold Reads at reads
  have got : Fields.get ⟨room, given⟩ name item = fitting json.depth room value := by
    simp [Fields.get, found, reads]
  rw [got]
  exact bind_fitting rest

theorem getD_reads :
    Fields.getD ⟨room, given⟩ name item otherwise = fitting json.depth room value := by
  unfold Reads at reads
  simp [Fields.getD, found, reads]

theorem bind_getD (rest : next value = fitting depth room value') :
    (Fields.getD ⟨room, given⟩ name item otherwise >>= next) =
      fitting (max json.depth depth) room value' := by
  rw [getD_reads found reads]
  exact bind_fitting rest

end Found

theorem bind_getD_absent (absent : given.lookup name = none)
    (rest : next otherwise = fitting depth room value') :
    (Fields.getD ⟨room, given⟩ name item otherwise >>= next) = fitting depth room value' := by
  simp [Fields.getD, absent, rest]

end Fields

end Decoder

end Custody
