import Mathlib.Algebra.BigOperators.Group.List.Basic
import Mathlib.Algebra.GroupWithZero.Nat
import Mathlib.Data.List.Nodup
import Mathlib.Data.List.Perm.Basic
import Custody.Proofs.Values.Conformance
/-!
# Weighing, packing and unpacking

A value weighs the sum of the weights of the structs in it, at every depth. Replacing a part changes
the weight by the difference of the parts. Packing puts each value given for a field into its place
and unpacking takes it out again, so both keep conformance and neither loses nor doubles a field.
-/

namespace Custody

variable {struct : StructDef} {values : List Value} {given : List (String × Value)} {name : String}
  {tag : StructTag} {α : Type} {binders : List (String × Binder)} {u : Universe} {index : Nat}

namespace Value

/-! ## Weight -/

mutual

/-- What a value weighs if a struct weighs what its name says, apart from its fields. -/
def weigh (weight : StructId → Nat) : Value → Nat
  | .vector items => weighAll weight items
  | .struct tag fields => weight tag.id + weighAll weight fields
  | .unit | .bool _ | .u8 _ | .u64 _ | .u128 _ | .address _ | .signer _ | .ref _ => 0

/-- What values weigh together. -/
def weighAll (weight : StructId → Nat) : List Value → Nat
  | [] => 0
  | value :: values => weigh weight value + weighAll weight values

end

theorem weighAll_eq_sum (weight : StructId → Nat) (values : List Value) :
    weighAll weight values = (values.map (weigh weight)).sum := by
  induction values with
  | nil => rfl
  | cons value values ih => simp [weighAll, ih]

theorem weighAll_set (weight : StructId → Nat) {old : Value} (found : values[index]? = some old)
    (new : Value) :
    weighAll weight (values.set index new) + old.weigh weight =
      weighAll weight values + new.weigh weight := by
  induction values generalizing index with
  | nil => simp at found
  | cons value values ih =>
    cases index with
    | zero =>
      obtain rfl := Option.some.inj found
      simp only [List.set_cons_zero, weighAll]
      omega
    | succ index =>
      have below := ih found
      simp only [List.set_cons_succ, weighAll]
      omega

/-- Replacing a part changes the weight by the difference of the parts. -/
theorem weigh_replaceAt {weight : StructId → Nat} {value part new changed : Value}
    {path : List Nat} (found : value.descend path = .ok part)
    (replaced : value.replaceAt path new = .ok changed) :
    changed.weigh weight + part.weigh weight = value.weigh weight + new.weigh weight := by
  induction path generalizing value changed with
  | nil =>
    unfold descend at found
    unfold replaceAt at replaced
    obtain rfl := Except.ok.inj found
    obtain rfl := Except.ok.inj replaced
    omega
  | cons index path ih =>
    cases value with
    | struct tag fields =>
      cases here : fields[index]? with
      | none => simp [descend, here] at found
      | some field =>
        simp only [descend, here] at found
        simp only [replaceAt, here] at replaced
        obtain ⟨inner, below, done⟩ := Universe.bind_eq_ok replaced
        obtain rfl := Except.ok.inj done
        have parts := ih found below
        have whole := weighAll_set weight here inner
        simp only [weigh]
        omega
    | _ => simp [descend] at found

end Value

/-! ## Names that cover the fields -/

namespace Check

theorem givenFaults_eq_nil_iff {fields seen given : List String} :
    givenFaults tag fields seen given = [] ↔
      given.Nodup ∧ (∀ name ∈ given, name ∉ seen) ∧ ∀ name ∈ given, name ∈ fields := by
  induction given generalizing seen with
  | nil => simp [givenFaults]
  | cons name names ih =>
    by_cases again : name ∈ seen
    · simp [givenFaults, again]
    · by_cases known : name ∈ fields
      · simp only [givenFaults, again, known, if_true, if_false, ih]
        grind
      · simp [givenFaults, again, known]

/-- Names without a fault are the fields in some order. -/
theorem coverageFaults_eq_nil_iff {action : StructUse} {struct : String}
    {fields given : List String} (distinct : fields.Nodup) :
    coverageFaults action struct tag fields given = [] ↔ given.Perm fields := by
  have missing : (fields.filter fun field => !decide (field ∈ given)) = [] ↔
      ∀ name ∈ fields, name ∈ given := by
    simp [List.filter_eq_nil_iff]
  simp only [coverageFaults, List.append_eq_nil_iff, List.map_eq_nil_iff,
    givenFaults_eq_nil_iff, missing]
  constructor
  · rintro ⟨⟨nodup, _, inside⟩, present⟩
    exact (List.perm_ext_iff_of_nodup nodup distinct).mpr fun name => ⟨inside name, present name⟩
  · intro covers
    exact ⟨⟨covers.nodup_iff.mpr distinct, fun _ _ => List.not_mem_nil, fun _ => covers.mem_iff.mp⟩,
      fun _ => covers.mem_iff.mpr⟩

end Check

/-! ## Packing -/

theorem allFilled?_map_some (values : List α) : allFilled? (values.map some) = some values := by
  induction values with
  | nil => rfl
  | cons value values ih => simp [allFilled?, ih]

namespace StructDef

/-- The names of the fields, in the order of declaration. -/
def names (struct : StructDef) : List String := struct.fields.map (·.1)

theorem names_fieldsAt (struct : StructDef) (args : List Ty) :
    (struct.fieldsAt args).map (·.1) = struct.names := by
  simp [fieldsAt, names, Function.comp_def]

theorem perm_of_faultless (distinct : struct.names.Nodup) {action : StructUse} {written : String}
    {args : List Ty} {given : List String}
    (clean : Check.coverageFaults action written tag ((struct.fieldsAt args).map (·.1)) given =
      []) : given.Perm struct.names := by
  rw [names_fieldsAt] at clean
  exact (Check.coverageFaults_eq_nil_iff distinct).mp clean

theorem fieldIndex?_of_mem (member : name ∈ struct.names) :
    ∃ index, struct.fieldIndex? name = some index ∧ struct.names[index]? = some name := by
  obtain ⟨field, inside, rfl⟩ := List.mem_map.mp member
  have found : (struct.fields.findIdx? (·.1 = field.1)).isSome := by
    rw [List.findIdx?_isSome, List.any_eq_true]
    exact ⟨field, inside, by simp⟩
  obtain ⟨index, position⟩ := Option.isSome_iff_exists.mp found
  obtain ⟨within, named, _⟩ := List.findIdx?_eq_some_iff_getElem.mp position
  refine ⟨index, position, ?_⟩
  simpa [names, List.getElem?_eq_getElem within] using named

/-- Where the names differ, a name stands at the position found for it only. -/
theorem fieldIndex?_of_getElem? (nodup : struct.names.Nodup)
    (here : struct.names[index]? = some name) : struct.fieldIndex? name = some index := by
  obtain ⟨found, position, there⟩ := fieldIndex?_of_mem (List.mem_of_getElem? here)
  obtain ⟨within, _⟩ := List.getElem?_eq_some_iff.mp here
  have same : index = found :=
    (List.getElem?_inj within nodup).mp (here.trans there.symm)
  rw [position, same]

theorem exists_lookup {given : List (String × α)} (named : name ∈ given.map (·.1)) :
    ∃ value, given.lookup name = some value := by
  obtain ⟨entry, member, rfl⟩ := List.mem_map.mp named
  exact Option.isSome_iff_exists.mp (List.lookup_isSome_iff.mpr ⟨entry, member, by simp⟩)

theorem mem_of_lookup {given : List (String × α)} {value : α}
    (found : given.lookup name = some value) : (name, value) ∈ given := by
  obtain ⟨before, after, rfl, _⟩ := List.lookup_eq_some_iff.mp found
  simp

theorem lookup_of_mem {given : List (String × α)} (once : (given.map (·.1)).Nodup)
    {entry : String × α} (member : entry ∈ given) : given.lookup entry.1 = some entry.2 := by
  obtain ⟨value, found⟩ := exists_lookup (List.mem_map_of_mem member)
  have same : (entry.1, value) = entry := List.inj_on_of_nodup_map once
    (mem_of_lookup found) member rfl
  exact found.trans (congrArg (fun entry => some entry.2) same)

/-- Values given by name, in the order of the fields. -/
def arranged (struct : StructDef) (given : List (String × Value)) : List Value :=
  struct.names.map fun name => (given.lookup name).getD .unit

/-- Each value ends up in the place of its field, and other places are as before. -/
theorem placeFields_spec (distinct : struct.names.Nodup) (tag : StructTag)
    (given : List (String × Value)) (once : (given.map (·.1)).Nodup)
    (known : ∀ entry ∈ given, entry.1 ∈ struct.names) (places : List (Option Value))
    (length : places.length = struct.names.length) :
    ∃ filled, struct.placeFields tag given places = .ok filled ∧
      filled.length = struct.names.length ∧
      ∀ (index : Nat) (name : String), struct.names[index]? = some name →
        filled[index]? =
          match given.lookup name with
          | some value => some (some value)
          | none => places[index]? := by
  induction given generalizing places with
  | nil => exact ⟨places, rfl, length, fun _ _ _ => rfl⟩
  | cons head rest ih =>
    obtain ⟨field, value⟩ := head
    simp only [List.map_cons, List.nodup_cons] at once
    obtain ⟨position, found, there⟩ := fieldIndex?_of_mem (known _ List.mem_cons_self)
    obtain ⟨filled, placed, size, reads⟩ := ih once.2
      (fun entry member => known entry (List.mem_cons_of_mem _ member))
      (places.set position (some value)) (by simpa using length)
    refine ⟨filled, by simp [placeFields, found, placed], size, ?_⟩
    intro index name here
    rw [reads index name here]
    by_cases same : name = field
    · subst same
      have missing : rest.lookup name = none := by
        rw [List.lookup_eq_none_iff]
        intro entry member
        rw [bne_iff_ne]
        exact fun equal => once.1 (List.mem_map.mpr ⟨entry, member, equal.symm⟩)
      have at_position : index = position := by
        have again := fieldIndex?_of_getElem? distinct here
        exact Option.mem_unique again found
      subst at_position
      have within : index < places.length := by
        rw [length]
        exact (List.getElem?_eq_some_iff.mp there).1
      simp [missing, within]
    · have elsewhere : position ≠ index := by
        rintro rfl
        exact same (Option.mem_unique here there)
      simp [List.lookup_cons, beq_eq_false_iff_ne.mpr same, List.getElem?_set_ne elsewhere]

/-- Values given for the fields in any order are packed in the order of the fields. -/
theorem pack_eq_ok (distinct : struct.names.Nodup) (tag : StructTag)
    (covers : (given.map (·.1)).Perm struct.names) :
    struct.pack tag given = .ok (.struct tag (struct.arranged given)) := by
  obtain ⟨filled, placed, size, reads⟩ := placeFields_spec distinct tag given
    (covers.nodup_iff.mpr distinct)
    (fun entry member => covers.mem_iff.mp (List.mem_map_of_mem member))
    (struct.fields.map fun _ => none) (by simp [names])
  have arrangedFilled : filled = (struct.arranged given).map some := by
    apply List.ext_getElem?
    intro index
    cases here : struct.names[index]? with
    | none =>
      have beyond : struct.names.length ≤ index := List.getElem?_eq_none_iff.mp here
      rw [List.getElem?_eq_none (by omega),
        List.getElem?_eq_none (by simpa [arranged] using beyond)]
    | some name =>
      obtain ⟨value, found⟩ := exists_lookup (covers.mem_iff.mpr (List.mem_of_getElem? here))
      simp [reads index name here, arranged, here, found]
  simp only [pack, placed, arrangedFilled, bind, Except.bind, allFilled?_map_some, pure,
    Except.pure]

/-- What is packed weighs what was given. -/
theorem weighAll_arranged (distinct : struct.names.Nodup)
    (covers : (given.map (·.1)).Perm struct.names) (weight : StructId → Nat) :
    Value.weighAll weight (struct.arranged given) = Value.weighAll weight (given.map (·.2)) := by
  have back : (given.map (·.1)).map (fun name => (given.lookup name).getD .unit) =
      given.map (·.2) := by
    rw [List.map_map]
    refine List.map_congr_left fun entry member => ?_
    simp [lookup_of_mem (covers.nodup_iff.mpr distinct) member]
  rw [Value.weighAll_eq_sum, Value.weighAll_eq_sum, ← back, arranged, List.map_map, List.map_map]
  exact (covers.map _).sum_eq.symm

/-- Packing conforming values gives a conforming struct. -/
theorem conformsTo_arranged (declared : u.struct? tag.id = some struct)
    (covers : (given.map (·.1)).Perm struct.names)
    (conform : ∀ entry ∈ given, ∀ ty, (struct.fieldsAt tag.args).lookup entry.1 = some ty →
      entry.2.conformsTo u ty = true) (distinct : struct.names.Nodup) :
    (Value.struct tag (struct.arranged given)).conformsTo u tag.ty = true := by
  refine Value.conformsTo_struct_iff.mpr
    ⟨struct.arranged given, struct.fieldsAt tag.args, rfl,
      by simp [Universe.instantiateFields?, declared], ?_⟩
  refine List.forall₂_iff_get.mpr ⟨by simp [arranged, names, fieldsAt], ?_⟩
  intro index within within'
  have inside : index < struct.fields.length := by simpa [arranged, names] using within
  have here : struct.names[index]? = some (struct.fields[index]).1 := by
    simp [names, List.getElem?_eq_getElem inside]
  have typed : (struct.fieldsAt tag.args).lookup (struct.fields[index]).1 =
      some ((struct.fields[index]).2.subst tag.args) := by
    rw [lookup_eq_findIdx?, findIdx?_fieldsAt, fieldIndex?_of_getElem? distinct here]
    simp [fieldsAt, List.getElem?_eq_getElem inside]
  obtain ⟨value, found⟩ := exists_lookup (covers.mem_iff.mpr (List.mem_of_getElem? here))
  have conforms := conform _ (mem_of_lookup found) _ typed
  simpa [arranged, names, fieldsAt, found] using conforms

/-! ## Unpacking -/

/-- The value of a field, found by name. -/
def valueOf (struct : StructDef) (values : List Value) (name : String) : Value :=
  ((struct.fieldIndex? name).bind fun index => values[index]?).getD .unit

/-- What unpacking binds: the fields that are given a name, in the order of the binders. -/
def bound (struct : StructDef) (values : List Value) (binders : List (String × Binder)) :
    List (String × Value) :=
  binders.filterMap fun entry =>
    match entry.2 with
    | .bind name => some (name, struct.valueOf values entry.1)
    | .ignore => none

theorem unpack_spec (binders : List (String × Binder)) (once : (binders.map (·.1)).Nodup)
    (known : ∀ entry ∈ binders, entry.1 ∈ struct.names) (places : List (Option Value))
    (filled : ∀ entry ∈ binders, ∀ index, struct.fieldIndex? entry.1 = some index →
      places[index]? = some (some (struct.valueOf values entry.1))) :
    struct.unpack binders places = .ok (struct.bound values binders) := by
  induction binders generalizing places with
  | nil => rfl
  | cons head rest ih =>
    obtain ⟨field, binder⟩ := head
    simp only [List.map_cons, List.nodup_cons] at once
    obtain ⟨position, found, there⟩ := fieldIndex?_of_mem (known _ List.mem_cons_self)
    have here := filled _ List.mem_cons_self position found
    have later : struct.unpack rest (places.set position none) = .ok
        (struct.bound values rest) := by
      refine ih once.2
        (fun entry member => known entry (List.mem_cons_of_mem _ member)) _ ?_
      intro entry member index found'
      have elsewhere : position ≠ index := by
        rintro rfl
        obtain ⟨index', again, there'⟩ :=
          fieldIndex?_of_mem (known entry (List.mem_cons_of_mem _ member))
        obtain rfl := Option.mem_unique again found'
        have same : field = entry.1 := Option.mem_unique there there'
        exact once.1 (List.mem_map.mpr ⟨entry, member, same.symm⟩)
      rw [List.getElem?_set_ne elsewhere]
      exact filled entry (List.mem_cons_of_mem _ member) index found'
    cases binder <;>
      simp [unpack, found, here, later, bound, Option.elim, bind, Except.bind, pure, Except.pure]

section Unpacking

variable (distinct : struct.names.Nodup) (length : values.length = struct.names.length)

include distinct length

/-- A struct with a value for each field comes apart into the values of its fields. -/
theorem unpack_eq_ok (covers : (binders.map (·.1)).Perm struct.names) :
    struct.unpack binders (values.map some) = .ok (struct.bound values binders) := by
  have known : ∀ entry ∈ binders, entry.1 ∈ struct.names := fun entry member =>
    covers.mem_iff.mp (List.mem_map_of_mem member)
  refine unpack_spec binders (covers.nodup_iff.mpr distinct) known _ ?_
  intro entry member index found
  obtain ⟨index', again, there⟩ := fieldIndex?_of_mem (known entry member)
  obtain rfl := Option.mem_unique again found
  have within : index' < values.length := by
    rw [length]
    exact (List.getElem?_eq_some_iff.mp there).1
  simp [valueOf, found, List.getElem?_eq_getElem within]

/-- The values of the fields, found by name, are the values themselves. -/
theorem map_valueOf : struct.names.map (struct.valueOf values) = values := by
  apply List.ext_getElem?
  intro index
  cases here : struct.names[index]? with
  | none =>
    have beyond : struct.names.length ≤ index := List.getElem?_eq_none_iff.mp here
    rw [List.getElem?_eq_none (by simpa using beyond), List.getElem?_eq_none (by omega)]
  | some name =>
    have within : index < values.length := by
      rw [length]
      exact (List.getElem?_eq_some_iff.mp here).1
    simp [here, valueOf, fieldIndex?_of_getElem? distinct here, List.getElem?_eq_getElem within]

/-- The fields named by the binders weigh what all fields weigh. -/
theorem sum_valueOf (covers : (binders.map (·.1)).Perm struct.names) (weight : StructId → Nat) :
    (binders.map fun entry => (struct.valueOf values entry.1).weigh weight).sum =
      Value.weighAll weight values := by
  have total := (covers.map fun name => (struct.valueOf values name).weigh weight).sum_eq
  rw [List.map_map] at total
  calc (binders.map fun entry => (struct.valueOf values entry.1).weigh weight).sum
      = (struct.names.map fun name => (struct.valueOf values name).weigh weight).sum := total
    _ = ((struct.names.map (struct.valueOf values)).map (Value.weigh weight)).sum := by
        rw [List.map_map]
        rfl
    _ = Value.weighAll weight values := by
        rw [map_valueOf distinct length, Value.weighAll_eq_sum]

end Unpacking

/-- A field of a conforming struct conforms to the type declared for it. -/
theorem conformsTo_valueOf {args : List Ty} {ty : Ty}
    (conform : Value.ConformAll u values
      ((struct.fieldsAt args).map (·.2))) (found : (struct.fieldsAt args).lookup name = some ty) :
    (struct.valueOf values name).conformsTo u ty = true := by
  obtain ⟨index, position, here⟩ := getElem?_fieldsAt_of_lookup found
  obtain ⟨field, present, conforms⟩ := Value.field_of_forall₂ conform here
  simpa [valueOf, position, present] using conforms

end StructDef

end Custody
