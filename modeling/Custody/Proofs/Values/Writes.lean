import Custody.Proofs.Values.Paths
/-!
# Writing along paths

A part of a value is written along the path by which it is read. Reading and writing go down the
same fields, so what can be read can be written, and what was written is read there. Writes along
paths that part do not see each other: behind the field where the paths part they go on in different
values.
-/

namespace Custody.Value

variable {whole old found part : Value} {path other : List Nat}

/-- A path leads on only in a struct that has a field at the first step. -/
theorem field_of_descend {index : Nat} (there : whole.descend (index :: path) = .ok found) :
    ∃ tag fields field, whole = .struct tag fields ∧ fields[index]? = some field ∧
      field.descend path = .ok found := by
  cases whole with
  | struct tag fields =>
    cases inside : fields[index]? with
    | none => simp [descend, inside] at there
    | some field => exact ⟨tag, fields, field, rfl, inside, by simpa [descend, inside] using there⟩
  | _ => simp [descend] at there

theorem replaceAt_field {tag : StructTag} {fields : List Value} {index : Nat}
    {field changed : Value} (inside : fields[index]? = some field)
    (below : field.replaceAt path part = .ok changed) :
    (struct tag fields).replaceAt (index :: path) part = .ok
    (.struct tag (fields.set index changed)) := by
  simp only [replaceAt, inside, below]
  rfl

/-- What can be read can be replaced, and what is read then is what was put there. -/
theorem replaceAt_of_descend (there : whole.descend path = .ok old) (part : Value) :
    ∃ changed, whole.replaceAt path part = .ok changed ∧ changed.descend path = .ok part := by
  induction path generalizing whole with
  | nil => exact ⟨part, by unfold replaceAt; rfl, by unfold descend; rfl⟩
  | cons index path ih =>
    obtain ⟨tag, fields, field, rfl, inside, below⟩ := field_of_descend there
    obtain ⟨changed, replaced, back⟩ := ih below
    have within := (List.getElem?_eq_some_iff.mp inside).1
    refine ⟨_, replaceAt_field inside replaced, ?_⟩
    simpa [descend, within] using back

/-- Two writes come to the same in either order if their paths part. -/
theorem replaceAt_comm (part new : Value) (before : ¬ path <+: other) (behind : ¬ other <+: path)
    (there : whole.descend path = .ok old) (there' : whole.descend other = .ok found) :
    ∃ left right both, whole.replaceAt path part = .ok left ∧ whole.replaceAt other
    new = .ok right ∧
      left.replaceAt other new = .ok both ∧ right.replaceAt path part = .ok both := by
  induction path generalizing whole other with
  | nil => exact absurd List.nil_prefix before
  | cons index path ih =>
    cases other with
    | nil => exact absurd List.nil_prefix behind
    | cons position other =>
      obtain ⟨tag, fields, field, rfl, inside, below⟩ := field_of_descend there
      obtain ⟨_, _, field', same, inside', below'⟩ := field_of_descend there'
      obtain ⟨rfl, rfl⟩ := struct.inj same
      by_cases one : position = index
      · subst one
        obtain rfl := Option.mem_unique inside inside'
        obtain ⟨left, right, both, first, second, then', then''⟩ := ih
          (fun through => before (List.cons_prefix_cons.mpr ⟨rfl, through⟩))
          (fun through => behind (List.cons_prefix_cons.mpr ⟨rfl, through⟩)) below below'
        have within := (List.getElem?_eq_some_iff.mp inside).1
        refine ⟨_, _, .struct tag (fields.set position both), replaceAt_field inside first,
          replaceAt_field inside second, ?_, ?_⟩
        · rw [replaceAt_field (List.getElem?_set_self within) then', List.set_set]
        · rw [replaceAt_field (List.getElem?_set_self within) then'', List.set_set]
      · obtain ⟨left, first, -⟩ := replaceAt_of_descend below part
        obtain ⟨right, second, -⟩ := replaceAt_of_descend below' new
        refine ⟨_, _, _, replaceAt_field inside first, replaceAt_field inside' second,
          replaceAt_field ?_ second, ?_⟩
        · rwa [List.getElem?_set_ne (Ne.symm one)]
        · rw [List.set_comm _ _ (Ne.symm one)]
          apply replaceAt_field ?_ first
          rwa [List.getElem?_set_ne one]

/-- A value can be written wherever it can be read. What was written is read there, and it conforms
to the type of the whole if it conforms to the type found along the path. No part whose path parts
from this one changes, and writing there as well comes to the same in either order. -/
theorem writes_along_paths (there : whole.descend path = .ok old) (part : Value) :
    ∃ changed, whole.replaceAt path part = .ok changed ∧ changed.descend path = .ok part ∧
      (∀ other found, whole.descend other = .ok found → ¬ path <+: other → ¬ other <+: path →
        changed.descend other = .ok found ∧
          ∀ new, ∃ changed' both, whole.replaceAt other new = .ok changed' ∧
            changed.replaceAt other new = .ok both ∧ changed'.replaceAt path part = .ok both) ∧
      ∀ (u : Universe) (ty reached : Ty), whole.conformsTo u ty = true →
        u.typeAt? ty path = some reached → part.conformsTo u reached = true →
        changed.conformsTo u ty = true := by
  obtain ⟨changed, done, back⟩ := replaceAt_of_descend there part
  refine ⟨changed, done, back, ?_, ?_⟩
  · intro other found there' before behind
    constructor
    · rw [descend_replaceAt before behind done, there']
    · intro new
      obtain ⟨_, changed', both, done', second, first, second'⟩ :=
        replaceAt_comm part new before behind there there'
      obtain rfl := Except.ok.inj (done.symm.trans done')
      exact ⟨changed', both, second, first, second'⟩
  · intro u ty reached conforms along conforms'
    obtain ⟨_, done', conforms''⟩ := replaceAt_conformsTo conforms along conforms'
    obtain rfl := Except.ok.inj (done.symm.trans done')
    exact conforms''

/-- Accounts hold coins. -/
def holdings : Universe where
  structs := [(⟨"M", "Account"⟩, [("open", .bool), ("coin", .struct ⟨"M", "Coin"⟩ [])]),
    (⟨"M", "Coin"⟩, [("value", .u64), ("frozen", .bool)])].foldl
      (fun structs (id, fields) => structs.insert id { id, fields }) ∅

/-- An open account. -/
def account : Value :=
  .struct ⟨⟨"M", "Account"⟩, []⟩ [.bool true, .struct ⟨⟨"M", "Coin"⟩, []⟩ [.u64 5, .bool false]]

/-- The value of a coin in an account is written; the coin stays as frozen as it was. -/
theorem writes_into_a_coin : account.descend [1, 0] = .ok (.u64 5) ∧
    ∃ changed, account.replaceAt [1, 0] (.u64 7) = .ok changed ∧
      changed.descend [1, 0] = .ok (.u64 7) ∧
      changed.descend [1, 1] = .ok (.bool false) ∧
      changed.conformsTo holdings (.struct ⟨"M", "Account"⟩ []) = true := by
  have there : account.descend [1, 0] = .ok (.u64 5) := rfl
  obtain ⟨changed, done, back, apart, conforms⟩ := writes_along_paths there (.u64 7)
  refine ⟨there, changed, done, back, (apart [1, 1] _ rfl (by decide) (by decide)).1, ?_⟩
  exact conforms holdings _ .u64 (by decide) (by decide) rfl

end Custody.Value
