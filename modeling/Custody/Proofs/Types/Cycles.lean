import Mathlib.Data.List.Cycle
import Mathlib.Data.List.Perm.Subperm
import Mathlib.Logic.Relation
import Custody.Proofs.Types.Declared
import Custody.Proofs.Types.Within
/-!
# Structs that contain themselves

The search is exact. It reports a struct only if the path back to it closes a cycle. And it leaves a
struct behind all that the struct contains, but for what it has reported: without the reported
structs, those it has left are in an order in which each contains only earlier ones, and no cycle
fits into such an order. A path does not get longer than there are structs, so the search would end
without a bound on its depth, and it never gives up early. What a struct contains does not depend on
what is declared beside it, so that a struct on no cycle is on none in a larger universe.
-/

namespace Custody

variable {id : StructId} {path ids : List StructId} {levels : Nat} {struct : StructDef}
  {inner : StructId} {u other : Universe}

namespace Universe

/-- A field of the one struct mentions the other. -/
def Contains (u : Universe) (outer inner : StructId) : Prop := inner ∈ u.containedIn outer

/-! ## Mentioned structs -/

section Mentioned

theorem mem_allStructIds {types : List Ty} : id ∈ Ty.allStructIds types ↔ ∃ ty ∈ types,
    id ∈ ty.structIds := by
  induction types with
  | nil => simp [Ty.allStructIds]
  | cons ty types ih => simp [Ty.allStructIds, ih]

/-- The structs named in a type are those of which an instantiation is a part of it. -/
theorem mem_structIds_iff : (ty : Ty) → (id ∈ ty.structIds ↔ ∃ args, (Ty.struct id args).PartOf ty)
  | .unit | .bool | .u8 | .u64 | .u128 | .address | .signer | .param _ _ => by
    rw [Ty.structIds]
    constructor
    · intro named
      cases named
    · rintro ⟨_, inside⟩
      cases inside
  | .vector elem => by
    rw [Ty.structIds, mem_structIds_iff elem]
    refine exists_congr fun args => ⟨.elem, fun inside => ?_⟩
    cases inside with
    | elem inside => exact inside
  | .ref _ inner => by
    rw [Ty.structIds, mem_structIds_iff inner]
    refine exists_congr fun args => ⟨.referent, fun inside => ?_⟩
    cases inside with
    | referent inside => exact inside
  | .struct owner args => by
    rw [Ty.structIds, List.mem_cons, mem_allStructIds]
    constructor
    · rintro (rfl | ⟨arg, member, named⟩)
      · exact ⟨args, .whole⟩
      · exact ((mem_structIds_iff arg).mp named).imp fun _ inside => .arg member inside
    · rintro ⟨_, inside⟩
      cases inside with
      | whole => exact .inl rfl
      | arg member inside => exact .inr ⟨_, member, (mem_structIds_iff _).mpr ⟨_, inside⟩⟩

/-- An instantiation of the one struct is a part of the type of a field of the other. -/
def Mentions (u : Universe) (outer inner : StructId) : Prop :=
  ∃ struct, u.struct? outer = some struct ∧
    ∃ field ∈ struct.fields, ∃ args, (Ty.struct inner args).PartOf field.2

theorem contains_iff_mentions (outer inner : StructId) :
    u.Contains outer inner ↔ u.Mentions outer inner := by
  cases found : u.struct? outer with
  | none => simp [Contains, containedIn, Mentions, found]
  | some struct =>
    have listed : u.Contains outer inner ↔ inner ∈ SortedSet.ofList
        (Ty.allStructIds (struct.fields.map (·.2))) := by
      simp only [Contains, containedIn, found]
      rfl
    rw [listed, SortedSet.mem_ofList, mem_allStructIds]
    constructor
    · rintro ⟨_, member, named⟩
      obtain ⟨field, declared, rfl⟩ := List.mem_map.mp member
      exact ⟨struct, found, field, declared, (mem_structIds_iff _).mp named⟩
    · rintro ⟨struct', found', field, declared, mentioned⟩
      obtain rfl := Option.mem_unique found found'
      exact ⟨_, List.mem_map_of_mem declared, (mem_structIds_iff _).mpr mentioned⟩

theorem mem_keys_of_contains (contained : u.Contains id inner) : id ∈ u.structs.keys := by
  obtain ⟨_, found, _⟩ := (contains_iff_mentions id inner).mp contained
  exact Table.mem_keys_of_get? found

end Mentioned

/-! ## Visits -/

/-- Visits one after another, below one path. -/
def visitAll (u : Universe) (levels : Nat) (path ids : List StructId) (search : CycleSearch) :
    CycleSearch :=
  ids.foldl (fun state id => u.visit levels path id state) search

/-- The search without a bound on its depth. Structs are visited one after another below a path: one
that has been left is passed over, one that is met on the path is reported, and any other is left
once all that it contains has been visited below it. -/
inductive Visits (u : Universe) : List StructId → List StructId → CycleSearch →
    CycleSearch → Prop where
  | nil {path : List StructId} {search : CycleSearch} : u.Visits path [] search search
  | done {path ids : List StructId} {id : StructId} {search after : CycleSearch} :
    id ∈ search.done → u.Visits path ids search after → u.Visits path (id :: ids) search after
  | met {path ids : List StructId} {id : StructId} {search after : CycleSearch} :
    id ∉ search.done → id ∈ path →
      u.Visits path ids { search with found := search.found ++ [id] } after →
      u.Visits path (id :: ids) search after
  | new {path ids : List StructId} {id : StructId} {search below after : CycleSearch} :
    id ∉ search.done → id ∉ path → u.Visits (id :: path) (u.containedIn id) search below →
      u.Visits path ids { below with done := id :: below.done } after →
      u.Visits path (id :: ids) search after

section Visits

variable {search after : CycleSearch}

theorem visit_succ_of_done (done : id ∈ search.done) :
    u.visit (levels + 1) path id search = search := by
  rw [visit, if_pos done]

theorem visit_succ_of_met (undone : id ∉ search.done) (met : id ∈ path) :
    u.visit (levels + 1) path id search = { search with found := search.found ++ [id] } := by
  rw [visit, if_neg undone, if_pos met]

/-- A struct that is neither done nor on the path is left behind all that it contains. -/
theorem visit_succ_of_new (undone : id ∉ search.done) (unmet : id ∉ path) :
    u.visit (levels + 1) path id search =
      { u.visitAll levels (id :: path) (u.containedIn id) search with
        done := id :: (u.visitAll levels (id :: path) (u.containedIn id) search).done } := by
  rw [visit, if_neg undone, if_neg unmet]
  rfl

/-- Where as many levels are allowed as are left for the path, the bound on the depth makes no
difference. -/
theorem visits_visitAll (nodup : path.Nodup) (known : ∀ above ∈ path, above ∈ u.structs.keys)
    (enough : u.structs.size < levels + path.length) (ids : List StructId) (search : CycleSearch) :
    u.Visits path ids search (u.visitAll levels path ids search) := by
  induction levels generalizing path ids search with
  | zero =>
    have short := (nodup.subperm known).length_le
    simp only [Table.keys, List.length_map, Nat.zero_add] at short enough
    exact absurd short (Nat.not_le_of_lt enough)
  | succ levels ih =>
    induction ids generalizing search with
    | nil => exact .nil
    | cons id rest ihRest =>
      show u.Visits path (id :: rest) search
        (u.visitAll (levels + 1) path rest (u.visit (levels + 1) path id search))
      by_cases done : id ∈ search.done
      · rw [visit_succ_of_done done]
        exact .done done (ihRest search)
      · by_cases met : id ∈ path
        · rw [visit_succ_of_met done met]
          exact .met done met (ihRest _)
        · rw [visit_succ_of_new done met]
          refine .new done met ?_ (ihRest _)
          -- A struct that is not declared contains nothing, and only the others make a path longer.
          cases found : u.struct? id with
          | none =>
            have nothing : u.containedIn id = [] := by simp only [containedIn, found]
            rw [nothing]
            exact .nil
          | some struct =>
            refine ih (List.nodup_cons.mpr ⟨met, nodup⟩)
              (List.forall_mem_cons.mpr ⟨Table.mem_keys_of_get? found, known⟩) ?_ _ search
            rw [List.length_cons]
            omega

theorem Visits.unique {after' : CycleSearch} (visits : u.Visits path ids search after)
    (other : u.Visits path ids search after') : after = after' := by
  induction visits generalizing after' with
  | nil =>
    cases other
    rfl
  | done left _ ih =>
    cases other with
    | done _ rest => exact ih rest
    | met unleft | new unleft => exact absurd left unleft
  | met unleft onPath _ ih =>
    cases other with
    | done left => exact absurd left unleft
    | met _ _ rest => exact ih rest
    | new _ offPath => exact absurd onPath offPath
  | new unleft offPath _ _ ihBelow ihRest =>
    cases other with
    | done left => exact absurd left unleft
    | met _ onPath => exact absurd onPath offPath
    | new _ _ below rest =>
      obtain rfl := ihBelow below
      exact ihRest rest

theorem visits_cyclicStructs (u : Universe) :
    ∃ after, u.Visits [] u.structs.keys {} after ∧ after.found = u.cyclicStructs :=
  ⟨_, visits_visitAll List.nodup_nil
    (fun _ none => absurd none List.not_mem_nil) (Nat.lt_succ_self _) _ _, rfl⟩

/-! ## What is reported -/

/-- A struct that is met on the path that leads to it closes a cycle, and stands on it once like all
others: no struct is on the path twice. -/
theorem cycle_of_met (nodup : path.Nodup) (chain : (id :: path).IsChain fun inner outer =>
    u.Contains outer inner) (met : id ∈ path) : ∃ cycle :
    Cycle StructId, cycle.Nodup ∧ cycle.Chain u.Contains ∧ id ∈ cycle := by
  obtain ⟨below, above, rfl⟩ := List.append_of_mem met
  have round : (id :: below ++ [id]).IsChain fun inner outer => u.Contains outer inner :=
    chain.prefix ⟨above, by simp⟩
  obtain ⟨distinct, _, apart⟩ := List.nodup_append.mp nodup
  refine ⟨(id :: below.reverse : List StructId), ?_, ?_, ?_⟩
  · rw [Cycle.nodup_coe_iff, List.nodup_cons, List.mem_reverse, List.nodup_reverse]
    exact ⟨fun twice => apart id twice id List.mem_cons_self rfl, distinct⟩
  · rw [← List.isChain_reverse] at round
    simpa using round
  · simp

/-- Whatever is reported lies on a cycle. -/
theorem Visits.cycle_of_mem_found (visits : u.Visits path ids search after) (nodup : path.Nodup)
    (chain : ∀ id ∈ ids, (id :: path).IsChain fun inner outer => u.Contains outer inner) :
    ∀ other ∈ after.found, other ∈ search.found ∨
      ∃ cycle : Cycle StructId, cycle.Nodup ∧ cycle.Chain u.Contains ∧ other ∈ cycle := by
  induction visits with
  | nil => exact fun _ listed => .inl listed
  | done _ _ ih => exact ih nodup (List.forall_mem_cons.mp chain).2
  | met _ onPath _ ih =>
    obtain ⟨here, later⟩ := List.forall_mem_cons.mp chain
    intro other listed
    rcases ih nodup later other listed with reported | cycle
    · rcases List.mem_append.mp reported with earlier | now
      · exact .inl earlier
      · rw [List.mem_singleton.mp now]
        exact .inr (cycle_of_met nodup here onPath)
    · exact .inr cycle
  | new _ offPath _ _ ihBelow ihRest =>
    obtain ⟨here, later⟩ := List.forall_mem_cons.mp chain
    intro other listed
    rcases ihRest nodup later other listed with reported | cycle
    · refine ihBelow (List.nodup_cons.mpr ⟨offPath, nodup⟩) (fun inner contained => ?_)
        other reported
      exact List.isChain_cons_cons.mpr ⟨contained, here⟩
    · exact .inr cycle

theorem exists_cycle_of_mem_cyclicStructs (reported : id ∈ u.cyclicStructs) :
    ∃ cycle : Cycle StructId, cycle.Nodup ∧ cycle.Chain u.Contains ∧ id ∈ cycle := by
  obtain ⟨after, visits, found⟩ := u.visits_cyclicStructs
  rw [← found] at reported
  exact (visits.cycle_of_mem_found List.nodup_nil
    (fun _ _ => List.isChain_singleton _) id reported).resolve_left List.not_mem_nil

theorem cycle_of_mem_cyclicStructs (reported : id ∈ u.cyclicStructs) :
    Relation.TransGen u.Contains id id := by
  obtain ⟨cycle, _, chain, inside⟩ := exists_cycle_of_mem_cyclicStructs reported
  have reaches := Cycle.chain_iff_pairwise.mp (chain.imp fun _ _ => Relation.TransGen.single)
  exact reaches id inside id inside

/-! ## What is left behind -/

/-- A field of the one struct mentions the other, which is not among the given ones. -/
def ContainsBut (u : Universe) (found : List StructId) (outer inner : StructId) : Prop :=
  u.Contains outer inner ∧ inner ∉ found

/-- Each member of the list leads only to such as stand behind it. -/
inductive Settled (edge : StructId → StructId → Prop) : List StructId → Prop where
  | nil : Settled edge []
  | cons {id : StructId} {rest : List StructId} (leads : ∀ inner, edge id inner → inner ∈ rest)
      (others : Settled edge rest) : Settled edge (id :: rest)

section Settled

variable {edge fewer : StructId → StructId → Prop} {order : List StructId}

theorem Settled.mono (settled : Settled edge order) (within : ∀ outer inner, fewer outer inner →
    edge outer inner) : Settled fewer order := by
  induction settled with
  | nil => exact .nil
  | cons leads _ ih => exact .cons (fun inner leads' => leads inner (within _ inner leads')) ih

theorem Settled.mem_of_reach (settled : Settled edge order) (listed : id ∈ order)
    (reach : Relation.ReflTransGen edge id inner) : inner ∈ order := by
  induction reach with
  | refl => exact listed
  | @tail middle inner _ leads ih =>
    clear listed
    induction settled with
    | nil => cases ih
    | cons leads' _ ihRest =>
      refine List.mem_cons_of_mem _ ?_
      rcases List.mem_cons.mp ih with rfl | later
      · exact leads' inner leads
      · exact ihRest later

/-- No member of such a list leads back to itself. -/
theorem Settled.acyclic (settled : Settled edge order) (listed : id ∈ order) :
    ¬ Relation.TransGen edge id id := by
  induction settled with
  | nil => cases listed
  | @cons first rest leads others ih =>
    by_cases later : id ∈ rest
    · exact ih later
    · obtain rfl := (List.mem_cons.mp listed).resolve_right later
      intro cycle
      obtain ⟨inner, here, back⟩ := Relation.TransGen.head'_iff.mp cycle
      exact later (others.mem_of_reach (leads inner here) back)

end Settled

/-- The given structs have been left, in order, or reported. -/
structure Progress (u : Universe) (ids : List StructId) (before after : CycleSearch) : Prop where
  settled : Settled (u.ContainsBut after.found) after.done
  keeps : before.done ⊆ after.done
  reports : before.found ⊆ after.found
  reaches : ∀ id ∈ ids, id ∈ after.done ∨ id ∈ after.found

theorem Visits.progress (visits : u.Visits path ids search after)
    (settled : Settled (u.ContainsBut search.found) search.done) : u.Progress ids search after := by
  induction visits with
  | nil => exact ⟨settled,
      List.Subset.refl _, List.Subset.refl _, fun _ none => absurd none List.not_mem_nil⟩
  | done left _ ih =>
    have rest := ih settled
    exact ⟨rest.settled, rest.keeps, rest.reports,
      List.forall_mem_cons.mpr ⟨.inl (rest.keeps left), rest.reaches⟩⟩
  | met _ _ _ ih =>
    have rest := ih (settled.mono fun _ _ kept =>
      ⟨kept.1, fun earlier => kept.2 (List.mem_append_left _ earlier)⟩)
    exact ⟨rest.settled, rest.keeps, fun _ earlier => rest.reports (List.mem_append_left _ earlier),
      List.forall_mem_cons.mpr ⟨.inr (rest.reports (List.mem_append_right _ List.mem_cons_self)),
        rest.reaches⟩⟩
  | @new _ _ id _ below _ _ _ _ _ ihBelow ihRest =>
    have inside := ihBelow settled
    have left : Settled (u.ContainsBut below.found) (id :: below.done) :=
      .cons (fun inner leads => (inside.reaches inner leads.1).resolve_right leads.2) inside.settled
    have rest := ihRest left
    exact ⟨rest.settled, fun _ earlier =>
      rest.keeps (List.mem_cons_of_mem _ (inside.keeps earlier)),
      fun _ earlier => rest.reports (inside.reports earlier),
      List.forall_mem_cons.mpr ⟨.inl (rest.keeps List.mem_cons_self), rest.reaches⟩⟩

/-- No struct leads back to itself past the reported ones. -/
theorem not_transGen_containsBut (u : Universe) (id : StructId) :
    ¬ Relation.TransGen (u.ContainsBut u.cyclicStructs) id id := by
  obtain ⟨after, visits, found⟩ := u.visits_cyclicStructs
  have progress := visits.progress .nil
  rw [← found]
  intro cycle
  -- It contains something, so it is declared and was visited; the way leads to it, so it was not
  -- reported.
  obtain ⟨_, ⟨contained, _⟩, _⟩ := Relation.TransGen.head'_iff.mp cycle
  obtain ⟨_, _, _, unreported⟩ := Relation.TransGen.tail'_iff.mp cycle
  have left := (progress.reaches id (mem_keys_of_contains contained)).resolve_right unreported
  exact progress.settled.acyclic left cycle

theorem not_transGen_of_silent (silent : u.cyclicStructs = []) (id : StructId) :
    ¬ Relation.TransGen u.Contains id id := by
  intro cycle
  refine u.not_transGen_containsBut id
    (Relation.TransGen.mono (fun outer inner contained => ?_) id id cycle)
  exact ⟨contained, silent ▸ List.not_mem_nil⟩

/-- Every cycle has a reported struct on it. -/
theorem exists_mem_cyclicStructs_of_chain {cycle : Cycle StructId} (chain : cycle.Chain u.Contains)
    (nonempty : cycle ≠ .nil) : ∃ id ∈ cycle, id ∈ u.cyclicStructs := by
  by_contra! unreported
  have past : cycle.Chain (u.ContainsBut u.cyclicStructs) := by
    induction cycle using Cycle.induction_on with
    | nil => trivial
    | cons first rest =>
      rw [Cycle.chain_coe_cons] at chain ⊢
      refine chain.imp_of_mem_imp fun outer inner _ listed contained =>
        ⟨contained, unreported inner ?_⟩
      simpa [or_comm] using listed
  have irrefl : Std.Irrefl (Relation.TransGen (u.ContainsBut u.cyclicStructs)) :=
    ⟨u.not_transGen_containsBut⟩
  exact nonempty (Cycle.Chain.eq_nil_of_irrefl (past.imp fun _ _ => Relation.TransGen.single))

end Visits

/-! ## Larger universes -/

section Larger

theorem contains_iff_of_within (within : u.Within other) (declared : u.struct? id = some struct) :
    other.Contains id inner ↔ u.Contains id inner := by
  simp only [Contains, containedIn, declared, within.struct? declared]

/-- The fields of declared structs mention declared structs. -/
theorem Accepted.declared_of_contains (accepted : u.Accepted) (contained : u.Contains id inner) :
    ∃ struct, u.struct? inner = some struct := by
  obtain ⟨_, found, field, member, _, inside⟩ := (contains_iff_mentions id inner).mp contained
  have plain := isPlain_of_partOf inside (accepted.fields_plain found field member)
  obtain ⟨⟨struct, declared, _⟩, _⟩ := isPlain_struct_iff.mp plain
  exact ⟨struct, declared⟩

/-- Whatever a declared struct contains in a larger universe, at any depth, it contains in its
own. -/
theorem Accepted.transGen_of_within (accepted : u.Accepted) (within : u.Within other)
    (found : u.struct? id = some struct) (reach : Relation.TransGen other.Contains id inner) :
    Relation.TransGen u.Contains id inner ∧ ∃ struct, u.struct? inner = some struct := by
  induction reach with
  | single contained =>
    have here := (contains_iff_of_within within found).mp contained
    exact ⟨.single here, accepted.declared_of_contains here⟩
  | tail _ contained ih =>
    obtain ⟨reach, _, found'⟩ := ih
    have here := (contains_iff_of_within within found').mp contained
    exact ⟨reach.tail here, accepted.declared_of_contains here⟩

/-- A struct that is not reported in its own universe is reported in no larger one. -/
theorem Accepted.not_mem_cyclicStructs (accepted : u.Accepted) (silent : u.cyclicStructs = [])
    (within : u.Within other) (found : u.struct? id = some struct) : id ∉ other.cyclicStructs := by
  intro reported
  have cycle := accepted.transGen_of_within within found (cycle_of_mem_cyclicStructs reported)
  exact not_transGen_of_silent silent id cycle.1

end Larger

/-- The search for structs that contain themselves is exact in every universe. With a step from a
struct to each that the types of its fields mention anywhere, a reported struct lies on a cycle,
which passes no struct twice, and every cycle passes a reported struct; so nothing is reported if
and only if no struct leads back to itself. Without its bound on the depth the search ends as well,
in one way, and has reported the same. -/
theorem cyclicStructs_are_exact (u : Universe) :
    (∀ id ∈ u.cyclicStructs,
      ∃ cycle : Cycle StructId, cycle.Nodup ∧ cycle.Chain u.Mentions ∧ id ∈ cycle) ∧
    (∀ cycle : Cycle StructId, cycle.Chain u.Mentions → cycle ≠ .nil →
      ∃ id ∈ cycle, id ∈ u.cyclicStructs) ∧
    (u.cyclicStructs = [] ↔ ∀ id, ¬ Relation.TransGen u.Mentions id id) ∧
    (∃! after, u.Visits [] u.structs.keys {} after) ∧
    ∀ after, u.Visits [] u.structs.keys {} after → after.found = u.cyclicStructs := by
  have same : u.Contains = u.Mentions := by
    funext outer inner
    exact propext (contains_iff_mentions outer inner)
  obtain ⟨after, visits, found⟩ := u.visits_cyclicStructs
  rw [← same]
  refine ⟨?reported, ?passed, ⟨?silent, ?acyclic⟩, ?ends, ?alike⟩
  case reported => exact fun id => exists_cycle_of_mem_cyclicStructs
  case passed => exact fun cycle => exists_mem_cyclicStructs_of_chain
  case silent => exact not_transGen_of_silent
  case acyclic =>
    intro acyclic
    exact List.eq_nil_iff_forall_not_mem.mpr fun id reported =>
      acyclic id (cycle_of_mem_cyclicStructs reported)
  case ends => exact ⟨after, visits, fun other visits' => visits'.unique visits⟩
  case alike =>
    intro other visits'
    rw [← found, visits'.unique visits]

/-- Two cycles with a struct in common, through vectors and type arguments, and a way into them from
outside. -/
def rings : List Module := [
  { name := "Ring"
    structs := [
      { name := "Cell", typeParams := [{ name := "T" }], fields := [⟨"item", .param "T"⟩] },
      { name := "Entry", fields := [⟨"ring", .struct none "Left" []⟩] },
      { name := "Left", fields := [⟨"right", .vector (.struct none "Right" [])⟩] },
      { name := "Right"
        fields := [⟨"left", .struct none "Cell" [.struct none "Left" []]⟩,
          ⟨"top", .struct none "Top" []⟩] },
      { name := "Top", fields := [⟨"right", .struct none "Cell" [.struct none "Right" []]⟩] }] }]

/-- A struct of the module. -/
def ringId (name : String) : StructId := ⟨"Ring", name⟩

/-- Of the three structs on the cycles two are reported, and neither the cell nor the entry. -/
theorem rings_are_reported :
    (build rings).1.cyclicStructs = [ringId "Left", ringId "Right"] ∧
      (∃ cycle : Cycle StructId, cycle.Nodup ∧ cycle.Chain (build rings).1.Mentions ∧
        ringId "Left" ∈ cycle) ∧
      (∃ id ∈ ([ringId "Top", ringId "Right"] : Cycle StructId),
        id ∈ (build rings).1.cyclicStructs) ∧
      ¬ ∀ id, ¬ Relation.TransGen (build rings).1.Mentions id id := by
  obtain ⟨reported, passed, silent, _⟩ := cyclicStructs_are_exact (build rings).1
  have found : (build rings).1.cyclicStructs = [ringId "Left", ringId "Right"] := by decide +kernel
  refine ⟨found, reported _ (found ▸ List.mem_cons_self), passed _ ?_ (by simp), ?_⟩
  · have back : ringId "Right" ∈ (build rings).1.containedIn (ringId "Top") := by decide +kernel
    have up : ringId "Top" ∈ (build rings).1.containedIn (ringId "Right") := by decide +kernel
    simpa [← contains_iff_mentions] using ⟨back, up⟩
  · intro acyclic
    rw [silent.mpr acyclic] at found
    cases found

end Universe

end Custody
