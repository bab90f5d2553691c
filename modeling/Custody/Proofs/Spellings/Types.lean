import Custody.Proofs.Types.Plain
import Custody.Spelling.Types
/-!
# Types are spelled as they are displayed

The reader of types goes over a text from the left, over blanks and one mark or name after another.
What it goes over is accounted for character by character: blanks apart, it is the displayed form of
the type that comes out. Conversely the displayed form of a type that can be spelled is read back as
the type.

The reader counts its steps, so that it is seen to end. The count it starts with is no restriction:
with more steps it answers the same.
-/

namespace Custody

variable {chars mid rest text more : List Char}

/-! ## Going over a text -/

namespace Text

/-- A text without its blanks. -/
def bare (chars : List Char) : List Char := chars.filter (!isBlank ·)

@[simp] theorem bare_append (front rest : List Char) :
    bare (front ++ rest) = bare front ++ bare rest :=
  List.filter_append ..

/-- Between the text and its rest stands, blanks apart, what was taken. -/
def Takes (chars taken rest : List Char) : Prop := ∃ front, chars = front ++ rest ∧
    bare front = taken

theorem Takes.trans (first : Takes chars text mid) (second : Takes mid more rest) :
    Takes chars (text ++ more) rest := by
  obtain ⟨front, rfl, rfl⟩ := first
  obtain ⟨behind, rfl, rfl⟩ := second
  exact ⟨front ++ behind, by simp, by simp⟩

theorem Takes.length_le (takes : Takes chars text rest) :
    text.length + rest.length ≤ chars.length := by
  obtain ⟨front, rfl, rfl⟩ := takes
  have shorter := List.length_filter_le (!isBlank ·) front
  rw [List.length_append]
  exact Nat.add_le_add_right shorter _

theorem Takes.bare_eq (takes : Takes chars text rest) : bare chars = text ++ bare rest := by
  obtain ⟨front, rfl, rfl⟩ := takes
  exact bare_append front rest

theorem takes_trimLeft (chars : List Char) : Takes chars [] (trimLeft chars) := by
  induction chars with
  | nil => exact ⟨[], rfl, rfl⟩
  | cons c chars ih =>
    unfold trimLeft
    split
    · rename_i blank
      obtain ⟨front, same, none⟩ := ih
      refine ⟨c :: front, by rw [List.cons_append, ← same], ?_⟩
      simpa [bare, blank] using none
    · exact ⟨[], rfl, rfl⟩

/-- What starts behind blanks is taken with them. -/
theorem takes_of_trimLeft (trimmed : trimLeft chars = text ++ rest) (solid : bare text = text) :
    Takes chars text rest := by
  have front : Takes chars [] (text ++ rest) := trimmed ▸ takes_trimLeft chars
  exact front.trans ⟨text, rfl, solid⟩

theorem bare_of_trim (empty : trim chars = []) : bare chars = [] := by
  have left : trimLeft (trimLeft chars).reverse = [] := by simpa [trim] using empty
  have none : bare (trimLeft chars).reverse = [] := by
    simpa [left, bare] using (takes_trimLeft (trimLeft chars).reverse).bare_eq
  have reversed : bare (trimLeft chars) = [] := by simpa [bare] using none
  simpa [reversed] using (takes_trimLeft chars).bare_eq

end Text

open Text (bare Takes takes_of_trimLeft trimLeft)

namespace Ty

/-! ## Types that can be spelled -/

/-- A name that the reader takes for one. -/
def isName (name : String) : Bool := !name.toList.isEmpty && name.toList.all isNameChar

/-- Names that stand for types of their own, so that no module of such a name can be spelled. -/
def reserved : List String := ["bool", "u8", "u64", "u128", "address", "signer", "vector"]

mutual

/-- Types built from those with a word of their own by vectors and by structs with names. -/
def isSpelled : Ty → Bool
  | .bool | .u8 | .u64 | .u128 | .address | .signer => true
  | .vector elem => isSpelled elem
  | .struct id args =>
    isName id.module && !reserved.contains id.module && isName id.name && allSpelled args
  | .unit | .param _ _ | .ref _ _ => false

/-- Every type is such a one. -/
def allSpelled : List Ty → Bool
  | [] => true
  | ty :: types => isSpelled ty && allSpelled types

end

/-- Types as they are displayed between brackets. -/
def renderListed : List Ty → String
  | [] => ""
  | ty :: types => render ty ++ renderTail types

/-- The arguments as they are displayed. -/
def renderArgs : List Ty → String
  | [] => ""
  | ty :: types => "<" ++ renderListed (ty :: types) ++ ">"

theorem renderListed_cons (ty second : Ty) (types : List Ty) :
    renderListed (ty :: second :: types) = ty.render ++ ", " ++ renderListed (second :: types) := by
  simp [renderListed, renderTail, String.append_assoc]

theorem render_struct (id : StructId) (args : List Ty) :
    render (.struct id args) = id.module ++ "::" ++ id.name ++ renderArgs args := by
  cases args with
  | nil => simp [render, QualifiedName.render, renderArgs]
  | cons arg args => simp [render, QualifiedName.render, renderArgs, renderListed,
      String.append_assoc]

theorem render_vector (elem : Ty) : render (.vector elem) = "vector" ++ renderArgs [elem] := by
  rw [← String.toList_inj]
  simp [render, renderArgs, renderListed, renderTail]

theorem isBlank_of_isNameChar {c : Char} (named : isNameChar c = true) :
    Text.isBlank c = false := by
  have small : c.toNat < 123 := by
    have bound : ∀ last : Char, c ≤ last → c.toNat ≤ last.toNat := fun _ below => below
    simp only [isNameChar, Bool.or_eq_true, Bool.and_eq_true, decide_eq_true_eq] at named
    rcases named with ((⟨_, top⟩ | ⟨_, top⟩) | ⟨_, top⟩) | rfl
    · exact Nat.lt_of_le_of_lt (bound _ top) (by decide)
    · exact Nat.lt_of_le_of_lt (bound _ top) (by decide)
    · exact Nat.lt_of_le_of_lt (bound _ top) (by decide)
    · decide
  have tried : ∀ n < 123, isNameChar (Char.ofNat n) = true → Text.isBlank
      (Char.ofNat n) = false := by
    decide
  simpa using tried c.toNat small (by simpa using named)

theorem bare_of_isNameChar (named : ∀ c ∈ text, isNameChar c = true) : bare text = text := by
  refine List.filter_eq_self.mpr fun c member => ?_
  rw [isBlank_of_isNameChar (named c member)]
  rfl

theorem isName_iff {name : String} :
    isName name = true ↔ name.toList ≠ [] ∧ ∀ c ∈ name.toList, isNameChar c = true := by
  simp [isName]

theorem ofWord?_eq_some {word : String} {ty : Ty} (found : ofWord? word = some ty) :
    ty.isSpelled = true ∧ ty.render = word := by
  unfold ofWord? at found
  split at found <;> cases found
  all_goals exact ⟨rfl, rfl⟩

theorem reserved_eq_false_iff {word : String} :
    reserved.contains word = false ↔ ofWord? word = none ∧ word ≠ "vector" := by
  unfold ofWord?
  split
  all_goals simp_all [reserved]

/-! ## What is read was there -/

theorem takes_readName {name : String} (read : readName chars = .ok (name, rest)) :
    isName name = true ∧ Takes chars name.toList rest := by
  unfold readName at read
  dsimp only at read
  split at read
  · cases read
  · rename_i front none
    obtain ⟨rfl, rfl⟩ := Prod.mk.inj (Except.ok.inj read)
    have named : ∀ c ∈ (trimLeft chars).takeWhile isNameChar, isNameChar c = true :=
      List.all_eq_true.mp List.all_takeWhile
    rw [isName_iff, String.toList_ofList]
    refine ⟨⟨none, named⟩, ?_⟩
    exact takes_of_trimLeft List.takeWhile_append_dropWhile.symm (bare_of_isNameChar named)

theorem takes_eat? {mark : List Char} (ate : eat? mark chars = some rest)
    (solid : bare mark = mark) : Takes chars mark rest := by
  unfold eat? at ate
  dsimp only at ate
  split at ate
  · rename_i stands
    obtain rfl := Option.some.inj ate
    have whole := List.prefix_iff_eq_append.mp (List.isPrefixOf_iff_prefix.mp stands)
    exact takes_of_trimLeft whole.symm solid
  · cases ate

mutual

/-- Every character that the reader went over is in the displayed type, or a blank. -/
theorem takes_readType : (steps : Nat) → {chars rest : List Char} → {ty : Ty} →
    readType steps chars = .ok (ty, rest) →
      ty.isSpelled = true ∧ Takes chars (bare ty.render.toList) rest
  | 0, _, _, _, read => by
    rw [readType] at read
    cases read
  | steps + 1, chars, rest, ty, read => by
    rw [readType] at read
    obtain ⟨⟨head, mid⟩, named, read⟩ := Universe.bind_eq_ok read
    obtain ⟨nameHead, takesHead⟩ := takes_readName named
    have solid := bare_of_isNameChar (isName_iff.mp nameHead).2
    dsimp only at read
    split at read
    · rename_i found
      obtain ⟨rfl, rfl⟩ := Prod.mk.inj (Except.ok.inj read)
      obtain ⟨spelled, shown⟩ := ofWord?_eq_some found
      exact ⟨spelled, by rwa [shown, solid]⟩
    · rename_i noWord
      split at read
      · rename_i vector
        obtain ⟨⟨args, behind⟩, readArgs, read⟩ := Universe.bind_eq_ok read
        obtain ⟨spelled, takesArgs⟩ := takes_readArgs steps readArgs
        split at read
        · rename_i elem after single
          obtain ⟨rfl, rfl⟩ := Prod.mk.inj single
          obtain ⟨rfl, rfl⟩ := Prod.mk.inj (Except.ok.inj read)
          refine ⟨by simpa [isSpelled, allSpelled] using spelled, ?_⟩
          have taken := takesHead.trans takesArgs
          rw [← solid, ← Text.bare_append, vector, ← String.toList_append, ← render_vector] at taken
          exact taken
        · cases read
      · rename_i noVector
        split at read
        · cases read
        · rename_i behind ate
          obtain ⟨⟨name, after⟩, namedName, read⟩ := Universe.bind_eq_ok read
          obtain ⟨⟨args, last⟩, readArgs, read⟩ := Universe.bind_eq_ok read
          obtain ⟨rfl, rfl⟩ := Prod.mk.inj (Except.ok.inj read)
          obtain ⟨nameName, takesName⟩ := takes_readName namedName
          obtain ⟨spelled, takesArgs⟩ := takes_readArgs steps readArgs
          have free := reserved_eq_false_iff.mpr ⟨noWord, noVector⟩
          refine ⟨by simp only [isSpelled, nameHead, free, nameName, spelled]; rfl, ?_⟩
          have taken := ((takesHead.trans (takes_eat? ate rfl)).trans takesName).trans takesArgs
          have solidName := bare_of_isNameChar (isName_iff.mp nameName).2
          simp only [render_struct, String.toList_append, Text.bare_append, solid, solidName]
          exact taken

theorem takes_readArgs : (steps : Nat) → {chars rest : List Char} → {args : List Ty} →
    readArgs steps chars = .ok (args, rest) →
      allSpelled args = true ∧ Takes chars (bare (renderArgs args).toList) rest
  | 0, _, _, _, read => by
    rw [readArgs] at read
    cases read
  | steps + 1, chars, rest, args, read => by
    rw [readArgs] at read
    split at read
    · obtain ⟨rfl, rfl⟩ := Prod.mk.inj (Except.ok.inj read)
      exact ⟨rfl, [], rfl, rfl⟩
    · rename_i behind ate
      obtain ⟨nonempty, spelled, takesList⟩ := takes_readList steps read
      refine ⟨spelled, ?_⟩
      have taken := (takes_eat? ate rfl).trans takesList
      cases args with
      | nil => exact absurd rfl nonempty
      | cons ty types =>
        simp only [renderArgs, String.toList_append, Text.bare_append, List.append_assoc] at taken ⊢
        exact taken

theorem takes_readList : (steps : Nat) → {chars rest : List Char} → {types : List Ty} →
    readList steps chars = .ok (types, rest) → types ≠ [] ∧ allSpelled types = true ∧
      Takes chars (bare (renderListed types ++ ">").toList) rest
  | 0, _, _, _, read => by
    rw [readList] at read
    cases read
  | steps + 1, chars, rest, types, read => by
    rw [readList] at read
    obtain ⟨⟨ty, mid⟩, readTy, read⟩ := Universe.bind_eq_ok read
    obtain ⟨spelled, takesTy⟩ := takes_readType steps readTy
    dsimp only at read
    split at read
    · rename_i behind ate
      obtain ⟨rfl, rfl⟩ := Prod.mk.inj (Except.ok.inj read)
      refine ⟨by simp, by simp [allSpelled, spelled], ?_⟩
      have taken := takesTy.trans (takes_eat? ate rfl)
      simp only [renderListed, renderTail, String.toList_append, Text.bare_append,
        List.append_assoc]
      exact taken
    · split at read
      · cases read
      · rename_i behind ate
        obtain ⟨⟨later, last⟩, readLater, read⟩ := Universe.bind_eq_ok read
        obtain ⟨rfl, rfl⟩ := Prod.mk.inj (Except.ok.inj read)
        obtain ⟨nonempty, spelledLater, takesLater⟩ := takes_readList steps readLater
        refine ⟨by simp, by rw [allSpelled, spelled, spelledLater]; rfl, ?_⟩
        have taken := (takesTy.trans (takes_eat? ate rfl)).trans takesLater
        cases later with
        | nil => exact absurd rfl nonempty
        | cons second others =>
          rw [renderListed_cons]
          simp only [String.toList_append, Text.bare_append, List.append_assoc] at taken ⊢
          exact taken

end

/-! ## What is displayed is read -/

/-- What may stand behind a type: nothing, or a mark that divides or closes. -/
def Closes (rest : List Char) : Prop := ∀ c ∈ rest.head?, c = '>' ∨ c = ','

theorem readName_of_trimLeft {name : String} (named : isName name = true)
    (ends : ∀ c ∈ rest.head?, isNameChar c = false)
    (trimmed : trimLeft chars = name.toList ++ rest) : readName chars = .ok (name, rest) := by
  obtain ⟨nonempty, each⟩ := isName_iff.mp named
  have front : (name.toList ++ rest).takeWhile isNameChar = name.toList := by
    rw [List.takeWhile_append_of_pos each]
    cases rest with
    | nil => simp
    | cons c rest => simp [ends c rfl]
  have behind : (name.toList ++ rest).dropWhile isNameChar = rest := by
    rw [List.dropWhile_append_of_pos each]
    cases rest with
    | nil => rfl
    | cons c rest => simp [ends c rfl]
  simp only [readName, trimmed, front, behind]
  rw [String.ofList_toList]

theorem eat?_of_trimLeft {mark : List Char} (trimmed : trimLeft chars = mark ++ rest) :
    eat? mark chars = some rest := by
  simp [eat?, trimmed]

theorem eat?_eq_none {mark : Char} (other : ∀ c ∈ (trimLeft chars).head?, c ≠ mark) :
    eat? [mark] chars = none := by
  unfold eat?
  cases whole : trimLeft chars with
  | nil => rfl
  | cons c others =>
    have differs : mark ≠ c := fun same => other c (by rw [whole]; rfl) same.symm
    simp [differs]

theorem trimLeft_of_head (solid : ∀ c ∈ chars.head?, Text.isBlank c = false) :
    trimLeft chars = chars := by
  cases chars with
  | nil => rfl
  | cons c chars => simp [trimLeft, solid c rfl]

theorem Closes.trimLeft (closes : Closes rest) : Text.trimLeft rest = rest := by
  refine trimLeft_of_head fun c first => ?_
  rcases closes c first with rfl | rfl <;> rfl

theorem trimLeft_name {name : String} (named : isName name = true) (rest : List Char) :
    trimLeft (name.toList ++ rest) = name.toList ++ rest := by
  obtain ⟨nonempty, each⟩ := isName_iff.mp named
  refine trimLeft_of_head fun c first => ?_
  cases whole : name.toList with
  | nil => exact absurd whole nonempty
  | cons d others =>
    rw [whole] at first
    cases first
    exact isBlank_of_isNameChar (each c (by simp [whole]))

/-- A displayed type starts with a name. -/
theorem trimLeft_render {ty : Ty} (spelled : ty.isSpelled = true) (rest : List Char) :
    trimLeft (ty.render.toList ++ rest) = ty.render.toList ++ rest := by
  cases ty with
  | struct id args =>
    simp only [isSpelled, Bool.and_eq_true] at spelled
    simp only [render_struct, String.toList_append, List.append_assoc]
    exact trimLeft_name spelled.1.1.1 _
  | vector elem =>
    rw [render_vector, String.toList_append, List.append_assoc]
    exact trimLeft_name (by decide) _
  | unit | param _ _ | ref _ _ => cases spelled
  | _ => exact trimLeft_name (by decide) rest

theorem trimLeft_listed {ty : Ty} (types : List Ty) (spelled : ty.isSpelled = true)
    (rest : List Char) :
    trimLeft ((renderListed (ty :: types)).toList ++ rest) =
      (renderListed (ty :: types)).toList ++ rest := by
  rw [renderListed, String.toList_append, List.append_assoc]
  exact trimLeft_render spelled _

theorem Closes.not_name (closes : Closes rest) : ∀ c ∈ rest.head?, isNameChar c = false := by
  intro c first
  rcases closes c first with rfl | rfl <;> rfl

theorem closes_cons {c : Char} (mark : c = '>' ∨ c = ',') : Closes (c :: rest) := by
  intro first same
  cases same
  exact mark

section Steps

variable {steps : Nat} {ty : Ty} {types : List Ty}

theorem readType_word (named : isName ty.render = true) (word : ofWord? ty.render = some ty)
    (trimmed : trimLeft chars = ty.render.toList ++ rest) (closes : Closes rest) :
    readType (steps + 1) chars = .ok (ty, rest) := by
  rw [readType, readName_of_trimLeft named closes.not_name trimmed]
  simp only [bind, Except.bind, word]
  rfl

theorem readType_vector (trimmed : trimLeft chars = "vector".toList ++ '<' :: mid)
    (read : readArgs steps ('<' :: mid) = .ok ([ty], rest)) :
    readType (steps + 1) chars = .ok (.vector ty, rest) := by
  rw [readType, readName_of_trimLeft (by decide) (fun c first => by cases first; rfl) trimmed]
  change (readArgs steps ('<' :: mid) >>= _) = _
  rw [read]
  rfl

theorem readType_struct {id : StructId} (module : isName id.module = true)
    (free : reserved.contains id.module = false) (name : isName id.name = true)
    (ends : ∀ c ∈ mid.head?, isNameChar c = false)
    (trimmed : trimLeft chars = id.module.toList ++ ([':', ':'] ++ (id.name.toList ++ mid)))
    (read : readArgs steps mid = .ok (types, rest)) :
    readType (steps + 1) chars = .ok (.struct id types, rest) := by
  obtain ⟨noWord, noVector⟩ := reserved_eq_false_iff.mp free
  have named := readName_of_trimLeft module (fun c first => by cases first; rfl) trimmed
  have ate : eat? [':', ':'] ([':', ':'] ++ (id.name.toList ++ mid)) = some
      (id.name.toList ++ mid) :=
    eat?_of_trimLeft (trimLeft_of_head fun c first => by cases first; rfl)
  have namedName := readName_of_trimLeft name ends (trimLeft_name name mid)
  rw [readType, named]
  simp only [bind, Except.bind, noWord, noVector, if_false, ate, namedName, read]
  rfl

theorem readArgs_none (closes : Closes rest) : readArgs (steps + 1) rest = .ok ([], rest) := by
  have none : eat? ['<'] rest = none := by
    apply eat?_eq_none
    rw [closes.trimLeft]
    intro c first same
    rcases closes c first with rfl | rfl <;> cases same
  rw [readArgs, none]

theorem readArgs_list (read : readList steps mid = .ok (types, rest)) :
    readArgs (steps + 1) ('<' :: mid) = .ok (types, rest) := by
  have ate : eat? ['<'] ('<' :: mid) = some mid := eat?_of_trimLeft rfl
  rw [readArgs, ate]
  exact read

theorem readList_last (read : readType steps chars = .ok (ty, '>' :: rest)) :
    readList (steps + 1) chars = .ok ([ty], rest) := by
  rw [readList, read]
  rfl

theorem readList_more (read : readType steps chars = .ok (ty, ',' :: mid))
    (later : readList steps mid = .ok (types, rest)) :
    readList (steps + 1) chars = .ok (ty :: types, rest) := by
  rw [readList, read]
  change (readList steps mid >>= _) = _
  rw [later]
  rfl

end Steps

mutual

/-- The displayed form is read back, from behind any blanks and in front of what closes it. -/
theorem readType_render : (ty : Ty) → ty.isSpelled = true → ∀ {steps : Nat}
    {chars rest : List Char}, trimLeft chars = ty.render.toList ++ rest → Closes rest →
    2 * ty.render.toList.length ≤ steps →
      readType steps chars = .ok (ty, rest)
  | .bool, _, steps + 1, _, _, trimmed, closes, _ | .u8, _, steps + 1, _, _, trimmed, closes, _
  | .u64, _, steps + 1, _, _, trimmed, closes, _ | .u128, _, steps + 1, _, _, trimmed, closes, _
  | .address, _, steps + 1, _, _, trimmed, closes, _
  | .signer, _, steps + 1, _, _, trimmed, closes, _ =>
    readType_word (by decide) rfl trimmed closes
  | .vector elem, spelled, steps, chars, rest, trimmed, closes, enough => by
    have long : 8 + elem.render.toList.length ≤ (render (.vector elem)).toList.length := by
      simp [render]
      omega
    obtain ⟨steps, rfl⟩ : ∃ fewer, steps = fewer + 3 := ⟨steps - 3, by omega⟩
    have inner : elem.isSpelled = true := spelled
    have read := readType_render elem inner (trimLeft_render inner ('>' :: rest))
      (closes_cons (.inl rfl)) (by omega : _ ≤ steps)
    refine readType_vector ?_ (readArgs_list (readList_last read))
    simpa [render] using trimmed
  | .struct id args, spelled, steps, chars, rest, trimmed, closes, enough => by
    simp only [isSpelled, Bool.and_eq_true, Bool.not_eq_true'] at spelled
    obtain ⟨⟨⟨module, free⟩, name⟩, spelledArgs⟩ := spelled
    rw [render_struct] at trimmed enough
    have nonempty := List.length_pos_iff.mpr (isName_iff.mp module).1
    simp only [String.toList_append, List.length_append] at enough
    obtain ⟨steps, rfl⟩ : ∃ fewer, steps = fewer + 2 := ⟨steps - 2, by omega⟩
    have ends : ∀ c ∈ ((renderArgs args).toList ++ rest).head?, isNameChar c = false := by
      cases args with
      | nil => exact closes.not_name
      | cons ty types =>
        intro c first
        simp [renderArgs] at first
        exact first ▸ rfl
    refine readType_struct module free name ends ?_ ?_
    · simpa using trimmed
    · cases args with
      | nil => exact readArgs_none closes
      | cons ty types =>
        have inner := spelledArgs
        simp only [allSpelled, Bool.and_eq_true] at inner
        have marks : (renderArgs (ty :: types)).toList =
            '<' :: ((renderListed (ty :: types)).toList ++ ['>']) := by simp [renderArgs]
        rw [marks, List.length_cons, List.length_append] at enough
        rw [marks, List.cons_append, List.append_assoc]
        exact readArgs_list (readList_render (ty :: types) (by simp) spelledArgs
          (trimLeft_listed types inner.1 _) (by omega))
  | .unit, spelled, _, _, _, _, _, _ | .param _ _, spelled, _, _, _, _, _, _
  | .ref _ _, spelled, _, _, _, _, _, _ => by cases spelled

theorem readList_render : (types : List Ty) → types ≠ [] → allSpelled types = true →
    ∀ {steps : Nat} {chars rest : List Char},
    trimLeft chars = (renderListed types).toList ++ '>' :: rest →
      2 * (renderListed types).toList.length + 1 ≤ steps → readList steps chars = .ok (types, rest)
  | [], nonempty, _, _, _, _, _, _ => absurd rfl nonempty
  | [ty], _, spelled, steps + 1, chars, rest, trimmed, enough => by
    have inner : ty.isSpelled = true := by simpa [allSpelled] using spelled
    simp only [renderListed, renderTail, String.append_empty] at trimmed enough
    exact readList_last (readType_render ty inner trimmed (closes_cons (.inl rfl)) (by omega))
  | ty :: second :: types, _, spelled, steps + 1, chars, rest, trimmed, enough => by
    simp only [allSpelled, Bool.and_eq_true] at spelled
    obtain ⟨inner, innerSecond, innerTypes⟩ := spelled
    have later : allSpelled (second :: types) = true :=
      by simp [allSpelled, innerSecond, innerTypes]
    rw [renderListed_cons] at trimmed enough
    simp only [String.toList_append, List.length_append, List.append_assoc] at trimmed enough
    have comma : ", ".toList.length = 2 := by decide
    refine readList_more (readType_render ty inner trimmed (closes_cons (.inr rfl)) (by omega)) ?_
    -- The blank behind the comma is skipped by whoever reads next.
    exact readList_render (second :: types) (by simp) later (trimLeft_listed types innerSecond _)
      (by omega)

end

/-! ## Steps -/

theorem length_readName {name : String} (read : readName chars = .ok (name, rest)) :
    rest.length < chars.length := by
  obtain ⟨named, takes⟩ := takes_readName read
  have nonempty := List.length_pos_iff.mpr (isName_iff.mp named).1
  have all := takes.length_le
  omega

theorem length_eat? {mark : Char} (ate : eat? [mark] chars = some rest)
    (solid : bare [mark] = [mark]) : rest.length < chars.length := by
  have all := (takes_eat? ate solid).length_le
  rw [List.length_singleton] at all
  omega

theorem readName_ne_unfinished (chars : List Char) : readName chars ≠ .error .unfinished := by
  unfold readName
  dsimp only
  split <;> simp

theorem error_ne_unfinished {α β : Type} {first : Except SpellingFault α} {fault : SpellingFault}
    (finished : first ≠ .error .unfinished) (refused : first = .error fault) :
    (.error fault : Except SpellingFault β) ≠ .error .unfinished := by
  rintro ⟨⟩
  exact finished refused

theorem bind_ne_unfinished {α β : Type} {first : Except SpellingFault α}
    {next : α → Except SpellingFault β} (finished : first ≠ .error .unfinished)
    (later : ∀ found, next found ≠ .error .unfinished) : (first >>= next) ≠ .error .unfinished := by
  cases refused : first with
  | error fault => exact error_ne_unfinished finished refused
  | ok found => exact later found

/-- The reader does not run out of these steps, and one more makes no difference. -/
def Settled {α : Type} (reader : Nat → List Char → Except SpellingFault α) (steps : Nat)
    (chars : List Char) : Prop :=
  reader (steps + 1) chars = reader steps chars ∧ reader steps chars ≠ .error .unfinished

mutual

theorem settled_readType : (steps : Nat) → {chars : List Char} → 2 * chars.length + 1 ≤ steps →
    Settled readType steps chars
  | 0, _, enough => by omega
  | steps + 1, chars, enough => by
    rw [Settled, readType, readType]
    cases named : readName chars with
    | error fault => exact ⟨rfl, error_ne_unfinished (readName_ne_unfinished chars) named⟩
    | ok entry =>
      obtain ⟨head, mid⟩ := entry
      have shorter := length_readName named
      have args : Settled readArgs steps mid := settled_readArgs steps (by omega)
      simp only [bind, Except.bind]
      cases ofWord? head with
      | some ty => exact ⟨rfl, by simp [pure, Except.pure]⟩
      | none =>
        by_cases vector : head = "vector"
        · simp only [if_pos vector, args.1, true_and]
          refine bind_ne_unfinished args.2 fun found => ?_
          split <;> simp [pure, Except.pure]
        · simp only [if_neg vector]
          cases ate : eat? [':', ':'] mid with
          | none => simp
          | some behind =>
            have behindMid := (takes_eat? ate rfl).length_le
            cases again : readName behind with
            | error fault =>
              simp only [again, true_and]
              exact error_ne_unfinished (readName_ne_unfinished behind) again
            | ok entry =>
              have afterBehind := length_readName again
              have args : Settled readArgs steps entry.2 := settled_readArgs steps (by omega)
              simp only [again, args.1, true_and]
              exact bind_ne_unfinished args.2 fun found => by simp [pure, Except.pure]

theorem settled_readArgs : (steps : Nat) → {chars : List Char} → 2 * chars.length + 2 ≤ steps →
    Settled readArgs steps chars
  | 0, _, enough => by omega
  | steps + 1, chars, enough => by
    rw [Settled, readArgs, readArgs]
    split
    · simp
    · rename_i rest ate
      have shorter := length_eat? ate rfl
      exact settled_readList steps (by omega)

theorem settled_readList : (steps : Nat) → {chars : List Char} → 2 * chars.length + 2 ≤ steps →
    Settled readList steps chars
  | 0, _, enough => by omega
  | steps + 1, chars, enough => by
    obtain ⟨more, finished⟩ : Settled readType steps chars := settled_readType steps (by omega)
    rw [Settled, readList, readList, more]
    cases read : readType steps chars with
    | error fault => exact ⟨rfl, error_ne_unfinished finished read⟩
    | ok entry =>
      obtain ⟨ty, mid⟩ := entry
      have midChars := (takes_readType steps read).2.length_le
      simp only [bind, Except.bind]
      cases eat? ['>'] mid with
      | some rest => simp [pure, Except.pure]
      | none =>
        cases ate : eat? [','] mid with
        | none => simp
        | some behind =>
          have behindMid := length_eat? ate rfl
          have later : Settled readList steps behind := settled_readList steps (by omega)
          simp only [later.1, true_and]
          exact bind_ne_unfinished later.2 fun found => by simp [pure, Except.pure]

end

theorem readType_of_le {steps : Nat} (enough : 2 * chars.length + 2 ≤ steps) :
    readType steps chars = readType (2 * chars.length + 2) chars := by
  obtain ⟨more, rfl⟩ := Nat.exists_eq_add_of_le enough
  clear enough
  induction more with
  | zero => rfl
  | succ more ih => rw [← Nat.add_assoc, (settled_readType _ (by omega)).1, ih]

/-! ## Reading and displaying -/

theorem parse_eq_ok {source : String} {ty : Ty} (read : parse source = .ok ty) :
    ty.isSpelled = true ∧ bare source.toList = bare ty.render.toList := by
  dsimp only [parse] at read
  cases went : readType (2 * source.toList.length + 2) source.toList with
  | error fault =>
    rw [went] at read
    cases read
  | ok entry =>
    obtain ⟨found, rest⟩ := entry
    rw [went] at read
    obtain ⟨spelled, takes⟩ := takes_readType _ went
    simp only [bind, Except.bind] at read
    split at read
    · rename_i blank
      obtain rfl : found = ty := Except.ok.inj read
      refine ⟨spelled, ?_⟩
      rw [takes.bare_eq, Text.bare_of_trim blank, List.append_nil]
    · cases read

theorem parse_render {ty : Ty} (spelled : ty.isSpelled = true) : parse ty.render = .ok ty := by
  have trimmed := trimLeft_render spelled []
  rw [List.append_nil] at trimmed
  have read : readType (2 * ty.render.toList.length + 2) ty.render.toList = .ok (ty, []) :=
    readType_render ty spelled (by rw [trimmed, List.append_nil]) (fun c first => by cases first)
      (by omega)
  dsimp only [parse]
  rw [read]
  rfl

/-- A type can be spelled exactly if its displayed form is read back as the type. Whatever is read
as a type is the displayed form of the type, blanks apart. The reader ends by itself: its count of
steps is large enough for every text, so that it never runs out of them and answers as it would with
more. -/
theorem parsing_inverts_rendering :
    (∀ ty : Ty, ty.isSpelled = true ↔ parse ty.render = .ok ty) ∧
      (∀ source ty, parse source = .ok ty →
        ty.isSpelled = true ∧ bare source.toList = bare ty.render.toList) ∧
      ∀ (chars : List Char) (steps : Nat), 2 * chars.length + 2 ≤ steps →
        readType steps chars = readType (2 * chars.length + 2) chars ∧
          readType steps chars ≠ .error .unfinished :=
  ⟨fun _ => ⟨parse_render, fun read => (parse_eq_ok read).1⟩, fun _ _ => parse_eq_ok,
    fun _ steps enough => ⟨readType_of_le enough, (settled_readType steps (by omega)).2⟩⟩

/-- Blanks may stand between all parts, of whatever kind they are. -/
theorem nested_spelling_is_read :
    ∃ ty, parse " Bank :: Box<Bank::Coin,\tvector < address\u3000> > " = .ok ty ∧
      bare ty.render.toList = "Bank::Box<Bank::Coin,vector<address>>".toList ∧
        parse ty.render = .ok ty := by
  obtain ⟨reads, shows, _⟩ := parsing_inverts_rendering
  have read : parse " Bank :: Box<Bank::Coin,\tvector < address\u3000> > " =
      .ok (.struct ⟨"Bank", "Box"⟩ [.struct ⟨"Bank", "Coin"⟩ [], .vector .address]) := by rfl
  obtain ⟨spelled, same⟩ := shows _ _ read
  exact ⟨_, read, by rw [← same]; decide, (reads _).mp spelled⟩

end Ty

end Custody
