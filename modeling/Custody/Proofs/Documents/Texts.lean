import Custody.Json.Reader
import Custody.Json.Writer
/-!
# Written JSON is read back

The form with one element per line is read back as the value it was written from. Numbers have to be
naturals and texts have to have a value, as in all documents of this library. How deep a value nests
plays no part here: the reader of texts takes any depth, and decoders count the brackets afterwards.
-/

namespace Custody

variable {rest : List Char} {digit : Nat} {chars tail : List Char} {first : Char}

/-! ## Digits -/

namespace Text

/-- The digit values of a number, most significant first and without leading zeros. -/
structure Spells (base n : Nat) (digits : List Nat) : Prop where
  below : ∀ digit ∈ digits, digit < base
  value : ofDigits base digits = n
  lead : digits = [0] ∨ ∃ first rest, digits = first :: rest ∧ 0 < first

theorem ofDigits_concat (base : Nat) (digits : List Nat) (last : Nat) :
    ofDigits base (digits ++ [last]) = ofDigits base digits * base + last := by
  simp [ofDigits]

theorem toDigits_spells {base : Nat} (large : 1 < base) (n : Nat) :
    ∃ digits, Nat.toDigits base n = digits.map Nat.digitChar ∧ Spells base n digits := by
  induction n using Nat.strongRecOn with
  | ind n ih =>
    rw [Nat.toDigits_eq_if large]
    split
    next small =>
      refine ⟨[n], rfl, by simpa using small, by simp [ofDigits], ?_⟩
      cases n with
      | zero => exact .inl rfl
      | succ n => exact .inr ⟨n + 1, [], rfl, Nat.succ_pos n⟩
    next reaches =>
      have positive : 0 < n / base := Nat.div_pos (Nat.le_of_not_lt reaches) (by omega)
      have smaller : n / base < n := Nat.div_lt_self (by omega) large
      obtain ⟨digits, written, spells⟩ := ih (n / base) smaller
      refine ⟨digits ++ [n % base], by simp [written], ?_, ?_, ?_⟩
      · intro digit member
        rcases List.mem_append.mp member with front | last
        · exact spells.below digit front
        · rw [List.mem_singleton.mp last]
          exact Nat.mod_lt n (by omega)
      · rw [ofDigits_concat, spells.value, Nat.div_add_mod']
      · rcases spells.lead with zero | ⟨first, rest, same, leads⟩
        · have empty := spells.value
          rw [zero] at empty
          simp [ofDigits] at empty
          omega
        · exact .inr ⟨first, rest ++ [n % base], by rw [same]; rfl, leads⟩

theorem digitValue?_digitChar (below : digit < 10) :
    Json.digitValue? digit.digitChar = some digit := by
  revert digit
  decide

end Text

namespace Json

/-! ## Numbers -/

/-- What stands behind a written value: nothing that would go on with a number. -/
def Delimited (rest : List Char) : Prop :=
  rest = [] ∨ ∃ tail, rest = ',' :: tail ∨ rest = '\n' :: tail

theorem spanDigits_delimited (seen : List Nat) (delimited : Delimited rest) :
    spanDigits seen rest = (seen.reverse, rest) := by
  rcases delimited with rfl | ⟨tail, rfl | rfl⟩ <;> rfl

theorem spanDigits_digits (digits seen : List Nat) (below : ∀ digit ∈ digits, digit < 10)
    (delimited : Delimited rest) :
    spanDigits seen (digits.map Nat.digitChar ++ rest) = (seen.reverse ++ digits, rest) := by
  induction digits generalizing seen with
  | nil => simpa using spanDigits_delimited seen delimited
  | cons digit digits ih =>
    have first := Text.digitValue?_digitChar (below digit (by simp))
    have others : ∀ other ∈ digits, other < 10 := fun other member => below other (by simp [member])
    simp [spanDigits, first, ih _ others]

theorem readWhole_digitChars (n : Nat) (delimited : Delimited rest) :
    readWhole (digitChars n ++ rest) = some (n, rest) := by
  obtain ⟨digits, written, spells⟩ := Text.toDigits_spells (by decide : 1 < 10) n
  have spanned := spanDigits_digits digits [] spells.below delimited
  rw [digitChars, written, readWhole, spanned]
  rcases spells.lead with zero | ⟨first, rest', same, leads⟩
  · have value := spells.value
    subst zero
    simpa [Text.ofDigits] using value
  · have value := spells.value
    subst same
    cases first with
    | zero => cases leads
    | succ first => simpa using value

theorem readNumber_digit {first : Nat} (below : first < 10) (tail : List Char) :
    readNumber (first.digitChar :: tail) = readMagnitude false (first.digitChar :: tail) := by
  have mark : first.digitChar ≠ '-' := by
    revert first
    decide
  unfold readNumber
  split
  next same => exact absurd (List.cons.inj same).1 mark
  next => rfl

/-- A natural starts with a digit, and is read back whatever stands behind it. -/
theorem readNumber_writeNumber (n : Nat) (delimited : Delimited rest) :
    ∃ first tail, first < 10 ∧ writeNumber { whole := n } ++ rest = first.digitChar :: tail ∧
      readNumber (first.digitChar :: tail) = some ({ whole := n }, rest) := by
  have written : writeNumber { whole := n } = digitChars n := by simp [writeNumber]
  have whole := readWhole_digitChars n delimited
  obtain ⟨digits, spelled, spells⟩ := Text.toDigits_spells (by decide : 1 < 10) n
  have leads : ∃ first others, digits = first :: others := by
    rcases spells.lead with zero | ⟨first, others, same, _⟩
    · exact ⟨0, [], zero⟩
    · exact ⟨first, others, same⟩
  obtain ⟨first, others, same⟩ := leads
  have small : first < 10 := spells.below first (by simp [same])
  have starts : digitChars n ++ rest = first.digitChar :: (others.map Nat.digitChar ++ rest) := by
    rw [digitChars, spelled, same]
    rfl
  refine ⟨first, others.map Nat.digitChar ++ rest, small, by rw [written, starts], ?_⟩
  rw [readNumber_digit small, ← starts, readMagnitude, whole]
  rcases delimited with rfl | ⟨tail, rfl | rfl⟩ <;> rfl

/-! ## Texts -/

theorem isHalf_toNat (c : Char) : isHighHalf c.toNat = false ∧ isLowHalf c.toNat = false := by
  have valid := c.valid
  simp only [UInt32.isValidChar, Nat.isValidChar] at valid
  simp only [isHighHalf, isLowHalf, Char.toNat, Bool.and_eq_false_iff, decide_eq_false_iff_not]
  omega

theorem joinHalves_map (chars seen : List Char) :
    joinHalves seen (chars.map Char.toNat) = some (seen.reverse ++ chars) := by
  induction chars generalizing seen with
  | nil => simp [joinHalves]
  | cons c chars ih =>
    obtain ⟨high, low⟩ := isHalf_toNat c
    cases chars with
    | nil => simp [joinHalves, high, low]
    | cons next chars =>
      have rest := ih (c :: seen)
      simp only [List.map_cons] at rest
      simp [joinHalves, high, low, rest]

/-- A control character is written with four digits, the first two of them zero. -/
theorem padLeft_hexDigits_control {n : Nat} (control : n < 0x20) :
    Text.padLeft 4 (Text.hexDigits n) = ['0', '0', (n / 16).digitChar, (n % 16).digitChar] := by
  revert n
  decide

theorem hexQuad?_control {n : Nat} (control : n < 0x20) :
    hexQuad? '0' '0' (n / 16).digitChar (n % 16).digitChar = some n := by
  revert n
  decide

theorem shortName?_eq_some {c name : Char} (short : shortName? c = some name) :
    name ≠ 'u' ∧ shortEscape? name = some c := by
  unfold shortName? at short
  split at short
  next marks =>
    simp only [Bool.or_eq_true, decide_eq_true_eq] at marks
    cases short
    rcases marks with rfl | rfl <;> decide
  next =>
    repeat' split at short
    all_goals
      first
        | (subst_vars; cases short; decide)
        | cases short

/-- Each character is read back from the way it is written between quotes. -/
theorem readPoints_escape (points : List Nat) (c : Char) (rest : List Char) :
    readPoints points (escape c ++ rest) = readPoints (c.toNat :: points) rest := by
  unfold escape
  cases short : shortName? c with
  | some name =>
    obtain ⟨plain, stands⟩ := shortName?_eq_some short
    simp only [List.cons_append, List.nil_append]
    rw [readPoints]
    · rw [stands]
    · intro a b c d tail long
      exact absurd long plain
  | none =>
    simp only
    split
    next control =>
      simp only [padLeft_hexDigits_control control, List.cons_append, List.nil_append, readPoints,
        hexQuad?_control control]
    next visible =>
      have unmarked : c ≠ '\x22' ∧ c ≠ '\x5c' := by
        constructor <;> rintro rfl <;> cases short
      simp only [List.cons_append, List.nil_append]
      rw [readPoints]
      · exact if_neg visible
      · exact unmarked.1
      · intro a b c d tail mark
        exact absurd mark unmarked.2
      · intro c tail mark
        exact absurd mark unmarked.2

theorem readPoints_flatMap (chars : List Char) (points : List Nat) (rest : List Char) :
    readPoints points (chars.flatMap escape ++ '\x22' :: rest) =
      some (points.reverse ++ chars.map Char.toNat, rest) := by
  induction chars generalizing points with
  | nil => simp [readPoints]
  | cons c chars ih =>
    rw [List.flatMap_cons, List.append_assoc, readPoints_escape, ih]
    simp

theorem readText_quote (value : String) (rest : List Char) :
    readText (value.toList.flatMap escape ++ '\x22' :: rest) = some (some value, rest) := by
  simp [readText, readPoints_flatMap, joinHalves_map]

/-! ## Values -/

mutual

/-- Every number is a natural and every text has a value. -/
def Plain : Json → Prop
  | .null | .bool _ => True
  | .number value => value = { whole := value.whole }
  | .string value => value.isSome = true
  | .array items => AllPlain items
  | .object fields => FieldsPlain fields

/-- Every item is plain. -/
def AllPlain : List Json → Prop
  | [] => True
  | item :: items => item.Plain ∧ AllPlain items

/-- Every field is plain and has a key. -/
def FieldsPlain : List (Option String × Json) → Prop
  | [] => True
  | (key, value) :: fields => key.isSome = true ∧ value.Plain ∧ FieldsPlain fields

end

@[simp] theorem plain_text (value : String) : (text value).Plain := by simp [text, Plain]

@[simp] theorem plain_nat (value : Nat) : (nat value).Plain := by simp [nat, Plain]

@[simp] theorem plain_array {items : List Json} : (array items).Plain ↔ ∀ item ∈ items,
    item.Plain := by
  rw [Plain]
  induction items with
  | nil => simp [AllPlain]
  | cons item items ih => simp [AllPlain, ih]

@[simp] theorem plain_record {fields : List (String × Json)} :
    (record fields).Plain ↔ ∀ field ∈ fields, field.2.Plain := by
  rw [record, Plain]
  induction fields with
  | nil => simp [FieldsPlain]
  | cons field fields ih => simp [FieldsPlain, ih]

@[simp] theorem plain_tagged {name : String} {payload : Json} :
    (tagged name payload).Plain ↔ payload.Plain := by
  simp [tagged]

theorem skipBlanks_newline (level : Nat) (rest : List Char) :
    skipBlanks (newline level ++ rest) = skipBlanks rest := by
  have blanks : ∀ count, skipBlanks (List.replicate count ' ' ++ rest) = skipBlanks rest := by
    intro count
    induction count with
    | zero => rfl
    | succ count ih =>
      rw [List.replicate_succ, List.cons_append, skipBlanks, if_pos (by decide), ih]
  rw [newline, List.cons_append, skipBlanks, if_pos (by decide), blanks]

theorem skipBlanks_skipBlanks (chars : List Char) :
    skipBlanks (skipBlanks chars) = skipBlanks chars := by
  induction chars with
  | nil => rfl
  | cons c chars ih =>
    by_cases blank : isBlank c = true
    · rw [skipBlanks, if_pos blank, ih]
    · rw [skipBlanks, if_neg blank, skipBlanks, if_neg blank]

variable (steps : Nat)

theorem readValue_skipBlanks (chars : List Char) :
    readValue steps (skipBlanks chars) = readValue steps chars := by
  cases steps with
  | zero => simp [readValue]
  | succ steps => simp only [readValue, skipBlanks_skipBlanks]

theorem readValue_newline (level : Nat) (rest : List Char) :
    readValue steps (newline level ++ rest) = readValue steps rest := by
  rw [← readValue_skipBlanks, skipBlanks_newline, readValue_skipBlanks]

theorem readValue_blank (rest : List Char) :
    readValue steps (' ' :: rest) = readValue steps rest := by
  rw [← readValue_skipBlanks, skipBlanks, if_pos (by decide), readValue_skipBlanks]

theorem readItems_skipBlanks (seen : List Json) (chars : List Char) :
    readItems steps seen (skipBlanks chars) = readItems steps seen chars := by
  cases steps with
  | zero => simp [readItems]
  | succ steps => simp only [readItems, readValue_skipBlanks]

theorem readFields_skipBlanks (seen : List (Option String × Json))
    (chars : List Char) : readFields steps seen (skipBlanks chars) = readFields steps
    seen chars := by
  cases steps with
  | zero => simp [readFields]
  | succ steps => simp only [readFields, skipBlanks_skipBlanks]

/-- An array that does not end at once goes on with its items. -/
theorem readValue_bracket (follows : skipBlanks chars = first :: tail) (goesOn : first ≠ ']') :
    readValue (steps + 1) ('[' :: chars) = readItems steps [] chars := by
  rw [← readItems_skipBlanks, readValue, skipBlanks, if_neg (by decide)]
  simp only [follows]
  split
  next closed => exact absurd (List.cons.inj closed).1 goesOn
  next => rfl

/-- An object that does not end at once goes on with its fields. -/
theorem readValue_brace (follows : skipBlanks chars = first :: tail) (goesOn : first ≠ '\x7d') :
    readValue (steps + 1) ('\x7b' :: chars) = readFields steps [] chars := by
  rw [← readFields_skipBlanks, readValue, skipBlanks, if_neg (by decide)]
  simp only [follows]
  split
  next closed => exact absurd (List.cons.inj closed).1 goesOn
  next => rfl

/-- No other form of value starts as a number does. -/
theorem digitChar_leads (below : digit < 10) :
    isBlank digit.digitChar = false ∧
      digit.digitChar ∉ ['n', 't', 'f', '\x22', '[', '\x7b', ']'] := by
  revert digit
  decide

theorem readValue_digit {first : Nat} (below : first < 10) (tail : List Char) :
    readValue (steps + 1) (first.digitChar :: tail) =
      (readNumber (first.digitChar :: tail)).map fun read => (.number read.1, read.2) := by
  have leads := digitChar_leads below
  rw [readValue, skipBlanks, if_neg (by simp [leads.1])]
  split <;>
    first
      | rfl
      | (next same => exact absurd ((List.cons.inj same).1 ▸ by simp) leads.2)

/-- A written list of items starts with a new line and the first of them. -/
theorem writePrettyItems_cons (level : Nat) (item : Json) (items : List Json) :
    ∃ more, writePrettyItems level (item :: items) = newline level ++
    (writePretty level item ++ more) := by
  cases items with
  | nil => exact ⟨[], by simp [writePrettyItems]⟩
  | cons next items => exact ⟨_, by rw [writePrettyItems, List.append_assoc]; simp⟩

/-- A field whose value is read: behind a comma the next fields are read, and behind a closing brace
the object is complete. -/
theorem readFields_quote {steps : Nat} {seen : List (Option String × Json)} {level : Nat}
    {key : String} {value : Json} {source rest : List Char}
    (read : readValue steps source = some (value, rest)) :
    (∀ more, skipBlanks rest = ',' :: more →
      readFields (steps + 1) seen (newline level ++ (quote key ++ ':' :: ' ' :: source)) =
        readFields steps ((some key, value) :: seen) more) ∧
    ∀ more, skipBlanks rest = '\x7d' :: more →
      readFields (steps + 1) seen (newline level ++ (quote key ++ ':' :: ' ' :: source)) =
        some (.object ((some key, value) :: seen).reverse, more) := by
  have text : readText (key.toList.flatMap escape ++ ['\x22'] ++ ':' :: ' ' :: source) =
      some (some key, ':' :: ' ' :: source) := by
    simpa using readText_quote key (':' :: ' ' :: source)
  rw [readFields, skipBlanks_newline, quote, List.cons_append, List.cons_append, skipBlanks,
    if_neg (by decide)]
  simp only [text]
  rw [skipBlanks, if_neg (by decide)]
  simp only [readValue_blank, read]
  exact ⟨fun more follows => by simp only [follows], fun more follows => by simp only [follows]⟩

/-- A written list of fields starts with a new line and the first key. -/
theorem writePrettyFields_cons (level : Nat) (key : String) (value : Json)
    (fields : List (Option String × Json)) :
    ∃ more, writePrettyFields level ((some key, value) :: fields) = newline level ++
    '\x22' :: more := by
  cases fields <;>
    simp [writePrettyFields, quoteText, quote]

/-- A written value starts with a character that is neither blank nor a closing bracket. -/
theorem writePretty_starts (level : Nat) (json : Json) (plain : json.Plain) :
    ∃ first tail, writePretty level json = first :: tail ∧ isBlank first = false ∧ first ≠ ']' := by
  cases json with
  | null => exact ⟨'n', _, rfl, by decide, by decide⟩
  | bool value => cases value <;> exact ⟨_, _, rfl, by decide, by decide⟩
  | number value =>
    obtain ⟨first, tail, small, written, _⟩ := readNumber_writeNumber value.whole (.inl rfl)
    have leads := digitChar_leads small
    have same : value = { whole := value.whole } := plain
    refine ⟨first.digitChar, tail, ?_, leads.1, fun closes => leads.2 (by simp [closes])⟩
    rw [writePretty, same]
    simpa using written
  | string value =>
    cases value with
    | none => cases plain
    | some text => exact ⟨'\x22', _, rfl, by decide, by decide⟩
  | array items => cases items <;> exact ⟨'[', _, rfl, by decide, by decide⟩
  | object fields => cases fields <;> exact ⟨'\x7b', _, rfl, by decide, by decide⟩

mutual

/-- A written value is read back, whatever stands behind it. As many steps as it has characters are
enough, and one more. -/
theorem readValue_writePretty : (json : Json) → json.Plain → (level steps : Nat) →
    (rest : List Char) → Delimited rest → (writePretty level json).length < steps →
    readValue steps (writePretty level json ++ rest) = some (json, rest)
  | json, plain, level, 0, rest, delimited, enough => absurd enough (Nat.not_lt_zero _)
  | .null, _, level, steps + 1, rest, _, _ => by
    simp [writePretty, readValue, skipBlanks, isBlank]
  | .bool true, _, level, steps + 1, rest, _, _ => by
    simp [writePretty, readValue, skipBlanks, isBlank]
  | .bool false, _, level, steps + 1, rest, _, _ => by
    simp [writePretty, readValue, skipBlanks, isBlank]
  | .number value, plain, level, steps + 1, rest, delimited, _ => by
    have same : value = { whole := value.whole } := plain
    obtain ⟨first, tail, small, written, read⟩ := readNumber_writeNumber value.whole delimited
    rw [writePretty, same, written, readValue_digit steps small, read]
    rfl
  | .string none, plain, _, _ + 1, _, _, _ => by cases plain
  | .string (some text), _, level, steps + 1, rest, _, _ => by
    simp [writePretty, quoteText, quote, readValue, skipBlanks, isBlank, readText_quote]
  | .array [], _, level, steps + 1, rest, _, _ => by
    simp [writePretty, readValue, skipBlanks, isBlank]
  | .object [], _, level, steps + 1, rest, _, _ => by
    simp [writePretty, readValue, skipBlanks, isBlank]
  | .array (item :: items), plain, level, steps + 1, rest, _, enough => by
    obtain ⟨first, tail, starts, visible, goesOn⟩ := writePretty_starts (level + 1) item plain.1
    obtain ⟨more, splits⟩ := writePrettyItems_cons (level + 1) item items
    have follows : skipBlanks (writePrettyItems (level + 1) (item :: items) ++ newline level ++
        ']' :: rest) = first :: (tail ++ (more ++ newline level ++ ']' :: rest)) := by
      simp [splits, skipBlanks_newline, starts, skipBlanks, visible]
    simp only [writePretty, List.cons_append, List.append_assoc, List.nil_append] at follows ⊢
    rw [readValue_bracket steps follows goesOn, ← List.append_assoc,
      readItems_writePretty (item :: items) plain (by simp) (level + 1) level steps [] rest
        (by simp [writePretty] at enough; omega)]
    rfl
  | .object ((none, _) :: _), plain, _, _ + 1, _, _, _ => by cases plain.1
  | .object ((some key, value) :: fields), plain, level, steps + 1, rest, _, enough => by
    obtain ⟨more, splits⟩ := writePrettyFields_cons (level + 1) key value fields
    have follows : skipBlanks (writePrettyFields (level + 1) ((some key, value) :: fields) ++
        newline level ++ '\x7d' :: rest) = '\x22' :: (more ++ newline level ++ '\x7d' :: rest) := by
      simp [splits, skipBlanks_newline, skipBlanks, isBlank]
    simp only [writePretty, List.cons_append, List.append_assoc, List.nil_append] at follows ⊢
    rw [readValue_brace steps follows (by decide), ← List.append_assoc,
      readFields_writePretty ((some key, value) :: fields) plain (by simp) (level + 1)
      level steps []
        rest (by simp [writePretty] at enough; omega)]
    rfl

/-- The items behind an opening bracket are read back up to the closing one. -/
theorem readItems_writePretty : (items : List Json) → AllPlain items → items ≠ [] →
    (level outer steps : Nat) → (seen : List Json) → (rest : List Char) →
    (writePrettyItems level items).length < steps →
    readItems steps seen (writePrettyItems level items ++ newline outer ++ ']' :: rest) =
      some (.array (seen.reverse ++ items), rest)
  | [], _, given, _, _, _, _, _, _ => absurd rfl given
  | _, _, _, _, _, 0, _, _, enough => absurd enough (Nat.not_lt_zero _)
  | [item], plain, _, level, outer, steps + 1, seen, rest, enough => by
    have one := readValue_writePretty item plain.1 level steps (newline outer ++ ']' :: rest)
      (.inr ⟨_, .inr rfl⟩) (by simp [writePrettyItems, newline] at enough; omega)
    rw [readItems, writePrettyItems, List.append_assoc, List.append_assoc, readValue_newline, one]
    simp [skipBlanks_newline, skipBlanks, isBlank]
  | item :: next :: items, plain, _, level, outer, steps + 1, seen, rest, enough => by
    have lengths : (writePretty level item).length < steps ∧
        (writePrettyItems level (next :: items)).length < steps := by
      simp [writePrettyItems, newline] at enough ⊢
      omega
    have one := readValue_writePretty item plain.1 level steps
      (',' :: (writePrettyItems level (next :: items) ++ newline outer ++ ']' :: rest))
      (.inr ⟨_, .inl rfl⟩) lengths.1
    have others := readItems_writePretty (next :: items) plain.2 (by simp) level outer steps
      (item :: seen) rest lengths.2
    simp only [readItems, writePrettyItems, List.append_assoc, List.cons_append, readValue_newline]
    simp only [List.append_assoc] at one others
    rw [one]
    simp [skipBlanks, isBlank, others]

/-- The fields behind an opening brace are read back up to the closing one. -/
theorem readFields_writePretty : (fields : List (Option String × Json)) → FieldsPlain fields →
    fields ≠ [] → (level outer steps : Nat) → (seen : List (Option String × Json)) →
    (rest : List Char) → (writePrettyFields level fields).length < steps →
    readFields steps seen (writePrettyFields level fields ++ newline outer ++ '\x7d' :: rest) =
      some (.object (seen.reverse ++ fields), rest)
  | [], _, given, _, _, _, _, _, _ => absurd rfl given
  | _, _, _, _, _, 0, _, _, enough => absurd enough (Nat.not_lt_zero _)
  | (none, _) :: _, plain, _, _, _, _ + 1, _, _, _ => by cases plain.1
  | [(some key, value)], plain, _, level, outer, steps + 1, seen, rest, enough => by
    have one := readValue_writePretty value plain.2.1 level steps (newline outer ++ '\x7d' :: rest)
      (.inr ⟨_, .inr rfl⟩) (by simp [writePrettyFields, newline] at enough; omega)
    simp only [writePrettyFields, quoteText, List.append_assoc, List.cons_append]
    rw [(readFields_quote one).2 rest (by simp [skipBlanks_newline, skipBlanks, isBlank])]
    simp
  | (some key, value) :: next :: fields, plain, _, level, outer, steps + 1, seen, rest, enough => by
    have lengths : (writePretty level value).length < steps ∧
        (writePrettyFields level (next :: fields)).length < steps := by
      simp [writePrettyFields, newline] at enough ⊢
      omega
    have one := readValue_writePretty value plain.2.1 level steps
      (',' :: (writePrettyFields level (next :: fields) ++ newline outer ++ '\x7d' :: rest))
      (.inr ⟨_, .inl rfl⟩) lengths.1
    have others := readFields_writePretty (next :: fields) plain.2.2 (by simp) level outer steps
      ((some key, value) :: seen) rest lengths.2
    simp only [List.append_assoc] at one others
    simp only [writePrettyFields, quoteText, List.append_assoc, List.cons_append]
    rw [(readFields_quote one).1 _ (by rw [skipBlanks, if_neg (by decide)]), others]
    simp

end

/-- Every plain value is read back from its text. -/
theorem parse?_pretty {json : Json} (plain : json.Plain) : parse? json.pretty = some json := by
  have read := readValue_writePretty json plain 0 ((writePretty 0 json).length + 1) [] (.inl rfl)
    (Nat.lt_succ_self _)
  rw [List.append_nil] at read
  simp [parse?, pretty, read, skipBlanks]

end Json

end Custody
