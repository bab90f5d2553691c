import Custody.Address
import Custody.Proofs.Documents.Texts
import Mathlib.Data.List.Induction
import Mathlib.Data.Nat.Digits.Defs
/-!
# Address literals

The reader of literals counts bytes, fills up by characters and then looks at each character. A
character beyond ASCII takes more than one byte, so none of the three counts can be trusted alone;
together they leave exactly the literals of one to 64 hexadecimal digits. What is read is the value
of the digits from the most significant on, and what is written is the shortest spelling of it.
-/

namespace Custody

open Text

variable {c : Char} {digits : List Char} {literal : String} {address : Address}

/-! ## Hexadecimal digits -/

namespace Text

/-- The sixteen digits in order, in the case in which they are written. -/
def hexAlphabet : List Char := "0123456789abcdef".toList

/-- A digit of either case. -/
def isHexDigit (c : Char) : Bool := c.toLower ∈ hexAlphabet

/-- The value of a digit: its place in the alphabet. -/
def hexPlace (c : Char) : Nat := hexAlphabet.idxOf c.toLower

theorem toNat_le_toLower (c : Char) : c.toNat ≤ c.toLower.toNat := by
  unfold Char.toLower
  split
  · rename_i upper
    have high : c.val.toNat ≤ 90 := UInt32.le_iff_toNat_le.mp upper.2
    have sum : (c.val + ('a'.val - 'A'.val)).toNat = c.val.toNat + 32 := by
      rw [UInt32.toNat_add]
      change (c.val.toNat + 32) % 2 ^ 32 = _
      omega
    change c.val.toNat ≤ (c.val + ('a'.val - 'A'.val)).toNat
    omega
  · rfl

/-- Every digit is among the first characters, so that facts about digits can be tried on all of
them. -/
theorem toNat_of_isHexDigit (hex : isHexDigit c = true) : c.toNat < 103 := by
  have listed : c.toLower ∈ hexAlphabet := by simpa [isHexDigit] using hex
  have below : hexAlphabet.all (·.toNat < 103) = true := by decide
  have raised := toNat_le_toLower c
  have low := of_decide_eq_true (List.all_eq_true.mp below _ listed)
  omega

theorem toNat_of_hexValue? {value : Nat} (found : hexValue? c = some value) : c.toNat < 103 := by
  have bound : ∀ last : Char, c ≤ last → c.toNat ≤ last.toNat := fun _ below => below
  unfold hexValue? at found
  split at found
  · exact Nat.lt_of_le_of_lt (bound '9' (by tauto)) (by decide)
  · split at found
    · exact Nat.lt_of_le_of_lt (bound 'f' (by tauto)) (by decide)
    · split at found
      · exact Nat.lt_of_le_of_lt (bound 'F' (by tauto)) (by decide)
      · cases found

/-- A character is read as a digit exactly if it is one, and then as its place in the alphabet. -/
theorem hexValue?_eq (c : Char) : hexValue? c = if isHexDigit c then some (hexPlace c)
    else none := by
  by_cases small : c.toNat < 103
  · have tried : ∀ n < 103, hexValue? (Char.ofNat n) =
        if isHexDigit (Char.ofNat n) then some (hexPlace (Char.ofNat n)) else none := by decide
    simpa using tried c.toNat small
  · have noDigit : ¬ isHexDigit c = true := fun hex => small (toNat_of_isHexDigit hex)
    have unread : hexValue? c = none := by
      by_contra read
      obtain ⟨value, found⟩ := Option.ne_none_iff_exists'.mp read
      exact small (toNat_of_hexValue? found)
    rw [unread, if_neg noDigit]

theorem digitChar_hexPlace (hex : isHexDigit c = true) :
    hexPlace c < 16 ∧ (hexPlace c).digitChar = c.toLower ∧ c.utf8Size = 1 := by
  have tried : ∀ n < 103, isHexDigit (Char.ofNat n) = true → hexPlace (Char.ofNat n) < 16 ∧
      (hexPlace (Char.ofNat n)).digitChar = (Char.ofNat n).toLower ∧
      (Char.ofNat n).utf8Size = 1 := by
    decide
  simpa using tried c.toNat (toNat_of_isHexDigit hex) (by simpa using hex)

theorem hexPlace_digitChar {digit : Nat} (below : digit < 16) :
    isHexDigit digit.digitChar = true ∧ hexPlace digit.digitChar = digit := by
  revert digit
  decide

/-! ## Numbers and their digits -/

theorem ofDigits_eq_reverse (base : Nat) (values : List Nat) :
    ofDigits base values = Nat.ofDigits base values.reverse := by
  induction values using List.reverseRecOn with
  | nil => rfl
  | append_singleton values last ih =>
    rw [ofDigits_concat, ih, List.reverse_append, List.reverse_singleton, List.singleton_append,
      Nat.ofDigits_cons]
    ring

/-- The number that characters spell. -/
def hexNumber (digits : List Char) : Nat := ofDigits 16 (digits.map hexPlace)

/-- The digits in lower case, without leading zeros, but one digit at least. -/
def shortestDigits (digits : List Char) : List Char :=
  let kept := (digits.map Char.toLower).dropWhile (· = '0')
  if kept.isEmpty then ['0'] else kept

theorem hexNumber_lt (hex : ∀ c ∈ digits, isHexDigit c = true) :
    hexNumber digits < 16 ^ digits.length := by
  have below : ∀ value ∈ (digits.map hexPlace).reverse, value < 16 := by
    intro value member
    obtain ⟨c, inside, rfl⟩ := List.mem_map.mp (List.mem_reverse.mp member)
    exact (digitChar_hexPlace (hex c inside)).1
  have bound := Nat.ofDigits_lt_base_pow_length (by decide : 1 < 16) below
  rw [hexNumber, ofDigits_eq_reverse]
  simpa using bound

/-- Digits behind a number that is not zero are written as they stand. -/
theorem toDigits_foldl (hex : ∀ c ∈ digits, isHexDigit c = true) {n : Nat} (positive : 0 < n) :
    Nat.toDigits 16 ((digits.map hexPlace).foldl (fun value digit => value * 16 + digit) n) =
      Nat.toDigits 16 n ++ digits.map Char.toLower := by
  induction digits generalizing n with
  | nil => simp
  | cons c digits ih =>
    obtain ⟨small, written, _⟩ := digitChar_hexPlace (hex c List.mem_cons_self)
    have next : Nat.toDigits 16 (n * 16 + hexPlace c) = Nat.toDigits 16 n ++ [c.toLower] := by
      rw [Nat.mul_comm, ← Nat.toDigits_append_toDigits (by decide) positive small,
        Nat.toDigits_of_lt_base small, written]
    have rest := ih (fun other member => hex other (List.mem_cons_of_mem _ member))
      (n := n * 16 + hexPlace c) (by omega)
    rw [List.map_cons, List.foldl_cons, rest, next]
    simp

/-- The shortest spelling of a number comes from any spelling by dropping zeros. -/
theorem hexDigits_hexNumber (hex : ∀ c ∈ digits, isHexDigit c = true) :
    hexDigits (hexNumber digits) = shortestDigits digits := by
  induction digits with
  | nil => rfl
  | cons c digits ih =>
    have others : ∀ other ∈ digits, isHexDigit other = true := fun other member =>
      hex other (List.mem_cons_of_mem _ member)
    obtain ⟨small, written, _⟩ := digitChar_hexPlace (hex c List.mem_cons_self)
    have first : hexNumber (c :: digits) =
        (digits.map hexPlace).foldl (fun value digit => value * 16 + digit) (hexPlace c) := by
      simp [hexNumber, ofDigits]
    by_cases zero : hexPlace c = 0
    · have zeroChar : c.toLower = '0' := by
        rw [← written, zero]
        rfl
      have same : hexNumber (c :: digits) = hexNumber digits := by
        rw [first, zero]
        rfl
      rw [same, ih others]
      simp [shortestDigits, zeroChar]
    · have leads : c.toLower ≠ '0' := by
        intro zeroChar
        apply zero
        rw [hexPlace, zeroChar]
        rfl
      rw [first, hexDigits,
        toDigits_foldl others (by omega), Nat.toDigits_of_lt_base small, written]
      simp [shortestDigits, leads]

end Text

/-! ## Literals -/

namespace Address

open Text (isHexDigit hexPlace hexNumber)

/-- The literal is the mark with one to 64 digits behind it. -/
structure IsLiteral (literal : String) (digits : List Char) : Prop where
  marked : literal.toList = '0' :: 'x' :: digits
  nonempty : 1 ≤ digits.length
  short : digits.length ≤ 64
  hex : ∀ c ∈ digits, isHexDigit c = true

/-- The lowest bytes of a number, most significant first. -/
def bytesOf : Nat → Nat → List (BitVec 8)
  | 0, _ => []
  | count + 1, n => bytesOf count (n / 256) ++ [BitVec.ofNat 8 n]

/-- The 32 bytes of an address, most significant first. -/
def bytes (address : Address) : List (BitVec 8) := bytesOf 32 address.toNat

theorem ofDigits_bytesOf (count n : Nat) :
    Text.ofDigits 256 ((bytesOf count n).map BitVec.toNat) = n % 256 ^ count := by
  induction count generalizing n with
  | zero =>
    rw [Nat.pow_zero, Nat.mod_one]
    rfl
  | succ count ih =>
    have split : n % 256 ^ (count + 1) = n % 256 + 256 * (n / 256 % 256 ^ count) := by
      rw [Nat.pow_succ', Nat.mod_mul]
    rw [bytesOf, List.map_append, List.map_singleton, Text.ofDigits_concat, ih, split,
      BitVec.toNat_ofNat]
    ring

/-- The bytes are the value from the most significant one on. -/
theorem ofDigits_bytes (address : Address) :
    Text.ofDigits 256 (address.bytes.map BitVec.toNat) = address.toNat := by
  have bound : address.toNat < 256 ^ 32 := address.word.isLt
  rw [bytes, ofDigits_bytesOf, Nat.mod_eq_of_lt bound]

theorem byteCount_of_hex (hex : ∀ c ∈ digits, isHexDigit c = true) :
    byteCount digits = digits.length := by
  induction digits with
  | nil => rfl
  | cons c digits ih =>
    have rest := ih fun other member => hex other (List.mem_cons_of_mem _ member)
    obtain ⟨_, _, single⟩ := Text.digitChar_hexPlace (hex c List.mem_cons_self)
    rw [byteCount] at rest ⊢
    rw [List.foldr_cons, rest, single, List.length_cons, Nat.add_comm]

/-- Reading digits succeeds exactly on digits. -/
theorem readDigits_eq_ok_iff {position value n : Nat} :
    readDigits position value digits = .ok n ↔ (∀ c ∈ digits, isHexDigit c = true) ∧
      n = (digits.map hexPlace).foldl (fun value digit => value * 16 + digit) value := by
  induction digits generalizing position value with
  | nil =>
    rw [readDigits, Except.ok.injEq]
    simp only [List.not_mem_nil, false_implies, implies_true, true_and, List.map_nil,
      List.foldl_nil]
    exact eq_comm
  | cons c digits ih =>
    rw [readDigits, hexValue?_eq]
    by_cases hex : isHexDigit c = true
    · simp [hex, ih]
    · simp [hex]

theorem hexNumber_zeros (count : Nat) (digits : List Char) :
    hexNumber (List.replicate count '0' ++ digits) = hexNumber digits := by
  induction count with
  | zero => rfl
  | succ count ih =>
    have zero : hexPlace '0' = 0 := by decide
    rw [List.replicate_succ, List.cons_append, ← ih]
    simp [hexNumber, Text.ofDigits, zero]

/-- The zeros in front are digits too. -/
theorem hex_padLeft_iff :
    (∀ c ∈ Text.padLeft width digits, isHexDigit c = true) ↔ ∀ c ∈ digits, isHexDigit c = true := by
  constructor
  · intro hex c member
    exact hex c (List.mem_append_right _ member)
  · intro hex c member
    rcases List.mem_append.mp member with zero | member
    · rw [List.eq_of_mem_replicate zero]
      decide
    · exact hex c member

/-- The digits of a literal are accepted exactly if there are one to 64 of them. Were one of the
characters no digit, it would stop the last of the checks, whatever the counts before it let
through. -/
theorem ofDigits_eq_ok_iff :
    ofDigits digits = .ok address ↔ (1 ≤ digits.length ∧ digits.length ≤ width ∧
      ∀ c ∈ digits, isHexDigit c = true) ∧ address = ofNat (hexNumber digits) := by
  constructor
  · intro accepted
    unfold ofDigits at accepted
    split at accepted
    · cases accepted
    split at accepted
    · cases accepted
    dsimp only at accepted
    split at accepted
    · cases accepted
    split at accepted
    · cases accepted
    rename_i nonempty fits _ _
    cases read : readDigits 0 0 (padLeft width digits) with
    | error flaw =>
      rw [read] at accepted
      cases accepted
    | ok n =>
      rw [read] at accepted
      obtain ⟨padded, value⟩ := readDigits_eq_ok_iff.mp read
      have hex := hex_padLeft_iff.mp padded
      have number : n = hexNumber digits := by
        rw [← hexNumber_zeros (width - digits.length)]
        exact value
      rw [byteCount_of_hex hex] at fits
      have some : digits ≠ [] := by simpa using nonempty
      refine ⟨⟨List.length_pos_iff.mpr some, Nat.le_of_not_lt fits, hex⟩, ?_⟩
      rw [← number]
      exact (Except.ok.inj accepted).symm
  · rintro ⟨⟨nonempty, short, hex⟩, rfl⟩
    have padded := hex_padLeft_iff.mpr hex
    have count : byteCount (padLeft width digits) = width := by
      rw [byteCount_of_hex padded, padLeft, List.length_append, List.length_replicate]
      omega
    have read : readDigits 0 0 (padLeft width digits) = .ok (hexNumber digits) := by
      refine readDigits_eq_ok_iff.mpr ⟨padded, ?_⟩
      exact (hexNumber_zeros (width - digits.length) digits).symm
    have some : digits.isEmpty = false := by
      cases digits with
      | nil => cases nonempty
      | cons c digits => rfl
    have even : ¬ width % 2 = 1 := by decide
    simp only [ofDigits, some, byteCount_of_hex hex, Nat.not_lt.mpr short, count, read, even]
    rfl

theorem parse_eq_ok_iff : parse literal = .ok address ↔
    ∃ digits, IsLiteral literal digits ∧ address = ofNat (hexNumber digits) := by
  constructor
  · intro accepted
    unfold parse at accepted
    split at accepted
    · rename_i digits marked
      cases read : ofDigits digits with
      | error flaw =>
        rw [read] at accepted
        cases accepted
      | ok found =>
        rw [read] at accepted
        obtain rfl : found = address := Except.ok.inj accepted
        obtain ⟨⟨nonempty, short, hex⟩, value⟩ := ofDigits_eq_ok_iff.mp read
        exact ⟨digits, ⟨marked, nonempty, short, hex⟩, value⟩
    · cases accepted
  · rintro ⟨digits, spelled, rfl⟩
    have read := ofDigits_eq_ok_iff.mpr ⟨⟨spelled.nonempty, spelled.short, spelled.hex⟩, rfl⟩
    unfold parse
    rw [spelled.marked]
    simp only [read]
    rfl

/-- No literal spells more than an address holds. -/
theorem IsLiteral.toNat_ofNat (spelled : IsLiteral literal digits) :
    (ofNat (hexNumber digits)).toNat = hexNumber digits := by
  have bound : hexNumber digits < 2 ^ 256 := calc
    hexNumber digits < 16 ^ digits.length := hexNumber_lt spelled.hex
    _ ≤ 16 ^ 64 := Nat.pow_le_pow_right (by decide) spelled.short
    _ = 2 ^ 256 := by decide
  rw [toNat, ofNat, BitVec.toNat_ofNat, Nat.mod_eq_of_lt bound]

/-- The shortest form of an address is one of its literals. -/
theorem isLiteral_render (address : Address) :
    IsLiteral address.render (hexDigits address.toNat) ∧
      hexNumber (hexDigits address.toNat) = address.toNat := by
  obtain ⟨values, written, spells⟩ := toDigits_spells (by decide : 1 < 16) address.toNat
  have read : values.map (hexPlace ∘ Nat.digitChar) = values := by
    refine (List.map_congr_left fun value member => ?_).trans (List.map_id values)
    exact (hexPlace_digitChar (spells.below value member)).2
  refine ⟨⟨by simp [render], ?_, ?_, ?_⟩, ?_⟩
  · exact Nat.length_toDigits_pos
  · have bound : address.toNat < 16 ^ 64 := address.word.isLt
    exact (Nat.length_toDigits_le_iff (by decide) (by decide)).mpr bound
  · intro c member
    rw [hexDigits, written] at member
    obtain ⟨value, inside, rfl⟩ := List.mem_map.mp member
    exact (hexPlace_digitChar (spells.below value inside)).1
  · rw [hexNumber, hexDigits, written, List.map_map, read, spells.value]

theorem parse_render (address : Address) : parse address.render = .ok address := by
  obtain ⟨spelled, value⟩ := isLiteral_render address
  refine parse_eq_ok_iff.mpr ⟨_, spelled, ?_⟩
  rw [value]
  simp [ofNat, toNat]

/-- Exactly the literals are read, each as the address whose bytes are the value of its digits; the
shortest form of every address is read back, and what is written for a literal that was read is the
literal in lower case without its leading zeros. -/
theorem literals_are_exact :
    (∀ literal, (∃ address, parse literal = .ok address) ↔ ∃ digits, IsLiteral literal digits) ∧
      (∀ literal digits address, IsLiteral literal digits → parse literal = .ok address →
        Text.ofDigits 256 (address.bytes.map BitVec.toNat) = hexNumber digits ∧
          address.render = "0x" ++ String.ofList (Text.shortestDigits digits)) ∧
      ∀ address, parse address.render = .ok address := by
  refine ⟨fun literal => ?_, fun literal digits address spelled accepted => ?_, parse_render⟩
  · constructor
    · rintro ⟨address, accepted⟩
      obtain ⟨digits, spelled, _⟩ := parse_eq_ok_iff.mp accepted
      exact ⟨digits, spelled⟩
    · rintro ⟨digits, spelled⟩
      exact ⟨_, parse_eq_ok_iff.mpr ⟨digits, spelled, rfl⟩⟩
  · obtain ⟨others, spelled', rfl⟩ := parse_eq_ok_iff.mp accepted
    obtain rfl : others = digits := by
      have same := spelled'.marked.symm.trans spelled.marked
      exact (List.cons.inj (List.cons.inj same).2).2
    rw [ofDigits_bytes, render, spelled.toNat_ofNat, Text.hexDigits_hexNumber spelled.hex]
    exact ⟨rfl, rfl⟩

/-- Leading zeros and capital letters are read and not written back. -/
theorem padded_literal_is_exact :
    ∃ address, parse "0x00cAfE" = .ok address ∧
      Text.ofDigits 256 (address.bytes.map BitVec.toNat) = 0xcafe ∧ address.render = "0xcafe" := by
  obtain ⟨accepts, spells, _⟩ := literals_are_exact
  have spelled : IsLiteral "0x00cAfE" ['0', '0', 'c', 'A', 'f', 'E'] :=
    ⟨by decide, by decide, by decide, List.all_eq_true.mp (by decide)⟩
  obtain ⟨address, accepted⟩ := (accepts _).mpr ⟨_, spelled⟩
  obtain ⟨value, shown⟩ := spells _ _ _ spelled accepted
  exact ⟨address, accepted, value.trans (by decide), shown.trans (by decide)⟩

end Address

end Custody
