import JobPlatform.Store.JsonText

/-!
Contract: what `dumps` writes, `loads` reads.

Owns:
- `Readable`, the values that have a text: the keys of every object are distinct, integers are
  within the limit, and floats are written as numbers that read back;
- `loads_dumps`, the round trip, and `printable_dumps`: a text is printable ASCII.
-/

namespace JobPlatform.Store

namespace Json

/-! ### Strings -/

section Strings

variable {char : Char} {rest : List Char}

theorem readUnit_hexDigits {unit : Nat} (small : unit < 0x10000) :
    ∃ a b c d, Uuid.hexDigits 4 unit = [a, b, c, d] ∧ readUnit a b c d = some unit := by
  refine ⟨_, _, _, _, rfl, ?_⟩
  have digit (value : Nat) : Uuid.hexValue (Nat.digitChar (value % 16)) = some (value % 16) :=
    Uuid.hexValue_digitChar (Nat.mod_lt _ (by decide))
  unfold readUnit
  simp only [digit, Option.bind_eq_bind, Option.bind_some, Option.pure_def, Option.some.injEq]
  omega

/-- A character below the surrogates or above them, in one unit. -/
theorem scanString_unit {unit : Nat} (small : unit < 0x10000)
    (isScalar : ¬ (0xd800 ≤ unit ∧ unit < 0xe000)) :
    scanString none (unicodeEscape unit ++ rest) =
      consChar (Char.ofNat unit) (scanString none rest) := by
  obtain ⟨a, b, c, d, isDigits, reads⟩ := readUnit_hexDigits small
  have notHigh : ¬ (0xd800 ≤ unit ∧ unit < 0xdc00) := by omega
  have notLow : ¬ (0xdc00 ≤ unit ∧ unit < 0xe000) := by omega
  simp [unicodeEscape, isDigits, scanString, reads, notHigh, notLow]

/-- A high surrogate waits for the low one. -/
theorem scanString_high {a b c d : Char} {high : Nat} (reads : readUnit a b c d = some high)
    (isHigh : 0xd800 ≤ high ∧ high < 0xdc00) :
    scanString none ('\\' :: 'u' :: a :: b :: c :: d :: rest) = scanString (some high) rest := by
  simp [scanString, reads, isHigh]

theorem scanString_low {a b c d : Char} {high low : Nat} (reads : readUnit a b c d = some low)
    (isLow : 0xdc00 ≤ low ∧ low < 0xe000) :
    scanString (some high) ('\\' :: 'u' :: a :: b :: c :: d :: rest) =
      consChar (Char.ofNat (0x10000 + (high - 0xd800) * 0x400 + (low - 0xdc00)))
        (scanString none rest) := by
  simp [scanString, reads, isLow]

/-- A character of the supplementary planes, in two units. -/
theorem scanString_pair {offset : Nat} (small : offset < 0x100000) :
    scanString none (unicodeEscape (0xd800 + offset / 0x400) ++
      (unicodeEscape (0xdc00 + offset % 0x400) ++ rest)) =
        consChar (Char.ofNat (0x10000 + offset)) (scanString none rest) := by
  have smallHigh : 0xd800 + offset / 0x400 < 0x10000 := by omega
  have smallLow : 0xdc00 + offset % 0x400 < 0x10000 := by omega
  obtain ⟨a, b, c, d, isHigh, readsHigh⟩ := readUnit_hexDigits smallHigh
  obtain ⟨e, f, g, h, isLow, readsLow⟩ := readUnit_hexDigits smallLow
  have whole : 0x10000 + (0xd800 + offset / 0x400 - 0xd800) * 0x400 +
      (0xdc00 + offset % 0x400 - 0xdc00) = 0x10000 + offset := by omega
  unfold unicodeEscape
  rw [isHigh, isLow]
  calc scanString none ('\\' :: 'u' :: [a, b, c, d] ++ ('\\' :: 'u' :: [e, f, g, h] ++ rest))
      = scanString (some (0xd800 + offset / 0x400))
          ('\\' :: 'u' :: e :: f :: g :: h :: rest) := scanString_high readsHigh (by omega)
    _ = consChar (Char.ofNat (0x10000 + (0xd800 + offset / 0x400 - 0xd800) * 0x400 +
          (0xdc00 + offset % 0x400 - 0xdc00))) (scanString none rest) :=
        scanString_low readsLow (by omega)
    _ = consChar (Char.ofNat (0x10000 + offset)) (scanString none rest) := by rw [whole]

/-- A character that is written as it is. -/
theorem scanString_plain (notQuote : char ≠ '"') (notBackslash : char ≠ '\\') (space : ' ' ≤ char) :
    scanString none (char :: rest) = consChar char (scanString none rest) := by
  have printable : ¬ char.toNat < 0x20 := Nat.not_lt.mpr space
  rw [scanString]
  · exact if_neg printable
  · exact fun _ _ _ _ _ isBackslash _ => notBackslash isBackslash
  · exact notQuote
  · exact fun _ _ isBackslash _ => notBackslash isBackslash

/-- Every character is read back. -/
theorem scanString_escapeChar (char : Char) (rest : List Char) :
    scanString none (escapeChar char ++ rest) = consChar char (scanString none rest) := by
  unfold escapeChar
  split
  next isQuote => simp [isQuote, scanString, unescape]
  split
  next isBackslash => simp [isBackslash, scanString, unescape]
  split
  next isNewline => simp [isNewline, scanString, unescape]
  split
  next isReturn => simp [isReturn, scanString, unescape]
  split
  next isTab => simp [isTab, scanString, unescape]
  split
  next isFormFeed => simp [isFormFeed, scanString, unescape]
  split
  next isBackspace => simp [isBackspace, scanString, unescape]
  split
  next printable => exact scanString_plain ‹_› ‹_› printable.1
  have valid : char.toNat < 0xd800 ∨ 0xdfff < char.toNat ∧ char.toNat < 0x110000 := char.valid
  split
  next small =>
    have isScalar : ¬ (0xd800 ≤ char.toNat ∧ char.toNat < 0xe000) := by omega
    rw [scanString_unit small isScalar, Char.ofNat_toNat]
  next large =>
    have supplementary : char.toNat - 0x10000 < 0x100000 := by omega
    have whole : 0x10000 + (char.toNat - 0x10000) = char.toNat := by omega
    rw [List.append_assoc, scanString_pair supplementary, whole, Char.ofNat_toNat]

/-- Every string is read back. -/
theorem scanString_escaped (text rest : List Char) :
    scanString none (text.flatMap escapeChar ++ '"' :: rest) = some (text, rest) := by
  induction text with
  | nil => simp [scanString]
  | cons char text inductionHypothesis =>
      rw [List.flatMap_cons, List.append_assoc, scanString_escapeChar, inductionHypothesis]
      rfl

end Strings

/-! ### Printable text -/

/-- A printable ASCII character. -/
def Printable (char : Char) : Prop := ' ' ≤ char ∧ char ≤ '~'

instance (char : Char) : Decidable (Printable char) := inferInstanceAs (Decidable (_ ∧ _))

theorem printable_unicodeEscape (unit : Nat) : ∀ char ∈ unicodeEscape unit, Printable char := by
  refine List.forall_mem_cons.mpr ⟨by decide, List.forall_mem_cons.mpr ⟨by decide, ?_⟩⟩
  intro char member
  obtain ⟨digit, small, rfl⟩ := Uuid.lower_of_mem_hexDigits member
  interval_cases digit <;> decide

theorem printable_escapeChar (char : Char) : ∀ written ∈ escapeChar char, Printable written := by
  unfold escapeChar
  split
  next => simp [Printable]
  split
  next => simp [Printable]
  split
  next => simp [Printable]
  split
  next => simp [Printable]
  split
  next => simp [Printable]
  split
  next => simp [Printable]
  split
  next => simp [Printable]
  split
  next printable => exact List.forall_mem_singleton.mpr printable
  split
  next => exact printable_unicodeEscape _
  next =>
    exact List.forall_mem_append.mpr ⟨printable_unicodeEscape _, printable_unicodeEscape _⟩

theorem printable_quoted (text : String) : ∀ char ∈ quoted text, Printable char := by
  refine List.forall_mem_cons.mpr ⟨by decide, List.forall_mem_append.mpr ⟨?_, by simp [Printable]⟩⟩
  intro char inside
  obtain ⟨source, _, written⟩ := List.mem_flatMap.mp inside
  exact printable_escapeChar source char written

theorem printable_of_isDigit {char : Char} (isDigit : char.isDigit) : Printable char := by
  have between : '0' ≤ char ∧ char ≤ '9' := by
    simp only [Char.isDigit, Bool.and_eq_true, decide_eq_true_eq] at isDigit
    exact isDigit
  exact ⟨Char.le_trans (by decide) between.1, Char.le_trans between.2 (by decide)⟩

/-! ### Numbers -/

/-- One digit or more. -/
def Digits (text : List Char) : Prop := text ≠ [] ∧ ∀ char ∈ text, char.isDigit

/-- `0|[1-9]\d*`. -/
def IsInteger (text : List Char) : Prop :=
  text = ['0'] ∨ Digits text ∧ text.head? ≠ some '0'

/-- `(\.\d+)?`. -/
def IsFraction (text : List Char) : Prop := text = [] ∨ ∃ digits, text = '.' :: digits ∧ Digits digits

/-- `([eE][-+]?\d+)?`. -/
def IsExponent (text : List Char) : Prop :=
  text = [] ∨ ∃ mark sign digits, text = mark :: (sign ++ digits) ∧ (mark = 'e' ∨ mark = 'E') ∧
    (sign = [] ∨ sign = ['+'] ∨ sign = ['-']) ∧ Digits digits

/-- The text of a number that is read as a float. -/
def FloatToken (text : List Char) : Prop :=
  ∃ sign digits fraction exponent, text = sign ++ digits ++ fraction ++ exponent ∧
    (sign = [] ∨ sign = ['-']) ∧ IsInteger digits ∧ IsFraction fraction ∧ IsExponent exponent ∧
    ¬ (fraction = [] ∧ exponent = [])

/-- What follows a value: the end of the text, a comma or a closing bracket. -/
def Delimited (rest : List Char) : Prop :=
  ∀ char ∈ rest.head?, char = ',' ∨ char = ']' ∨ char = '}'

section Numbers

variable {sign digits fraction exponent rest : List Char}

/-- A run of digits ends where no digit follows. -/
theorem takeWhile_digits (all : ∀ char ∈ digits, char.isDigit)
    (ends : ∀ char ∈ rest.head?, ¬ char.isDigit) :
    (digits ++ rest).takeWhile Char.isDigit = digits ∧
      (digits ++ rest).dropWhile Char.isDigit = rest := by
  have stops : rest.takeWhile Char.isDigit = [] ∧ rest.dropWhile Char.isDigit = rest := by
    cases rest with
    | nil => exact ⟨rfl, rfl⟩
    | cons char rest =>
        have isOther : ¬ char.isDigit := ends char rfl
        simp [isOther]
  rw [List.takeWhile_append_of_pos all, List.dropWhile_append_of_pos all, stops.1, stops.2]
  simp

theorem scanInteger_append (isInteger : IsInteger digits)
    (ends : ∀ char ∈ rest.head?, ¬ char.isDigit) :
    scanInteger (digits ++ rest) = some (digits, rest) := by
  rcases isInteger with rfl | ⟨⟨nonempty, all⟩, notZero⟩
  · rfl
  · cases digits with
    | nil => exact absurd rfl nonempty
    | cons char digits =>
        have first : char.isDigit := all char List.mem_cons_self
        have isOther : char ≠ '0' := fun isZero => notZero (congrArg some isZero)
        obtain ⟨taken, dropped⟩ := takeWhile_digits all ends
        rw [List.cons_append] at taken dropped ⊢
        unfold scanInteger
        simp only [first, if_true, taken, dropped]

theorem scanFraction_append (isFraction : IsFraction fraction)
    (ends : ∀ char ∈ rest.head?, ¬ char.isDigit ∧ char ≠ '.') :
    scanFraction (fraction ++ rest) = (fraction, rest) := by
  rcases isFraction with rfl | ⟨digits, rfl, nonempty, all⟩
  · rw [List.nil_append]
    unfold scanFraction
    split
    next => exact absurd rfl (ends '.' rfl).2
    next => rfl
  · cases digits with
    | nil => exact absurd rfl nonempty
    | cons char digits =>
        have first : char.isDigit := all char List.mem_cons_self
        obtain ⟨taken, dropped⟩ := takeWhile_digits all fun char member => (ends char member).1
        rw [List.cons_append] at taken dropped
        rw [List.cons_append, List.cons_append]
        unfold scanFraction
        simp only [first, if_true, taken, dropped]

theorem scanExponentSign_append (isSign : sign = [] ∨ sign = ['+'] ∨ sign = ['-'])
    (isDigits : Digits digits) (rest : List Char) :
    scanExponentSign (sign ++ (digits ++ rest)) = (sign, digits ++ rest) := by
  rcases isSign with rfl | rfl | rfl
  · obtain ⟨nonempty, all⟩ := isDigits
    cases digits with
    | nil => exact absurd rfl nonempty
    | cons char digits =>
        have first : char.isDigit := all char List.mem_cons_self
        rw [List.nil_append, List.cons_append]
        unfold scanExponentSign
        split
        next isPlus => cases isPlus; exact absurd first (by decide)
        next isMinus => cases isMinus; exact absurd first (by decide)
        next => rfl
  · rfl
  · rfl

theorem scanExponent_append (isExponent : IsExponent exponent)
    (ends : ∀ char ∈ rest.head?, ¬ char.isDigit ∧ char ≠ 'e' ∧ char ≠ 'E') :
    scanExponent (exponent ++ rest) = (exponent, rest) := by
  rcases isExponent with rfl | ⟨mark, sign, digits, rfl, isMark, isSign, isDigits⟩
  · cases rest with
    | nil => rfl
    | cons char rest =>
        obtain ⟨_, notLower, notUpper⟩ := ends char rfl
        simp [scanExponent, notLower, notUpper]
  · have parts := scanExponentSign_append isSign isDigits rest
    obtain ⟨nonempty, all⟩ := isDigits
    obtain ⟨taken, dropped⟩ := takeWhile_digits all fun char member => (ends char member).1
    have first : ((digits ++ rest).head?.any Char.isDigit) = true := by
      cases digits with
      | nil => exact absurd rfl nonempty
      | cons char digits => exact all char List.mem_cons_self
    rw [List.cons_append, List.append_assoc]
    unfold scanExponent
    simp only [isMark, if_true, parts, first, taken, dropped]

/-- An integer part starts with a digit. -/
theorem IsInteger.head (isInteger : IsInteger digits) :
    ∃ char tail, digits = char :: tail ∧ char.isDigit := by
  rcases isInteger with rfl | ⟨⟨nonempty, all⟩, _⟩
  · exact ⟨'0', [], rfl, by decide⟩
  · cases digits with
    | nil => exact absurd rfl nonempty
    | cons char tail => exact ⟨char, tail, rfl, all char List.mem_cons_self⟩

theorem scanSign_append (isSign : sign = [] ∨ sign = ['-']) (isInteger : IsInteger digits) :
    scanSign (sign ++ (digits ++ rest)) = (sign, digits ++ rest) := by
  rcases isSign with rfl | rfl
  · obtain ⟨char, tail, rfl, isDigit⟩ := isInteger.head
    rw [List.nil_append, List.cons_append]
    unfold scanSign
    split
    next isMinus => cases isMinus; exact absurd isDigit (by decide)
    next => rfl
  · rfl

/-- What stands behind the integer part of a number. -/
theorem head?_tail (isFraction : IsFraction fraction) (isExponent : IsExponent exponent)
    (delimited : Delimited rest) :
    ∀ char ∈ (fraction ++ (exponent ++ rest)).head?, ¬ char.isDigit := by
  intro char member
  rcases isFraction with rfl | ⟨_, rfl, _⟩
  · rcases isExponent with rfl | ⟨mark, _, _, rfl, isMark, _⟩
    · rcases delimited char member with rfl | rfl | rfl <;> decide
    · cases member
      rcases isMark with rfl | rfl <;> decide
  · cases member
    decide

variable {F : FloatText}

/-- A number is scanned as a whole. -/
theorem scanNumber_append (isSign : sign = [] ∨ sign = ['-']) (isInteger : IsInteger digits)
    (isFraction : IsFraction fraction) (isExponent : IsExponent exponent)
    (delimited : Delimited rest) :
    scanNumber F (sign ++ (digits ++ (fraction ++ (exponent ++ rest)))) =
      if fraction = [] ∧ exponent = [] then
        if digits.length ≤ maxStrDigits then some (int (readInt sign digits), rest) else none
      else some (float (F.read (sign ++ digits ++ fraction ++ exponent)), rest) := by
  have ends : ∀ char ∈ rest.head?, ¬ char.isDigit ∧ char ≠ 'e' ∧ char ≠ 'E' := by
    intro char member
    rcases delimited char member with rfl | rfl | rfl <;> decide
  have between : ∀ char ∈ (exponent ++ rest).head?, ¬ char.isDigit ∧ char ≠ '.' := by
    intro char member
    rcases isExponent with rfl | ⟨mark, _, _, rfl, isMark, _⟩
    · rcases delimited char member with rfl | rfl | rfl <;> decide
    · cases member
      rcases isMark with rfl | rfl <;> decide
  unfold scanNumber
  simp only [scanSign_append isSign isInteger,
    scanInteger_append isInteger (head?_tail isFraction isExponent delimited),
    scanFraction_append isFraction between, scanExponent_append isExponent ends]

/-- A float is read back from its token. -/
theorem scanNumber_float {token : List Char} (isToken : FloatToken token)
    (delimited : Delimited rest) :
    scanNumber F (token ++ rest) = some (float (F.read token), rest) := by
  obtain ⟨sign, digits, fraction, exponent, rfl, isSign, isInteger, isFraction, isExponent,
    isFloat⟩ := isToken
  have scanned := scanNumber_append (F := F) isSign isInteger isFraction isExponent delimited
  rw [if_neg isFloat] at scanned
  rw [← scanned]
  simp only [List.append_assoc]

/-- The digits of a number are an integer part. -/
theorem isInteger_toDigits (value : Nat) : IsInteger (Nat.toDigits 10 value) := by
  have all : ∀ char ∈ Nat.toDigits 10 value, char.isDigit := fun char member =>
    Nat.isDigit_of_mem_toDigits (by decide) (by decide) member
  rcases Nat.eq_zero_or_pos value with rfl | positive
  · exact .inl (Nat.toDigits_zero 10)
  · refine .inr ⟨⟨Nat.toDigits_ne_nil, all⟩, ?_⟩
    -- induction on the number of digits: the first one is that of a smaller positive number
    induction value using Nat.strongRecOn with
    | ind value inductionHypothesis =>
        by_cases single : value < 10
        · rw [Nat.toDigits_of_lt_base single]
          interval_cases value <;> decide
        · have large : 10 ≤ value := Nat.not_lt.mp single
          have smaller : value / 10 < value := Nat.div_lt_self positive (by decide)
          have first := inductionHypothesis (value / 10) smaller
            (fun char member => Nat.isDigit_of_mem_toDigits (by decide) (by decide) member)
            (Nat.div_pos large (by decide))
          rw [Nat.toDigits_of_base_le (by decide) large, List.head?_append]
          cases isFirst : (Nat.toDigits 10 (value / 10)).head? with
          | none => exact absurd (List.head?_eq_none_iff.mp isFirst) Nat.toDigits_ne_nil
          | some char =>
              rw [isFirst] at first
              exact first

/-- The sign and the digits of an integer. -/
theorem writeInt_eq (value : Int) : ∃ sign, (sign = [] ∨ sign = ['-']) ∧
    writeInt value = sign ++ Nat.toDigits 10 value.natAbs ∧
    readInt sign (Nat.toDigits 10 value.natAbs) = value := by
  unfold writeInt readInt
  by_cases negative : value < 0
  · refine ⟨['-'], .inr rfl, if_pos negative, ?_⟩
    rw [if_neg (List.cons_ne_nil _ _), Nat.ofDigitChars_ten_toDigits]
    omega
  · refine ⟨[], .inl rfl, if_neg negative, ?_⟩
    rw [if_pos rfl, Nat.ofDigitChars_ten_toDigits]
    omega

/-- An integer within the limit is read back. -/
theorem scanNumber_int {value : Int} (bounded : value.natAbs < 10 ^ maxStrDigits)
    (delimited : Delimited rest) :
    scanNumber F (writeInt value ++ rest) = some (int value, rest) := by
  obtain ⟨sign, isSign, written, reads⟩ := writeInt_eq value
  have short : (Nat.toDigits 10 value.natAbs).length ≤ maxStrDigits :=
    (Nat.length_toDigits_le_iff (by decide) (by decide)).mpr bounded
  have scanned := scanNumber_append (F := F) isSign (isInteger_toDigits value.natAbs) (.inl rfl)
    (.inl rfl) delimited
  rw [if_pos ⟨rfl, rfl⟩, if_pos short, reads] at scanned
  rw [written, List.append_assoc]
  exact scanned

/-- A number is none of the other values. -/
theorem readValue_number {fuel : Nat} (isSign : sign = [] ∨ sign = ['-'])
    (isInteger : IsInteger digits) :
    readValue F (fuel + 1) (sign ++ (digits ++ rest)) = scanNumber F (sign ++ (digits ++ rest)) := by
  obtain ⟨char, tail, rfl, isDigit⟩ := isInteger.head
  have apart (other : Char) (isOther : ¬ other.isDigit) : char ≠ other := by
    rintro rfl
    exact isOther isDigit
  rcases isSign with rfl | rfl
  · rw [List.nil_append, readValue]
    all_goals
      intro _ same
      exact apart _ (by decide) (List.cons.inj same).1
  · rw [readValue]
    case x_10 =>
      intro _ same
      exact apart 'I' (by decide) (List.cons.inj (List.cons.inj same).2).1
    all_goals
      intro _ same
      exact absurd (List.cons.inj same).1 (by decide)

end Numbers

/-! ### Values -/

/-- The values that have a text and are what it reads as. -/
inductive Readable (F : FloatText) : Json → Prop where
  | null : Readable F null
  | bool (value : Bool) : Readable F (bool value)
  | int {value : Int} (bounded : value.natAbs < 10 ^ maxStrDigits) : Readable F (int value)
  | float {value : Rat} (isToken : FloatToken (F.repr value))
      (reads : F.read (F.repr value) = value) : Readable F (float value)
  | str (text : String) : Readable F (str text)
  | arr {items : List Json} (each : ∀ item ∈ items, Readable F item) : Readable F (arr items)
  | obj {fields : List (String × Json)} (distinct : (fields.map Prod.fst).Nodup)
      (each : ∀ field ∈ fields, Readable F field.2) : Readable F (obj fields)

section Values

variable {F : FloatText} {value : Json} {items : List Json} {fields : List (String × Json)}
  {fuel : Nat} {rest : List Char}

/-- What the first character of a value is not. -/
def Opens (text : List Char) : Prop :=
  ∃ char tail, text = char :: tail ∧ char ∉ [' ', '\t', '\n', '\r', ',', ']', '}']

theorem Opens.append {text : List Char} (opens : Opens text) (rest : List Char) :
    Opens (text ++ rest) := by
  obtain ⟨char, tail, rfl, isOther⟩ := opens
  exact ⟨char, tail ++ rest, rfl, isOther⟩

@[simp] theorem skipSpaces_comma (text : List Char) : skipSpaces (',' :: text) = ',' :: text := rfl

@[simp] theorem skipSpaces_colon (text : List Char) : skipSpaces (':' :: text) = ':' :: text := rfl

@[simp] theorem skipSpaces_quote (text : List Char) : skipSpaces ('"' :: text) = '"' :: text := rfl

@[simp] theorem skipSpaces_bracket (text : List Char) : skipSpaces (']' :: text) = ']' :: text := rfl

@[simp] theorem skipSpaces_brace (text : List Char) : skipSpaces ('}' :: text) = '}' :: text := rfl

theorem skipSpaces_of_opens {text : List Char} (opens : Opens text) (rest : List Char) :
    skipSpaces (text ++ rest) = text ++ rest := by
  obtain ⟨char, tail, rfl, isOther⟩ := opens
  have notSpace : char ∉ [' ', '\t', '\n', '\r'] := by
    simp only [List.mem_cons] at isOther ⊢
    tauto
  exact List.dropWhile_cons_of_neg (by simpa using notSpace)

theorem opens_number {sign digits : List Char} (isSign : sign = [] ∨ sign = ['-'])
    (isInteger : IsInteger digits) (rest : List Char) : Opens (sign ++ (digits ++ rest)) := by
  obtain ⟨char, tail, rfl, isDigit⟩ := isInteger.head
  have each : ∀ other ∈ [' ', '\t', '\n', '\r', ',', ']', '}'], ¬ other.isDigit := by simp
  rcases isSign with rfl | rfl
  · exact ⟨char, tail ++ rest, rfl, fun member => each char member isDigit⟩
  · exact ⟨'-', _, rfl, by decide⟩

theorem Readable.opens (readable : Readable F value) : Opens (write F value) := by
  cases readable with
  | null => exact ⟨'n', _, rfl, by decide⟩
  | bool value =>
      cases value
      · exact ⟨'f', _, rfl, by decide⟩
      · exact ⟨'t', _, rfl, by decide⟩
  | @int value bounded =>
      obtain ⟨sign, isSign, written, _⟩ := writeInt_eq value
      have opens := opens_number isSign (isInteger_toDigits value.natAbs) []
      rw [List.append_nil, ← written] at opens
      exact opens
  | @float value isToken reads =>
      obtain ⟨sign, digits, fraction, exponent, isText, isSign, isInteger, _⟩ := isToken
      have opens := opens_number isSign isInteger (fraction ++ exponent)
      have same : F.repr value = sign ++ (digits ++ (fraction ++ exponent)) := by
        simpa only [List.append_assoc] using isText
      change Opens (F.repr value)
      rwa [same]
  | str text => exact ⟨'"', _, rfl, by decide⟩
  | arr each => exact ⟨'[', _, rfl, by decide⟩
  | obj distinct each => exact ⟨'{', _, rfl, by decide⟩

/-! ### Containers -/

/-- The text of the value is read back, with enough fuel, whatever delimiter follows. -/
def ReadsBack (F : FloatText) (value : Json) : Prop :=
  ∀ fuel rest, 2 * (write F value).length ≤ fuel → Delimited rest →
    readValue F fuel (write F value ++ rest) = some (value, rest)

theorem delimited_cons {char : Char} (isDelimiter : char = ',' ∨ char = ']' ∨ char = '}')
    (rest : List Char) : Delimited (char :: rest) := by
  intro first member
  cases member
  exact isDelimiter

theorem opens_writeItems (nonempty : items ≠ []) (each : ∀ item ∈ items, Opens (write F item)) :
    Opens (writeItems F items) := by
  match items, nonempty, each with
  | [item], _, each => exact (each item List.mem_cons_self).append _
  | item :: next :: items, _, each => exact (each item List.mem_cons_self).append _

theorem opens_writeFields (nonempty : fields ≠ []) :
    ∃ tail, writeFields F fields = '"' :: tail := by
  match fields, nonempty with
  | [(key, value)], _ => exact ⟨_, rfl⟩
  | (key, value) :: next :: fields, _ => exact ⟨_, rfl⟩

/-- The items of an array, read back one by one. -/
theorem readItems_writeItems (fuel : Nat) (nonempty : items ≠ [])
    (each : ∀ item ∈ items, Opens (write F item) ∧ ReadsBack F item)
    (enough : 2 * (writeItems F items).length ≤ fuel) (rest : List Char) :
    readItems F fuel (writeItems F items ++ rest) = some (items, rest) := by
  induction items generalizing fuel with
  | nil => exact absurd rfl nonempty
  | cons item items inductionHypothesis =>
      have readsBack := (each item List.mem_cons_self).2
      cases items with
      | nil =>
          simp only [writeItems, List.length_append, List.length_singleton] at enough
          obtain ⟨fuel, rfl⟩ : ∃ less, fuel = less + 1 := ⟨fuel - 1, by omega⟩
          have read := readsBack fuel (']' :: rest) (by omega) (delimited_cons (by simp) rest)
          simp [writeItems, readItems, read]
      | cons next items =>
          simp only [writeItems, List.length_append, List.length_cons] at enough
          obtain ⟨fuel, rfl⟩ : ∃ less, fuel = less + 1 := ⟨fuel - 1, by omega⟩
          have others : ∀ other ∈ next :: items, Opens (write F other) ∧ ReadsBack F other :=
            fun other member => each other (List.mem_cons_of_mem _ member)
          have read := readsBack fuel (',' :: (writeItems F (next :: items) ++ rest)) (by omega)
            (delimited_cons (by simp) _)
          have later := inductionHypothesis fuel (List.cons_ne_nil _ _) others (by omega)
          have noSpace := skipSpaces_of_opens (opens_writeItems (List.cons_ne_nil _ _)
            fun other member => (others other member).1) rest
          simp [writeItems, readItems, read, noSpace, later]

/-- A key is read back. -/
theorem scanString_quoted (key : String) (rest : List Char) :
    ∃ tail, quoted key ++ rest = '"' :: tail ∧
      scanString none tail = some (key.toList, rest) := by
  refine ⟨key.toList.flatMap escapeChar ++ ('"' :: rest), ?_, scanString_escaped _ _⟩
  simp [quoted]

/-- The fields of an object, read back one by one. -/
theorem readFields_writeFields (fuel : Nat) (nonempty : fields ≠ [])
    (each : ∀ field ∈ fields, Opens (write F field.2) ∧ ReadsBack F field.2)
    (enough : 2 * (writeFields F fields).length ≤ fuel) (rest : List Char) :
    readFields F fuel (writeFields F fields ++ rest) = some (fields, rest) := by
  induction fields generalizing fuel with
  | nil => exact absurd rfl nonempty
  | cons field fields inductionHypothesis =>
      obtain ⟨key, value⟩ := field
      obtain ⟨opens, readsBack⟩ := each (key, value) List.mem_cons_self
      dsimp only at opens readsBack
      cases fields with
      | nil =>
          simp only [writeFields, List.length_append, List.length_cons] at enough
          obtain ⟨fuel, rfl⟩ : ∃ less, fuel = less + 1 := ⟨fuel - 1, by omega⟩
          obtain ⟨tail, isText, scanned⟩ :=
            scanString_quoted key (':' :: (write F value ++ '}' :: rest))
          have read := readsBack fuel ('}' :: rest) (by omega) (delimited_cons (by simp) rest)
          have noSpace := skipSpaces_of_opens opens ('}' :: rest)
          simp [writeFields, isText, readFields, scanned, noSpace, read]
      | cons next fields =>
          simp only [writeFields, List.length_append, List.length_cons] at enough
          obtain ⟨fuel, rfl⟩ : ∃ less, fuel = less + 1 := ⟨fuel - 1, by omega⟩
          obtain ⟨following, isFollowing⟩ := opens_writeFields (F := F) (List.cons_ne_nil next fields)
          obtain ⟨tail, isText, scanned⟩ := scanString_quoted key
            (':' :: (write F value ++ ',' :: (writeFields F (next :: fields) ++ rest)))
          have read := readsBack fuel (',' :: (writeFields F (next :: fields) ++ rest)) (by omega)
            (delimited_cons (by simp) _)
          have noSpace := skipSpaces_of_opens opens
            (',' :: (writeFields F (next :: fields) ++ rest))
          have later := inductionHypothesis fuel (List.cons_ne_nil _ _)
            (fun other member => each other (List.mem_cons_of_mem _ member)) (by omega)
          have atQuote : skipSpaces (writeFields F (next :: fields) ++ rest) =
              writeFields F (next :: fields) ++ rest := by
            rw [isFollowing]
            rfl
          simp [writeFields, isText, readFields, scanned, noSpace, read, atQuote, later]

/-! ### The round trip -/

/-- A dictionary of distinct keys has the fields it is built from. -/
theorem dict_of_nodup (distinct : (fields.map Prod.fst).Nodup) : dict fields = fields := by
  have grows (built rest : List (String × Json)) (all : ((built ++ rest).map Prod.fst).Nodup) :
      rest.foldl setField built = built ++ rest := by
    induction rest generalizing built with
    | nil => exact (List.append_nil built).symm
    | cons field rest inductionHypothesis =>
        have isNew : field.1 ∉ built.map Prod.fst := by
          rw [List.map_append, List.map_cons] at all
          intro member
          exact (List.nodup_append.mp all).2.2 _ member _ List.mem_cons_self rfl
        rw [List.foldl_cons]
        have step : setField built field = built ++ [field] := if_neg isNew
        rw [step, inductionHypothesis (built ++ [field]) (by simpa using all)]
        exact List.append_assoc _ _ _
  exact grows [] fields distinct

/-- Every readable value is read back. -/
theorem Readable.readsBack (readable : Readable F value) : ReadsBack F value := by
  have positive (fuel : Nat) (v : Json) (opens : Opens (write F v))
      (enough : 2 * (write F v).length ≤ fuel) : ∃ less, fuel = less + 1 := by
    obtain ⟨char, tail, isText, _⟩ := opens
    rw [isText, List.length_cons] at enough
    exact ⟨fuel - 1, by omega⟩
  induction readable with
  | null =>
      intro fuel rest enough _
      obtain ⟨fuel, rfl⟩ := positive fuel _ Readable.null.opens enough
      rfl
  | bool value =>
      intro fuel rest enough _
      obtain ⟨fuel, rfl⟩ := positive fuel _ (Readable.bool value).opens enough
      cases value <;> rfl
  | @int value bounded =>
      intro fuel rest enough delimited
      obtain ⟨fuel, rfl⟩ := positive fuel _ (Readable.int bounded).opens enough
      obtain ⟨sign, isSign, written, _⟩ := writeInt_eq value
      have scanned := scanNumber_int (F := F) bounded delimited
      change readValue F (fuel + 1) (writeInt value ++ rest) = _
      rw [← scanned, written, List.append_assoc]
      exact readValue_number isSign (isInteger_toDigits _)
  | @float value isToken reads =>
      intro fuel rest enough delimited
      obtain ⟨fuel, rfl⟩ := positive fuel _ (Readable.float isToken reads).opens enough
      have scanned := scanNumber_float (F := F) isToken delimited
      obtain ⟨sign, digits, fraction, exponent, isText, isSign, isInteger, _⟩ := isToken
      change readValue F (fuel + 1) (F.repr value ++ rest) = _
      rw [reads] at scanned
      rw [← scanned, isText]
      simp only [List.append_assoc]
      exact readValue_number isSign isInteger
  | str text =>
      intro fuel rest enough _
      obtain ⟨fuel, rfl⟩ := positive fuel _ (Readable.str text).opens enough
      obtain ⟨tail, isText, scanned⟩ := scanString_quoted text rest
      change readValue F (fuel + 1) (quoted text ++ rest) = _
      rw [isText, readValue, scanned]
      simp
  | @arr items each inductionHypothesis =>
      intro fuel rest enough _
      obtain ⟨fuel, rfl⟩ := positive fuel _ (Readable.arr each).opens enough
      cases items with
      | nil => rfl
      | cons item items =>
          have all : ∀ other ∈ item :: items, Opens (write F other) ∧ ReadsBack F other :=
            fun other member => ⟨(each other member).opens, inductionHypothesis other member⟩
          have length : (write F (.arr (item :: items))).length =
              (writeItems F (item :: items)).length + 1 := rfl
          have read := readItems_writeItems fuel (List.cons_ne_nil _ _) all (by omega) rest
          have opens := opens_writeItems (List.cons_ne_nil _ _) fun other member => (all other member).1
          have noSpace := skipSpaces_of_opens opens rest
          change readValue F (fuel + 1) ('[' :: (writeItems F (item :: items) ++ rest)) = _
          obtain ⟨char, tail, isText, isOther⟩ := opens
          rw [isText] at read noSpace ⊢
          rw [readValue, noSpace]
          have notBracket : char ≠ ']' := by
            rintro rfl
            exact isOther (by simp)
          split
          next isBracket => exact absurd (List.cons.inj isBracket).1 notBracket
          next => rw [read]; rfl
  | @obj fields distinct each inductionHypothesis =>
      intro fuel rest enough _
      obtain ⟨fuel, rfl⟩ := positive fuel _ (Readable.obj distinct each).opens enough
      cases fields with
      | nil => rfl
      | cons field fields =>
          have all : ∀ other ∈ field :: fields,
              Opens (write F other.2) ∧ ReadsBack F other.2 :=
            fun other member => ⟨(each other member).opens, inductionHypothesis other member⟩
          have length : (write F (.obj (field :: fields))).length =
              (writeFields F (field :: fields)).length + 1 := rfl
          have read := readFields_writeFields fuel (List.cons_ne_nil _ _) all (by omega)
            rest
          obtain ⟨tail, isText⟩ := opens_writeFields (F := F) (List.cons_ne_nil field fields)
          change readValue F (fuel + 1) ('{' :: (writeFields F (field :: fields) ++ rest)) = _
          rw [isText, List.cons_append] at read ⊢
          rw [readValue, skipSpaces_quote]
          split
          next isBrace => exact absurd (List.cons.inj isBrace).1 (by decide)
          next => rw [read, Option.map_some, dict_of_nodup distinct]

theorem printable_digits {digits : List Char} (all : ∀ char ∈ digits, char.isDigit) :
    ∀ char ∈ digits, Printable char := fun char member => printable_of_isDigit (all char member)

theorem printable_sign {sign : List Char} (isSign : sign = [] ∨ sign = ['-']) :
    ∀ char ∈ sign, Printable char := by
  rcases isSign with rfl | rfl <;> simp [Printable]

theorem printable_integer {digits : List Char} (isInteger : IsInteger digits) :
    ∀ char ∈ digits, Printable char := by
  rcases isInteger with rfl | ⟨⟨_, all⟩, _⟩
  · simp [Printable]
  · exact printable_digits all

theorem FloatToken.printable {token : List Char} (isToken : FloatToken token) :
    ∀ char ∈ token, Printable char := by
  obtain ⟨sign, digits, fraction, exponent, rfl, isSign, isInteger, isFraction, isExponent, _⟩ :=
    isToken
  refine List.forall_mem_append.mpr ⟨List.forall_mem_append.mpr ⟨List.forall_mem_append.mpr
    ⟨printable_sign isSign, printable_integer isInteger⟩, ?_⟩, ?_⟩
  · rcases isFraction with rfl | ⟨digits, rfl, _, all⟩
    · simp
    · exact List.forall_mem_cons.mpr ⟨by decide, printable_digits all⟩
  · rcases isExponent with rfl | ⟨mark, sign, digits, rfl, isMark, isSign, _, all⟩
    · simp
    · refine List.forall_mem_cons.mpr ⟨?_, List.forall_mem_append.mpr ⟨?_, printable_digits all⟩⟩
      · rcases isMark with rfl | rfl <;> simp [Printable]
      · rcases isSign with rfl | rfl | rfl <;> simp [Printable]

/-- The text of a value is printable ASCII. -/
theorem Readable.printable (readable : Readable F value) :
    ∀ char ∈ write F value, Printable char := by
  induction readable with
  | null =>
      have all : ∀ char ∈ ['n', 'u', 'l', 'l'], Printable char := by simp [Printable]
      exact all
  | bool value =>
      have all : ∀ char ∈ ['t', 'r', 'u', 'e'] ++ ['f', 'a', 'l', 's', 'e'], Printable char := by
        simp [Printable]
      cases value
      · exact (List.forall_mem_append.mp all).2
      · exact (List.forall_mem_append.mp all).1
  | @int value bounded =>
      obtain ⟨sign, isSign, written, _⟩ := writeInt_eq value
      change ∀ char ∈ writeInt value, Printable char
      rw [written]
      exact List.forall_mem_append.mpr
        ⟨printable_sign isSign, printable_integer (isInteger_toDigits _)⟩
  | float isToken reads => exact isToken.printable
  | str text => exact printable_quoted text
  | @arr items each inductionHypothesis =>
      refine List.forall_mem_cons.mpr ⟨by decide, ?_⟩
      clear each
      induction items with
      | nil => exact List.forall_mem_singleton.mpr (by simp [Printable])
      | cons item items more =>
          have first := inductionHypothesis item List.mem_cons_self
          have later := more fun other member =>
            inductionHypothesis other (List.mem_cons_of_mem _ member)
          cases items with
          | nil => exact List.forall_mem_append.mpr ⟨first, by simp [Printable]⟩
          | cons next items =>
              exact List.forall_mem_append.mpr
                ⟨first, List.forall_mem_cons.mpr ⟨by decide, later⟩⟩
  | @obj fields distinct each inductionHypothesis =>
      refine List.forall_mem_cons.mpr ⟨by decide, ?_⟩
      clear distinct each
      induction fields with
      | nil => exact List.forall_mem_singleton.mpr (by simp [Printable])
      | cons field fields more =>
          have first := inductionHypothesis field List.mem_cons_self
          have later := more fun other member =>
            inductionHypothesis other (List.mem_cons_of_mem _ member)
          cases fields with
          | nil =>
              exact List.forall_mem_append.mpr ⟨printable_quoted field.1,
                List.forall_mem_cons.mpr ⟨by decide, List.forall_mem_append.mpr ⟨first, by simp [Printable]⟩⟩⟩
          | cons next fields =>
              exact List.forall_mem_append.mpr ⟨printable_quoted field.1,
                List.forall_mem_cons.mpr ⟨by decide, List.forall_mem_append.mpr
                  ⟨first, List.forall_mem_cons.mpr ⟨by decide, later⟩⟩⟩⟩

theorem printable_dumps (readable : Readable F value) :
    ∀ char ∈ (dumps F value).toList, Printable char := by
  unfold dumps
  rw [String.toList_ofList]
  exact readable.printable

/-- What `dumps` writes, `loads` reads. -/
theorem loads_dumps (readable : Readable F value) : loads F (dumps F value) = some value := by
  have isText : (dumps F value).toList = write F value := String.toList_ofList
  have noMark : (write F value).head? ≠ some '\ufeff' := by
    intro isMark
    exact absurd (readable.printable _ (List.mem_of_head? isMark)) (by decide)
  have noSpace := skipSpaces_of_opens readable.opens []
  have read := readable.readsBack (2 * (write F value).length + 1) [] (by omega) (by simp [Delimited])
  rw [List.append_nil] at noSpace read
  unfold loads
  rw [isText, if_neg noMark, noSpace, read]
  rfl

end Values

end Json

end JobPlatform.Store
