import Mathlib.Data.Nat.ModEq
import Mathlib.Tactic.IntervalCases
import Mathlib.Tactic.Ring

/-!
Contract: UUID values, their text form, and the reader of that form.

Owns `Uuid`, `str` (the text `str(uuid)`), `parse` (the constructor `UUID(text)`), and their round
trip. Python's reader accepts more than it writes: braces, `urn:` and `uuid:` prefixes, misplaced
hyphens, and whatever `int(text, 16)` accepts in ASCII.

Does not own generation: a fresh UUID is an input of the operation that draws it.
-/

namespace JobPlatform.Store

/-- A UUID: 128 bits. -/
structure Uuid where
  int : Nat
  bounded : int < 2 ^ 128
deriving DecidableEq

namespace Uuid

/-- `UUID(int=value)`, with the value reduced to 128 bits. -/
def ofInt (value : Nat) : Uuid := ⟨value % 2 ^ 128, Nat.mod_lt _ (by decide)⟩

/-! ### Writing -/

/-- `width` lower-case hexadecimal digits, most significant first (`"%0*x"`). -/
def hexDigits : Nat → Nat → List Char
  | 0, _ => []
  | width + 1, value => hexDigits width (value / 16) ++ [Nat.digitChar (value % 16)]

/-- The groups 8-4-4-4-12 of 32 digits. -/
def hyphenate (digits : List Char) : List Char :=
  digits.take 8 ++ '-' :: ((digits.drop 8).take 4 ++ '-' :: ((digits.drop 12).take 4 ++
    '-' :: ((digits.drop 16).take 4 ++ '-' :: digits.drop 20)))

/-- `str(uuid)`. -/
def str (uuid : Uuid) : String := String.ofList (hyphenate (hexDigits 32 uuid.int))

/-! ### Reading -/

/-- `text.replace(pattern, "")`: occurrences are removed from the left, without overlap. -/
def removeAll (pattern : List Char) : Nat → List Char → List Char
  | _, [] => []
  | 0, text => text
  | fuel + 1, char :: rest =>
      if pattern.isPrefixOf (char :: rest) then
        removeAll pattern fuel (rest.drop (pattern.length - 1))
      else char :: removeAll pattern fuel rest

/-- `text.strip(chars)`. -/
def strip (chars : List Char) (text : List Char) : List Char :=
  ((text.dropWhile (· ∈ chars)).reverse.dropWhile (· ∈ chars)).reverse

/-- The value of a hexadecimal digit in either case. -/
def hexValue (char : Char) : Option Nat :=
  if '0' ≤ char ∧ char ≤ '9' then some (char.toNat - 48)
  else if 'a' ≤ char ∧ char ≤ 'f' then some (char.toNat - 87)
  else if 'A' ≤ char ∧ char ≤ 'F' then some (char.toNat - 55)
  else none

/-- The digits of a Python integer literal: single underscores may stand between digits. The flag
says whether the text may end, or have an underscore, here. -/
def readDigits : Bool → Nat → List Char → Option Nat
  | complete, value, [] => if complete then some value else none
  | complete, value, char :: rest =>
      if char = '_' then
        if complete then readDigits false value rest else none
      else
        match hexValue char with
        | some digit => readDigits true (16 * value + digit) rest
        | none => none

/-- `int(text, 16)` for text without a minus sign. -/
def intBase16 (text : List Char) : Option Nat :=
  match strip [' ', '\t', '\n', '\r', '\x0b', '\x0c'] text with
  | '+' :: rest => readPrefixed rest
  | rest => readPrefixed rest
where
  readPrefixed : List Char → Option Nat
    | '0' :: 'x' :: '_' :: rest => readDigits false 0 rest
    | '0' :: 'X' :: '_' :: rest => readDigits false 0 rest
    | '0' :: 'x' :: rest => readDigits false 0 rest
    | '0' :: 'X' :: rest => readDigits false 0 rest
    | rest => readDigits false 0 rest

/-- `UUID(text)`; `none` is its `ValueError`. -/
def parse (text : String) : Option Uuid :=
  let replaced := removeAll "uuid:".toList text.length (removeAll "urn:".toList text.length text.toList)
  let hex := (strip ['{', '}'] replaced).filter (· ≠ '-')
  if hex.length = 32 then
    match intBase16 hex with
    | some value => if bounded : value < 2 ^ 128 then some ⟨value, bounded⟩ else none
    | none => none
  else none

/-! ### Round trip -/

/-- The characters `str` writes. -/
def Lower (char : Char) : Prop := ∃ digit < 16, char = Nat.digitChar digit

theorem hexValue_digitChar {digit : Nat} (small : digit < 16) :
    hexValue (Nat.digitChar digit) = some digit := by
  interval_cases digit <;> decide

theorem Lower.not_mem {char : Char} (lower : Lower char) :
    char ∉ ['-', '_', '+', 'x', 'X', 'u', '{', '}', ' ', '\t', '\n', '\r', '\x0b', '\x0c'] := by
  obtain ⟨digit, small, rfl⟩ := lower
  interval_cases digit <;> decide

theorem lower_of_mem_hexDigits {width value : Nat} {char : Char}
    (member : char ∈ hexDigits width value) : Lower char := by
  induction width generalizing value with
  | zero => cases member
  | succ width inductionHypothesis =>
      rw [hexDigits, List.mem_append, List.mem_singleton] at member
      rcases member with earlier | rfl
      · exact inductionHypothesis earlier
      · exact ⟨value % 16, Nat.mod_lt _ (by decide), rfl⟩

theorem length_hexDigits (width value : Nat) : (hexDigits width value).length = width := by
  induction width generalizing value with
  | zero => rfl
  | succ width inductionHypothesis => simp [hexDigits, inductionHypothesis]

/-- Reading back what `hexDigits` wrote, with more text to come. -/
theorem readDigits_hexDigits (width value start : Nat) (flag : Bool) (rest : List Char) :
    readDigits flag start (hexDigits width value ++ rest) =
      readDigits (flag || decide (0 < width)) (16 ^ width * start + value % 16 ^ width) rest := by
  induction width generalizing value rest with
  | zero => simp [hexDigits, Nat.mod_one]
  | succ width inductionHypothesis =>
      have small : value % 16 < 16 := Nat.mod_lt _ (by decide)
      have notUnderscore : Nat.digitChar (value % 16) ≠ '_' := fun equal =>
        Lower.not_mem ⟨value % 16, small, rfl⟩ (by rw [equal]; decide)
      have horner : 16 * (16 ^ width * start + value / 16 % 16 ^ width) + value % 16 =
          16 ^ (width + 1) * start + value % 16 ^ (width + 1) := by
        rw [Nat.pow_succ', Nat.mod_mul]
        ring
      rw [hexDigits, List.append_assoc, inductionHypothesis, List.singleton_append, readDigits,
        if_neg notUnderscore, hexValue_digitChar small]
      simp [horner]

theorem removeAll_of_head_absent {head : Char} {tail : List Char} {fuel : Nat} {text : List Char}
    (absent : head ∉ text) : removeAll (head :: tail) fuel text = text := by
  induction text generalizing fuel with
  | nil => cases fuel <;> rfl
  | cons char rest inductionHypothesis =>
      cases fuel with
      | zero => rfl
      | succ fuel =>
          have different : ¬ (head == char) = true := by
            intro equal
            exact absent (by simp [eq_of_beq equal])
          rw [removeAll, if_neg (by simp [List.isPrefixOf, different]),
            inductionHypothesis fun member => absent (List.mem_cons_of_mem char member)]

theorem strip_of_ends {chars text : List Char} (first : ∀ char ∈ text.head?, char ∉ chars)
    (last : ∀ char ∈ text.getLast?, char ∉ chars) : strip chars text = text := by
  have keepsHead : ∀ list : List Char, (∀ char ∈ list.head?, char ∉ chars) →
      list.dropWhile (· ∈ chars) = list := by
    intro list clean
    cases list with
    | nil => rfl
    | cons char rest => exact List.dropWhile_cons_of_neg (by simpa using clean char rfl)
  unfold strip
  rw [keepsHead text first, keepsHead text.reverse (by simpa using last), List.reverse_reverse]

theorem filter_hyphenate {digits : List Char} (clean : '-' ∉ digits) :
    (hyphenate digits).filter (· ≠ '-') = digits := by
  have keeps : ∀ part : List Char, part.Sublist digits → part.filter (· ≠ '-') = part := by
    intro part sub
    rw [List.filter_eq_self]
    intro char member
    simpa using fun equal : char = '-' => clean (equal ▸ sub.subset member)
  have taken : ∀ n m, ((digits.drop n).take m).Sublist digits := fun n m =>
    (List.take_sublist _ _).trans (List.drop_sublist _ _)
  unfold hyphenate
  simp only [List.filter_append, List.filter_cons, ne_eq, not_true_eq_false, decide_false,
    Bool.false_eq_true, if_false]
  rw [keeps _ (List.take_sublist _ _), keeps _ (taken 8 4), keeps _ (taken 12 4),
    keeps _ (taken 16 4), keeps _ (List.drop_sublist _ _)]
  have split : ∀ n m, digits.drop n = (digits.drop n).take m ++ digits.drop (n + m) := by
    intro n m
    rw [← List.drop_drop, List.take_append_drop]
  calc digits.take 8 ++ ((digits.drop 8).take 4 ++ ((digits.drop 12).take 4 ++
        ((digits.drop 16).take 4 ++ digits.drop 20)))
      = digits.take 8 ++ digits.drop 8 := by rw [← split 16 4, ← split 12 4, ← split 8 4]
    _ = digits := List.take_append_drop 8 digits

/-- On plain digits `int(text, 16)` reads digits: there is nothing to strip, no sign, no prefix. -/
theorem intBase16_of_lower {text : List Char} (lower : ∀ char ∈ text, Lower char) :
    intBase16 text = readDigits false 0 text := by
  have clean : ∀ char ∈ text, char ∉ [' ', '\t', '\n', '\r', '\x0b', '\x0c'] := by
    intro char member special
    refine (lower char member).not_mem ?_
    simp only [List.mem_cons, List.not_mem_nil, or_false] at special ⊢
    tauto
  have stripped : strip [' ', '\t', '\n', '\r', '\x0b', '\x0c'] text = text :=
    strip_of_ends (fun char first => clean char (List.mem_of_mem_head? first))
      fun char last => clean char (List.mem_of_mem_getLast? last)
  unfold intBase16
  rw [stripped]
  split
  · exact absurd (lower '+' (by simp)).not_mem (by decide)
  · unfold intBase16.readPrefixed
    split
    · exact absurd (lower 'x' (by simp)).not_mem (by decide)
    · exact absurd (lower 'X' (by simp)).not_mem (by decide)
    · exact absurd (lower 'x' (by simp)).not_mem (by decide)
    · exact absurd (lower 'X' (by simp)).not_mem (by decide)
    · rfl

/-- Text of the written form is read as the number its digits denote. -/
theorem parse_hyphenate {digits : List Char} {value : Nat} (lower : ∀ char ∈ digits, Lower char)
    (length : digits.length = 32) (reads : readDigits false 0 digits = some value)
    (bounded : value < 2 ^ 128) :
    parse (String.ofList (hyphenate digits)) = some ⟨value, bounded⟩ := by
  have noHyphen : '-' ∉ digits := fun bad => (lower '-' bad).not_mem (by decide)
  have written : ∀ char ∈ hyphenate digits, char = '-' ∨ Lower char := by
    intro char member
    by_cases hyphen : char = '-'
    · exact Or.inl hyphen
    · right
      apply lower
      rw [← filter_hyphenate noHyphen]
      simp [member, hyphen]
  have absent : ∀ char ∈ ['u', '{', '}'], char ∉ hyphenate digits := by
    intro char special member
    rcases written char member with rfl | isLower
    · revert special
      decide
    · refine isLower.not_mem ?_
      simp only [List.mem_cons, List.not_mem_nil, or_false] at special ⊢
      tauto
  have noPrefix : ∀ fuel tail, removeAll ('u' :: tail) fuel (hyphenate digits) = hyphenate digits :=
    fun _ _ => removeAll_of_head_absent (absent 'u' (by decide))
  have replaced : ∀ fuel, removeAll "uuid:".toList fuel (removeAll "urn:".toList fuel
      (String.ofList (hyphenate digits)).toList) = hyphenate digits := by
    intro fuel
    simp only [String.toList_ofList]
    change removeAll ('u' :: _) fuel (removeAll ('u' :: _) fuel (hyphenate digits)) = _
    rw [noPrefix, noPrefix]
  have braces : strip ['{', '}'] (hyphenate digits) = hyphenate digits := by
    apply strip_of_ends
    · intro char first special
      exact absent char (List.mem_cons_of_mem _ special) (List.mem_of_mem_head? first)
    · intro char last special
      exact absent char (List.mem_cons_of_mem _ special) (List.mem_of_mem_getLast? last)
  unfold parse
  simp only [replaced, braces, filter_hyphenate noHyphen, length, if_true,
    intBase16_of_lower lower, reads, dif_pos bounded]

/-- `UUID(str(uuid)) == uuid`. -/
@[simp] theorem parse_str (uuid : Uuid) : parse uuid.str = some uuid := by
  refine parse_hyphenate (fun _ => lower_of_mem_hexDigits) (length_hexDigits 32 uuid.int) ?_
    uuid.bounded
  have reads := readDigits_hexDigits 32 uuid.int 0 false []
  rw [List.append_nil, Nat.mul_zero, Nat.zero_add, Nat.mod_eq_of_lt] at reads
  · rw [reads]
    rfl
  · calc uuid.int < 2 ^ 128 := uuid.bounded
      _ = 16 ^ 32 := by norm_num

/-- The characters of the written form. -/
theorem mem_str {uuid : Uuid} {char : Char} (member : char ∈ uuid.str.toList) :
    char = '-' ∨ Lower char := by
  have taken : ∀ n m, ((hexDigits 32 uuid.int).drop n).take m ⊆ hexDigits 32 uuid.int := fun n m =>
    ((List.take_sublist _ _).trans (List.drop_sublist _ _)).subset
  unfold str hyphenate at member
  simp only [String.toList_ofList, List.mem_append, List.mem_cons] at member
  rcases member with first | hyphen | second | hyphen | third | hyphen | fourth | hyphen | last
  · exact .inr (lower_of_mem_hexDigits (List.mem_of_mem_take first))
  · exact .inl hyphen
  · exact .inr (lower_of_mem_hexDigits (taken 8 4 second))
  · exact .inl hyphen
  · exact .inr (lower_of_mem_hexDigits (taken 12 4 third))
  · exact .inl hyphen
  · exact .inr (lower_of_mem_hexDigits (taken 16 4 fourth))
  · exact .inl hyphen
  · exact .inr (lower_of_mem_hexDigits (List.mem_of_mem_drop last))

theorem length_str (uuid : Uuid) : uuid.str.toList.length = 36 := by
  simp [str, hyphenate, length_hexDigits]

theorem str_injective {left right : Uuid} (same : left.str = right.str) : left = right := by
  have parsed := parse_str left
  rw [same, parse_str] at parsed
  exact (Option.some.inj parsed).symm

end Uuid

end JobPlatform.Store
