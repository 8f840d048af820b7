import JobPlatform.Store.Json

/-!
Contract: the text of JSON, as Python's `json` module writes and reads it.

Owns:
- `dumps`, `json.dumps(value, separators=(",", ":"))`: ASCII only, with `\u` escapes and surrogate
  pairs;
- `loads`, `json.loads(text)`, with its errors as `none`.

The text of a float is a parameter. A text that escapes half of a surrogate pair alone is refused
here, because no `String` is its value. The limit on nested containers is not modelled, and that on
the digits of an integer is.
-/

namespace JobPlatform.Store

/-- How floats are written and read: `float.__repr__` and `float(text)`. -/
structure FloatText where
  repr : Rat → List Char
  read : List Char → Rat

/-- `sys.get_int_max_str_digits()`. -/
def maxStrDigits : Nat := 4300

namespace Json

/-! ### Writing -/

/-- `'\\u{0:04x}'`. -/
def unicodeEscape (unit : Nat) : List Char := '\\' :: 'u' :: Uuid.hexDigits 4 unit

/-- What `py_encode_basestring_ascii` writes for one character. -/
def escapeChar (char : Char) : List Char :=
  if char = '"' then ['\\', '"']
  else if char = '\\' then ['\\', '\\']
  else if char = '\n' then ['\\', 'n']
  else if char = '\r' then ['\\', 'r']
  else if char = '\t' then ['\\', 't']
  else if char = '\x0c' then ['\\', 'f']
  else if char = '\x08' then ['\\', 'b']
  else if ' ' ≤ char ∧ char ≤ '~' then [char]
  else if char.toNat < 0x10000 then unicodeEscape char.toNat
  else unicodeEscape (0xd800 + (char.toNat - 0x10000) / 0x400) ++
    unicodeEscape (0xdc00 + (char.toNat - 0x10000) % 0x400)

/-- A string in quotes. -/
def quoted (text : String) : List Char := '"' :: (text.toList.flatMap escapeChar ++ ['"'])

/-- `int.__repr__`. -/
def writeInt (value : Int) : List Char :=
  if value < 0 then '-' :: Nat.toDigits 10 value.natAbs else Nat.toDigits 10 value.natAbs

variable (F : FloatText)

mutual

/-- The text of a value. -/
def write : Json → List Char
  | null => ['n', 'u', 'l', 'l']
  | bool true => ['t', 'r', 'u', 'e']
  | bool false => ['f', 'a', 'l', 's', 'e']
  | int value => writeInt value
  | float value => F.repr value
  | str text => quoted text
  | arr items => '[' :: writeItems items
  | obj fields => '{' :: writeFields fields

/-- The items of an array, and its end. -/
def writeItems : List Json → List Char
  | [] => [']']
  | [item] => write item ++ [']']
  | item :: next :: rest => write item ++ ',' :: writeItems (next :: rest)

/-- The fields of an object, and its end. -/
def writeFields : List (String × Json) → List Char
  | [] => ['}']
  | [(key, value)] => quoted key ++ ':' :: (write value ++ ['}'])
  | (key, value) :: next :: rest =>
      quoted key ++ ':' :: (write value ++ ',' :: writeFields (next :: rest))

end

/-- `json.dumps(value, separators=(",", ":"))`. -/
def dumps (value : Json) : String := String.ofList (write F value)

/-! ### Reading -/

/-- `WHITESPACE.match`. -/
def skipSpaces (text : List Char) : List Char := text.dropWhile (· ∈ [' ', '\t', '\n', '\r'])

/-- `_decode_uXXXX`. -/
def readUnit (a b c d : Char) : Option Nat := do
  let a ← Uuid.hexValue a
  let b ← Uuid.hexValue b
  let c ← Uuid.hexValue c
  let d ← Uuid.hexValue d
  return 4096 * a + 256 * b + 16 * c + d

/-- `BACKSLASH`. -/
def unescape : Char → Option Char
  | '"' => some '"'
  | '\\' => some '\\'
  | '/' => some '/'
  | 'b' => some '\x08'
  | 'f' => some '\x0c'
  | 'n' => some '\n'
  | 'r' => some '\r'
  | 't' => some '\t'
  | _ => none

/-- A character in front of what was read of a string. -/
def consChar (char : Char) (read : Option (List Char × List Char)) : Option (List Char × List Char) :=
  read.map fun result => (char :: result.1, result.2)

/-- `scanstring` after the opening quote, in strict mode: the string, and the text after its closing
quote. A high surrogate is pending until the escape of the low one. -/
def scanString : Option Nat → List Char → Option (List Char × List Char)
  | pending, '\\' :: 'u' :: a :: b :: c :: d :: rest =>
      match pending, readUnit a b c d with
      | _, none => none
      | none, some unit =>
          if 0xd800 ≤ unit ∧ unit < 0xdc00 then scanString (some unit) rest
          else if 0xdc00 ≤ unit ∧ unit < 0xe000 then none
          else consChar (Char.ofNat unit) (scanString none rest)
      | some high, some low =>
          if 0xdc00 ≤ low ∧ low < 0xe000 then
            consChar (Char.ofNat (0x10000 + (high - 0xd800) * 0x400 + (low - 0xdc00)))
              (scanString none rest)
          else none
  | some _, _ => none
  | none, [] => none
  | none, '"' :: rest => some ([], rest)
  | none, '\\' :: char :: rest =>
      match unescape char with
      | some char => consChar char (scanString none rest)
      | none => none
  | none, char :: rest =>
      if char.toNat < 0x20 then none else consChar char (scanString none rest)

/-- The optional minus sign of a number. -/
def scanSign : List Char → List Char × List Char
  | '-' :: rest => (['-'], rest)
  | rest => ([], rest)

/-- `0|[1-9]\d*`. -/
def scanInteger : List Char → Option (List Char × List Char)
  | '0' :: rest => some (['0'], rest)
  | char :: rest =>
      if char.isDigit then
        some ((char :: rest).takeWhile Char.isDigit, (char :: rest).dropWhile Char.isDigit)
      else none
  | [] => none

/-- `(\.\d+)?`. -/
def scanFraction : List Char → List Char × List Char
  | '.' :: char :: rest =>
      if char.isDigit then
        ('.' :: (char :: rest).takeWhile Char.isDigit, (char :: rest).dropWhile Char.isDigit)
      else ([], '.' :: char :: rest)
  | rest => ([], rest)

/-- The optional sign of an exponent. -/
def scanExponentSign : List Char → List Char × List Char
  | '+' :: rest => (['+'], rest)
  | '-' :: rest => (['-'], rest)
  | rest => ([], rest)

/-- `([eE][-+]?\d+)?`. -/
def scanExponent : List Char → List Char × List Char
  | [] => ([], [])
  | char :: rest =>
      if char = 'e' ∨ char = 'E' then
        let (sign, digits) := scanExponentSign rest
        if digits.head?.any Char.isDigit then
          (char :: (sign ++ digits.takeWhile Char.isDigit), digits.dropWhile Char.isDigit)
        else ([], char :: rest)
      else ([], char :: rest)

/-- `int(text)`. -/
def readInt (sign digits : List Char) : Int :=
  if sign = [] then Nat.ofDigitChars 10 digits 0 else -Nat.ofDigitChars 10 digits 0

/-- `_match_number`. -/
def scanNumber (text : List Char) : Option (Json × List Char) :=
  let (sign, rest) := scanSign text
  match scanInteger rest with
  | none => none
  | some (digits, rest) =>
      let (fraction, rest) := scanFraction rest
      let (exponent, rest) := scanExponent rest
      if fraction = [] ∧ exponent = [] then
        if digits.length ≤ maxStrDigits then some (int (readInt sign digits), rest) else none
      else some (float (F.read (sign ++ digits ++ fraction ++ exponent)), rest)

/-- One more item of a `dict`: an old key keeps its place and gets the new value. -/
def setField (fields : List (String × Json)) (field : String × Json) : List (String × Json) :=
  if field.1 ∈ fields.map Prod.fst then
    fields.map fun old => if old.1 = field.1 then field else old
  else fields ++ [field]

/-- `dict(pairs)`. -/
def dict (pairs : List (String × Json)) : List (String × Json) := pairs.foldl setField []

mutual

/-- `scan_once`: the value at the front of the text, and the text after it. -/
def readValue : Nat → List Char → Option (Json × List Char)
  | 0, _ => none
  | _ + 1, '"' :: rest =>
      (scanString none rest).map fun result => (str (String.ofList result.1), result.2)
  | fuel + 1, '{' :: rest =>
      match skipSpaces rest with
      | '}' :: rest => some (obj [], rest)
      | rest => (readFields fuel rest).map fun result => (obj (dict result.1), result.2)
  | fuel + 1, '[' :: rest =>
      match skipSpaces rest with
      | ']' :: rest => some (arr [], rest)
      | rest => (readItems fuel rest).map fun result => (arr result.1, result.2)
  | _ + 1, 'n' :: 'u' :: 'l' :: 'l' :: rest => some (null, rest)
  | _ + 1, 't' :: 'r' :: 'u' :: 'e' :: rest => some (bool true, rest)
  | _ + 1, 'f' :: 'a' :: 'l' :: 's' :: 'e' :: rest => some (bool false, rest)
  | _ + 1, 'N' :: 'a' :: 'N' :: rest => some (float (F.read ['N', 'a', 'N']), rest)
  | _ + 1, 'I' :: 'n' :: 'f' :: 'i' :: 'n' :: 'i' :: 't' :: 'y' :: rest =>
      some (float (F.read "Infinity".toList), rest)
  | _ + 1, '-' :: 'I' :: 'n' :: 'f' :: 'i' :: 'n' :: 'i' :: 't' :: 'y' :: rest =>
      some (float (F.read "-Infinity".toList), rest)
  | _ + 1, text => scanNumber F text

/-- `JSONArray` from its first item on. -/
def readItems : Nat → List Char → Option (List Json × List Char)
  | 0, _ => none
  | fuel + 1, text =>
      match readValue fuel text with
      | none => none
      | some (item, rest) =>
          match skipSpaces rest with
          | ',' :: rest => (readItems fuel (skipSpaces rest)).map fun result =>
              (item :: result.1, result.2)
          | ']' :: rest => some ([item], rest)
          | _ => none

/-- `JSONObject` from its first key on. -/
def readFields : Nat → List Char → Option (List (String × Json) × List Char)
  | 0, _ => none
  | fuel + 1, '"' :: text =>
      match scanString none text with
      | none => none
      | some (key, rest) =>
          match skipSpaces rest with
          | ':' :: rest =>
              match readValue fuel (skipSpaces rest) with
              | none => none
              | some (value, rest) =>
                  match skipSpaces rest with
                  | ',' :: rest => (readFields fuel (skipSpaces rest)).map fun result =>
                      ((String.ofList key, value) :: result.1, result.2)
                  | '}' :: rest => some ([(String.ofList key, value)], rest)
                  | _ => none
          | _ => none
  | _ + 1, _ => none

end

/-- `json.loads(text)`. Every container and every item consumes a character, so the fuel does not
run out. -/
def loads (text : String) : Option Json :=
  if text.toList.head? = some '\ufeff' then none
  else
    match readValue F (2 * text.toList.length + 1) (skipSpaces text.toList) with
    | some (value, rest) => if skipSpaces rest = [] then some value else none
    | none => none

end Json

end JobPlatform.Store
