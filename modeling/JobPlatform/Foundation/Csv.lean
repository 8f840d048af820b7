import Mathlib.Data.List.Basic

/-!
Contract: comma-separated values, as the `csv` module writes and reads them in its `excel` dialect.

Owns:
- `write`: a field is quoted if it holds a comma, a quote or the end of a line, a quote in it is
  doubled, and a row ends with `\r\n`;
- `read`, the machine of the reader, fed with characters and the ends of lines, with its limit on
  the length of a field;
- `read_write`: what was written is read back, whatever the fields hold.

Does not own the encoding of the text.
-/

namespace JobPlatform.Foundation.Csv

abbrev Row := List (List Char)

/-! ### Writing -/

/-- A character for which a field is quoted. -/
def isSpecial (char : Char) : Bool := char = ',' || char = '"' || char = '\n' || char = '\r'

/-- Each quote twice. -/
def doubled (field : List Char) : List Char :=
  field.flatMap fun char => if char = '"' then ['"', '"'] else [char]

def writeField (field : List Char) : List Char :=
  if field.any isSpecial then '"' :: (doubled field ++ ['"']) else field

def writeFields : Row → List Char
  | [] => []
  | [field] => writeField field
  | field :: rest => writeField field ++ ',' :: writeFields rest

/-- `writer.writerow`: a single empty field is quoted, to tell it from no field. -/
def writeRow (row : Row) : List Char :=
  (if row = [[]] then ['"', '"'] else writeFields row) ++ ['\r', '\n']

/-- `writer.writerows`. -/
def write (rows : List Row) : List Char := rows.flatMap writeRow

/-! ### Reading -/

/-- The states of the reader. -/
inductive Mode where
  | startRecord
  | startField
  | inField
  | inQuotedField
  | quoteInQuotedField
  | eatCrnl
deriving DecidableEq

/-- The reader in the middle of a record. -/
structure Reader where
  mode : Mode
  field : List Char
  fields : Row

/-- The reader before a record. -/
def Reader.fresh : Reader := ⟨.startRecord, [], []⟩

/-- The field is complete. -/
def Reader.save (reader : Reader) (mode : Mode) : Reader :=
  ⟨mode, [], reader.fields ++ [reader.field]⟩

/-- The field goes on. -/
def Reader.add (limit : Nat) (reader : Reader) (mode : Mode) (char : Char) : Except String Reader :=
  if reader.field.length < limit then .ok ⟨mode, reader.field ++ [char], reader.fields⟩
  else .error "field larger than field limit"

/-- A character where a field may start. -/
def Reader.open (limit : Nat) (reader : Reader) (char : Char) : Except String Reader :=
  if char = '\n' ∨ char = '\r' then .ok (reader.save .eatCrnl)
  else if char = '"' then .ok { reader with mode := .inQuotedField }
  else if char = ',' then .ok (reader.save .startField)
  else reader.add limit .inField char

/-- `parse_process_char` of a character. -/
def Reader.feed (limit : Nat) (reader : Reader) (char : Char) : Except String Reader :=
  match reader.mode with
  | .startRecord =>
      if char = '\n' ∨ char = '\r' then .ok { reader with mode := .eatCrnl }
      else reader.open limit char
  | .startField => reader.open limit char
  | .inField =>
      if char = '\n' ∨ char = '\r' then .ok (reader.save .eatCrnl)
      else if char = ',' then .ok (reader.save .startField)
      else reader.add limit .inField char
  | .inQuotedField =>
      if char = '"' then .ok { reader with mode := .quoteInQuotedField }
      else reader.add limit .inQuotedField char
  | .quoteInQuotedField =>
      if char = '"' then reader.add limit .inQuotedField char
      else if char = ',' then .ok (reader.save .startField)
      else if char = '\n' ∨ char = '\r' then .ok (reader.save .eatCrnl)
      else reader.add limit .inField char
  | .eatCrnl =>
      if char = '\n' ∨ char = '\r' then .ok reader
      else .error "new-line character seen in unquoted field"

/-- The record that the end of a line completes. A quoted field goes on. -/
def Reader.endLine (reader : Reader) : Option Row :=
  match reader.mode with
  | .inQuotedField => none
  | .startRecord => some reader.fields
  | .eatCrnl => some reader.fields
  | _ => some (reader.fields ++ [reader.field])

/-- What the reader is fed: the characters of the text, and `none` after each line. A line ends with
`\n`, with `\r`, or with both. -/
def events : List Char → List (Option Char)
  | [] => []
  | '\r' :: '\n' :: rest => some '\r' :: some '\n' :: none :: events rest
  | char :: rest =>
      if char = '\n' ∨ char = '\r' ∨ rest = [] then some char :: none :: events rest
      else some char :: events rest

/-- The records of the rest of a text. -/
def records (limit : Nat) (reader : Reader) : List (Option Char) → Except String (List Row)
  | [] =>
      if reader.mode = .inQuotedField ∨ reader.field ≠ [] then .ok [reader.fields ++ [reader.field]]
      else .ok []
  | some char :: rest => do records limit (← reader.feed limit char) rest
  | none :: rest =>
      match reader.endLine with
      | some row => do return row :: (← records limit .fresh rest)
      | none => records limit reader rest

/-- `csv.reader`. -/
def read (limit : Nat) (text : List Char) : Except String (List Row) :=
  records limit .fresh (events text)

/-! ### What the reader is fed -/

section RoundTrip

variable (limit : Nat) (fields : Row)

theorem events_cons {char : Char} (plain : char ≠ '\n' ∧ char ≠ '\r') {rest : List Char}
    (more : rest ≠ []) : events (char :: rest) = some char :: events rest := by
  rw [events.eq_3 char rest fun _ isReturn _ => plain.2 isReturn,
    if_neg (by simp [plain.1, plain.2, more])]

/-- The last character of a line. -/
theorem events_cons_of_ends {char : Char} {rest : List Char}
    (ends : char = '\n' ∨ char = '\r' ∨ rest = [])
    (alone : ∀ after, char = '\r' → rest = '\n' :: after → False) :
    events (char :: rest) = some char :: none :: events rest := by
  rw [events.eq_3 char rest alone, if_pos ends]

theorem records_some (reader : Reader) (char : Char) (rest : List (Option Char)) :
    records limit reader (some char :: rest) =
      reader.feed limit char >>= fun next => records limit next rest := rfl

/-- The end of a line means nothing within quotes. -/
theorem records_none_quoted (sofar : List Char) (rest : List (Option Char)) :
    records limit ⟨.inQuotedField, sofar, fields⟩ (none :: rest) =
      records limit ⟨.inQuotedField, sofar, fields⟩ rest := rfl

theorem feed_quoted {char : Char} (other : char ≠ '"') {sofar : List Char}
    (fits : sofar.length < limit) :
    Reader.feed limit ⟨.inQuotedField, sofar, fields⟩ char =
      .ok ⟨.inQuotedField, sofar ++ [char], fields⟩ := by
  simp [Reader.feed, Reader.add, other, fits]

/-! ### A field within quotes -/

/-- Wherever the lines end, a character within quotes is one more character of the field. -/
theorem records_quoted_char {char : Char} (other : char ≠ '"') {sofar : List Char}
    (fits : sofar.length < limit) (rest : List Char) :
    records limit ⟨.inQuotedField, sofar, fields⟩ (events (char :: rest)) =
      records limit ⟨.inQuotedField, sofar ++ [char], fields⟩ (events rest) := by
  have fed := feed_quoted limit fields other fits
  by_cases both : char = '\r' ∧ ∃ after, rest = '\n' :: after
  · obtain ⟨rfl, after, rfl⟩ := both
    rw [events_cons_of_ends (Or.inl rfl) (by simp)]
    show (Reader.feed limit _ '\r' >>= fun next => records limit next _) = _
    rw [fed]
    show records limit _ (some '\n' :: none :: events after) = _
    rfl
  · have alone : ∀ after, char = '\r' → rest = '\n' :: after → False :=
      fun after isReturn line => both ⟨isReturn, after, line⟩
    by_cases ends : char = '\n' ∨ char = '\r' ∨ rest = []
    · rw [events_cons_of_ends ends alone, records_some, fed]
      exact records_none_quoted limit fields _ _
    · rw [events.eq_3 char rest alone, if_neg ends, records_some, fed]
      rfl

/-- A doubled quote is one. -/
theorem records_quoted_quote {sofar : List Char} (fits : sofar.length < limit)
    (rest : List Char) :
    records limit ⟨.inQuotedField, sofar, fields⟩ (events ('"' :: '"' :: rest)) =
      records limit ⟨.inQuotedField, sofar ++ ['"'], fields⟩ (events rest) := by
  have fed : Reader.feed limit ⟨.quoteInQuotedField, sofar, fields⟩ '"' =
      .ok ⟨.inQuotedField, sofar ++ ['"'], fields⟩ := by
    simp [Reader.feed, Reader.add, fits]
  rw [events_cons (by decide) (by simp)]
  show records limit ⟨.quoteInQuotedField, sofar, fields⟩ (events ('"' :: rest)) = _
  by_cases last : rest = []
  · rw [events_cons_of_ends (Or.inr (Or.inr last)) (by simp), records_some, fed]
    exact records_none_quoted limit fields _ _
  · rw [events_cons (by decide) last, records_some, fed]
    rfl

theorem records_doubled : ∀ (field sofar rest : List Char), sofar.length + field.length ≤ limit →
    records limit ⟨.inQuotedField, sofar, fields⟩ (events (doubled field ++ rest)) =
      records limit ⟨.inQuotedField, sofar ++ field, fields⟩ (events rest)
  | [], sofar, rest, _ => by simp [doubled]
  | char :: field, sofar, rest, fits => by
      have room : sofar.length < limit := by simp at fits; omega
      have fitting : (sofar ++ [char]).length + field.length ≤ limit := by
        simp at fits ⊢; omega
      have onward := records_doubled field (sofar ++ [char]) rest fitting
      rw [List.append_assoc] at onward
      by_cases quote : char = '"'
      · subst quote
        show records limit _ (events ('"' :: '"' :: (doubled field ++ rest))) = _
        rw [records_quoted_quote limit fields room]
        exact onward
      · rw [show doubled (char :: field) ++ rest = char :: (doubled field ++ rest) by
            simp [doubled, quote], records_quoted_char limit fields quote room]
        exact onward

/-! ### A field of its own -/

theorem not_special {char : Char} (plain : isSpecial char = false) :
    char ≠ ',' ∧ char ≠ '"' ∧ char ≠ '\n' ∧ char ≠ '\r' := by
  simpa [isSpecial, and_assoc] using plain

theorem records_plain : ∀ (field sofar rest : List Char), (∀ char ∈ field, isSpecial char = false) →
    rest ≠ [] → sofar.length + field.length ≤ limit →
    records limit ⟨.inField, sofar, fields⟩ (events (field ++ rest)) =
      records limit ⟨.inField, sofar ++ field, fields⟩ (events rest)
  | [], sofar, rest, _, _, _ => by simp
  | char :: field, sofar, rest, plain, more, fits => by
      have this := not_special (plain char (by simp))
      have room : sofar.length < limit := by simp at fits; omega
      have fed : Reader.feed limit ⟨.inField, sofar, fields⟩ char =
          .ok ⟨.inField, sofar ++ [char], fields⟩ := by
        simp [Reader.feed, Reader.add, this, room]
      rw [List.cons_append, events_cons this.2.2 (by simp [more]), records_some, fed]
      show records limit ⟨.inField, sofar ++ [char], fields⟩ (events (field ++ rest)) = _
      have later : ∀ other ∈ field, isSpecial other = false :=
        fun other member => plain other (by simp [member])
      rw [records_plain field (sofar ++ [char]) rest later more (by simp at fits ⊢; omega),
        List.append_assoc]
      rfl

/-- The modes in which a comma or the end of a line completes the field. -/
def Mode.Closing (mode : Mode) : Prop :=
  mode = .startField ∨ mode = .inField ∨ mode = .quoteInQuotedField

/-- A written field is read up to its end. -/
theorem records_writeField (field : List Char) (fits : field.length ≤ limit) {rest : List Char}
    (more : rest ≠ []) : ∃ mode : Mode, mode.Closing ∧
      records limit ⟨.startField, [], fields⟩ (events (writeField field ++ rest)) =
        records limit ⟨mode, field, fields⟩ (events rest) := by
  by_cases special : field.any isSpecial = true
  · refine ⟨.quoteInQuotedField, Or.inr (Or.inr rfl), ?_⟩
    rw [writeField, if_pos special, List.cons_append, List.append_assoc,
      events_cons (by decide) (by simp)]
    show records limit ⟨.inQuotedField, [], fields⟩ _ = _
    rw [records_doubled limit fields field [] _ (by simpa using fits), List.singleton_append,
      events_cons (by decide) more]
    rfl
  · rw [writeField, if_neg special]
    have plain : ∀ char ∈ field, isSpecial char = false := by simpa using special
    cases field with
    | nil => exact ⟨.startField, Or.inl rfl, rfl⟩
    | cons char field =>
      refine ⟨.inField, Or.inr (Or.inl rfl), ?_⟩
      have this := not_special (plain char (by simp))
      have fed : Reader.feed limit ⟨.startField, [], fields⟩ char =
          .ok ⟨.inField, [char], fields⟩ := by
        have room : 0 < limit := by simp at fits; omega
        simp [Reader.feed, Reader.open, Reader.add, this, room]
      rw [List.cons_append, events_cons this.2.2 (by simp [more]), records_some, fed]
      exact records_plain limit fields field [char] rest
        (fun other member => plain other (by simp [member])) more (by simp at fits ⊢; omega)

theorem records_comma {mode : Mode} (closing : mode.Closing) (field : List Char)
    {rest : List Char} (more : rest ≠ []) :
    records limit ⟨mode, field, fields⟩ (events (',' :: rest)) =
      records limit ⟨.startField, [], fields ++ [field]⟩ (events rest) := by
  rw [events_cons (by decide) more]
  rcases closing with rfl | rfl | rfl <;> rfl

theorem records_crnl {mode : Mode} (closing : mode.Closing) (field rest : List Char) :
    records limit ⟨mode, field, fields⟩ (events ('\r' :: '\n' :: rest)) =
      records limit .fresh (events rest) >>= fun later =>
        .ok ((fields ++ [field]) :: later) := by
  rcases closing with rfl | rfl | rfl <;> rfl

/-! ### Rows -/

theorem records_writeFields : ∀ (row fields : Row), row ≠ [] →
    (∀ field ∈ row, field.length ≤ limit) → ∀ rest : List Char,
    records limit ⟨.startField, [], fields⟩ (events (writeFields row ++ '\r' :: '\n' :: rest)) =
      records limit .fresh (events rest) >>= fun later => .ok ((fields ++ row) :: later)
  | [], _, nonempty, _, _ => absurd rfl nonempty
  | [field], fields, _, fits, rest => by
      obtain ⟨mode, closing, run⟩ := records_writeField limit fields field (fits field (by simp))
        (show '\r' :: '\n' :: rest ≠ [] by simp)
      show records limit _ (events (writeField field ++ '\r' :: '\n' :: rest)) = _
      rw [run, records_crnl limit fields closing]
  | field :: next :: row, fields, _, fits, rest => by
      obtain ⟨mode, closing, run⟩ := records_writeField limit fields field (fits field (by simp))
        (show ',' :: (writeFields (next :: row) ++ '\r' :: '\n' :: rest) ≠ [] by simp)
      show records limit _
        (events ((writeField field ++ ',' :: writeFields (next :: row)) ++ _)) = _
      rw [List.append_assoc, List.cons_append, run, records_comma limit fields closing _ (by simp),
        records_writeFields (next :: row) (fields ++ [field]) (by simp)
          (fun other member => fits other (by simp_all)) rest, List.append_assoc]
      rfl

/-- A record starts as a field does, but for an empty line. -/
theorem records_fresh {char : Char} (plain : char ≠ '\n' ∧ char ≠ '\r')
    (rest : List (Option Char)) :
    records limit .fresh (some char :: rest) =
      records limit ⟨.startField, [], []⟩ (some char :: rest) := by
  have fed : Reader.feed limit .fresh char = Reader.feed limit ⟨.startField, [], []⟩ char := by
    have inside : ¬(char = '\n' ∨ char = '\r') := by simp [plain]
    show (if char = '\n' ∨ char = '\r' then _ else Reader.open limit .fresh char) = _
    rw [if_neg inside]
    show Reader.open limit _ char = Reader.open limit _ char
    rw [Reader.open, Reader.open, if_neg inside, if_neg inside]
    rfl
  rw [records_some, records_some, fed]

/-- A written field does not start with the end of a line. -/
theorem writeField_head (field : List Char) :
    writeField field = [] ∨ ∃ char rest, writeField field = char :: rest ∧
      char ≠ '\n' ∧ char ≠ '\r' := by
  by_cases special : field.any isSpecial = true
  · exact Or.inr ⟨'"', _, by rw [writeField, if_pos special], by decide⟩
  · rw [writeField, if_neg special]
    cases field with
    | nil => exact Or.inl rfl
    | cons char rest =>
      have plain : ∀ other ∈ char :: rest, isSpecial other = false := by simpa using special
      exact Or.inr ⟨char, rest, rfl, (not_special (plain char (by simp))).2.2⟩

theorem writeField_eq_nil {field : List Char} (nothing : writeField field = []) : field = [] := by
  by_cases special : field.any isSpecial = true
  · simp [writeField, special] at nothing
  · simpa [writeField, special] using nothing

/-- Nor does a written row, if it has a field. -/
theorem writeRow_head {row : Row} (nonempty : row ≠ []) (several : row ≠ [[]]) :
    ∃ char rest, writeFields row = char :: rest ∧ char ≠ '\n' ∧ char ≠ '\r' := by
  cases row with
  | nil => exact absurd rfl nonempty
  | cons field row =>
    have head := writeField_head field
    cases row with
    | nil =>
      have written : writeField field ≠ [] := fun nothing =>
        several (by rw [writeField_eq_nil nothing])
      exact head.resolve_left written
    | cons next row =>
      show ∃ char rest, writeField field ++ ',' :: writeFields (next :: row) = char :: rest ∧ _
      rcases head with nothing | ⟨char, rest, starts, plain⟩
      · exact ⟨',', _, by rw [nothing]; rfl, by decide⟩
      · exact ⟨char, _, by rw [starts]; rfl, plain⟩

theorem records_writeRow (row : Row) (fits : ∀ field ∈ row, field.length ≤ limit)
    (rest : List Char) :
    records limit .fresh (events (writeRow row ++ rest)) =
      records limit .fresh (events rest) >>= fun later => .ok (row :: later) := by
  by_cases single : row = [[]]
  · subst single
    rfl
  · rw [writeRow, if_neg single, List.append_assoc]
    by_cases empty : row = []
    · subst empty
      rfl
    · obtain ⟨char, after, starts, plain⟩ := writeRow_head empty single
      have body := records_writeFields limit row [] empty fits rest
      rw [starts] at body ⊢
      rw [List.nil_append, List.cons_append, events_cons plain (by simp)] at body
      show records limit .fresh (events (char :: (after ++ '\r' :: '\n' :: rest))) = _
      rw [events_cons plain (by simp), records_fresh limit plain]
      exact body

end RoundTrip

/-- **What is written is read back.** -/
theorem read_write (limit : Nat) : ∀ rows : List Row,
    (∀ row ∈ rows, ∀ field ∈ row, field.length ≤ limit) → read limit (write rows) = .ok rows
  | [], _ => rfl
  | row :: rows, fits => by
      show records limit .fresh (events (writeRow row ++ write rows)) = _
      have later : records limit .fresh (events (write rows)) = .ok rows :=
        read_write limit rows fun other member => fits other (by simp [member])
      rw [records_writeRow limit row (fits row (by simp)), later]
      rfl

example : read 9 (write [["a,b".toList, "\"".toList], [[]], []]) =
    .ok [["a,b".toList, "\"".toList], [[]], []] := by rfl

end JobPlatform.Foundation.Csv
