import JobPlatform.Store.JsonText

/-!
Contract: the fuel of `loads` does not run out.

Owns:
- what every scanner consumes;
- `loads_eq_some_iff`: `loads` accepts what some fuel reads to the end of the text.
-/

namespace JobPlatform.Store.Json

section Consumption

variable {text rest : List Char}

theorem length_skipSpaces (text : List Char) : (skipSpaces text).length ≤ text.length :=
  (List.dropWhile_sublist _).length_le

theorem consChar_some {char : Char} {read : Option (List Char × List Char)} {chars : List Char}
    (isRead : consChar char read = some (chars, rest)) : ∃ tail, read = some (tail, rest) := by
  obtain ⟨⟨tail, after⟩, isTail, same⟩ := Option.map_eq_some_iff.mp isRead
  cases same
  exact ⟨tail, isTail⟩

/-- A string has a closing quote at least. -/
theorem length_scanString {pending : Option Nat} {chars : List Char}
    (scanned : scanString pending text = some (chars, rest)) : rest.length < text.length := by
  fun_induction scanString pending text generalizing chars with
  | case1 | case3 | case6 | case7 | case8 | case11 | case12 => cases scanned
  | case2 a b c d after unit isUnit high ih =>
      have consumed := ih scanned
      simp only [List.length_cons]
      omega
  | case4 a b c d after unit isUnit notHigh notLow ih =>
      obtain ⟨tail, read⟩ := consChar_some scanned
      have consumed := ih read
      simp only [List.length_cons]
      omega
  | case5 a b c d after high low isUnit paired ih =>
      obtain ⟨tail, read⟩ := consChar_some scanned
      have consumed := ih read
      simp only [List.length_cons]
      omega
  | case9 after =>
      cases scanned
      simp
  | case10 escaped after plain char isChar ih =>
      obtain ⟨tail, read⟩ := consChar_some scanned
      have consumed := ih read
      simp only [List.length_cons]
      omega
  | case13 char after _ _ _ _ ih =>
      obtain ⟨tail, read⟩ := consChar_some scanned
      have consumed := ih read
      simp only [List.length_cons]
      omega

theorem length_scanSign (text : List Char) : (scanSign text).2.length ≤ text.length := by
  unfold scanSign
  split <;> simp

/-- A number has a digit at least. -/
theorem length_scanInteger {digits : List Char} (scanned : scanInteger text = some (digits, rest)) :
    rest.length < text.length := by
  unfold scanInteger at scanned
  split at scanned
  · cases scanned
    simp
  · rename_i char after _
    split at scanned
    · rename_i digit
      cases scanned
      have shorter := (List.dropWhile_sublist (l := after) Char.isDigit).length_le
      rw [List.dropWhile_cons_of_pos digit, List.length_cons]
      omega
    · cases scanned
  · cases scanned

theorem length_scanFraction (text : List Char) : (scanFraction text).2.length ≤ text.length := by
  unfold scanFraction
  split
  · rename_i char after
    split
    · have shorter := (List.dropWhile_sublist (l := char :: after) Char.isDigit).length_le
      simp only [List.length_cons] at shorter ⊢
      omega
    · exact le_rfl
  · exact le_rfl

theorem length_scanExponentSign (text : List Char) :
    (scanExponentSign text).2.length ≤ text.length := by
  unfold scanExponentSign
  split <;> simp

theorem length_scanExponent (text : List Char) : (scanExponent text).2.length ≤ text.length := by
  unfold scanExponent
  split
  · exact le_rfl
  · rename_i char after
    split
    · have signed := length_scanExponentSign after
      have shorter :=
        (List.dropWhile_sublist (l := (scanExponentSign after).2) Char.isDigit).length_le
      dsimp only
      split
      · simp only [List.length_cons]
        omega
      · exact le_rfl
    · exact le_rfl

theorem length_scanNumber {F : FloatText} {value : Json}
    (scanned : scanNumber F text = some (value, rest)) : rest.length < text.length := by
  have signed := length_scanSign text
  unfold scanNumber at scanned
  dsimp only at scanned
  split at scanned
  · cases scanned
  · rename_i digits afterInteger isInteger
    have integer := length_scanInteger isInteger
    have fraction := length_scanFraction afterInteger
    have exponent := length_scanExponent (scanFraction afterInteger).2
    split at scanned
    · split at scanned
      · cases scanned
        omega
      · cases scanned
    · cases scanned
      omega

end Consumption

/-- What `read` reads with this fuel takes a character, and two units of fuel for each character of
the text are enough to read it. -/
def Enough {α : Type} (read : Nat → List Char → Option (α × List Char)) (slack fuel : Nat) : Prop :=
  ∀ text value rest, read fuel text = some (value, rest) →
    rest.length < text.length ∧
      ∀ more, 2 * text.length + slack ≤ more → read more text = some (value, rest)

theorem forall_of_succ {bound : Nat} {property : Nat → Prop} (positive : 0 < bound)
    (each : ∀ more, bound ≤ more + 1 → property (more + 1)) : ∀ more, bound ≤ more → property more
  | 0, enough => absurd enough (by omega)
  | more + 1, enough => each more enough

section Steps

variable {F : FloatText} {fuel : Nat}

/-- A container reads its items with one unit less, and its bracket pays for that. -/
theorem readValue_step (items : Enough (readItems F) 1 fuel) (fields : Enough (readFields F) 1 fuel) :
    Enough (readValue F) 0 (fuel + 1) := by
  intro text value rest isRead
  unfold readValue at isRead
  split at isRead
  · cases isRead
  · rename_i after _
    obtain ⟨⟨chars, left⟩, isString, same⟩ := Option.map_eq_some_iff.mp isRead
    cases same
    refine ⟨(length_scanString isString).trans (by simp), forall_of_succ (by simp) fun more enough => ?_⟩
    rw [readValue, isString]
    rfl
  · rename_i spare after same
    cases Nat.succ.inj same
    have spaces := length_skipSpaces after
    split at isRead
    · rename_i left isEnd
      cases isRead
      rw [isEnd, List.length_cons] at spaces
      refine ⟨by simp only [List.length_cons]; omega, forall_of_succ (by simp) fun more enough => ?_⟩
      simp only [readValue, isEnd]
    · rename_i notEnd
      obtain ⟨⟨pairs, left⟩, isPairs, same⟩ := Option.map_eq_some_iff.mp isRead
      cases same
      obtain ⟨consumed, again⟩ := fields _ _ _ isPairs
      refine ⟨by simp only [List.length_cons]; omega, forall_of_succ (by simp) fun more enough => ?_⟩
      rw [readValue]
      split
      · rename_i left isEnd
        exact absurd isEnd (notEnd left)
      · rw [again more (by simp only [List.length_cons] at enough; omega)]
        rfl
  · rename_i spare after same
    cases Nat.succ.inj same
    have spaces := length_skipSpaces after
    split at isRead
    · rename_i left isEnd
      cases isRead
      rw [isEnd, List.length_cons] at spaces
      refine ⟨by simp only [List.length_cons]; omega, forall_of_succ (by simp) fun more enough => ?_⟩
      simp only [readValue, isEnd]
    · rename_i notEnd
      obtain ⟨⟨values, left⟩, isValues, same⟩ := Option.map_eq_some_iff.mp isRead
      cases same
      obtain ⟨consumed, again⟩ := items _ _ _ isValues
      refine ⟨by simp only [List.length_cons]; omega, forall_of_succ (by simp) fun more enough => ?_⟩
      rw [readValue]
      split
      · rename_i left isEnd
        exact absurd isEnd (notEnd left)
      · rw [again more (by simp only [List.length_cons] at enough; omega)]
        rfl
  iterate 6
    · cases isRead
      refine ⟨by simp only [List.length_cons]; omega, forall_of_succ (by simp) fun more enough => ?_⟩
      rw [readValue]
  · have consumed := length_scanNumber isRead
    refine ⟨consumed, forall_of_succ (by omega) fun more enough => ?_⟩
    rw [readValue] <;> assumption

/-- Each item is read with one unit less than the item before it, and its comma pays for that. -/
theorem readItems_step (values : Enough (readValue F) 0 fuel) (items : Enough (readItems F) 1 fuel) :
    Enough (readItems F) 1 (fuel + 1) := by
  intro text result rest isRead
  unfold readItems at isRead
  split at isRead
  · cases isRead
  · rename_i item after isItem
    obtain ⟨shorter, again⟩ := values _ _ _ isItem
    have spaces := length_skipSpaces after
    split at isRead
    · rename_i left isComma
      obtain ⟨⟨others, final⟩, isOthers, same⟩ := Option.map_eq_some_iff.mp isRead
      cases same
      obtain ⟨consumed, againOthers⟩ := items _ _ _ isOthers
      have moreSpaces := length_skipSpaces left
      rw [isComma, List.length_cons] at spaces
      dsimp only
      refine ⟨by omega, forall_of_succ (by omega) fun more enough => ?_⟩
      simp only [readItems, again more (by omega), isComma, againOthers more (by omega),
        Option.map_some]
    · rename_i left isEnd
      cases isRead
      rw [isEnd, List.length_cons] at spaces
      refine ⟨by omega, forall_of_succ (by omega) fun more enough => ?_⟩
      simp only [readItems, again more (by omega), isEnd]
    · cases isRead

theorem readFields_step (values : Enough (readValue F) 0 fuel)
    (fields : Enough (readFields F) 1 fuel) : Enough (readFields F) 1 (fuel + 1) := by
  intro text result rest isRead
  unfold readFields at isRead
  split at isRead
  · cases isRead
  · rename_i spare quoted sameFuel
    cases Nat.succ.inj sameFuel
    split at isRead
    · cases isRead
    · rename_i key afterKey isKey
      have keyShorter := length_scanString isKey
      have keySpaces := length_skipSpaces afterKey
      split at isRead
      · rename_i afterColon isColon
        have colonSpaces := length_skipSpaces afterColon
        rw [isColon, List.length_cons] at keySpaces
        split at isRead
        · cases isRead
        · rename_i value after isValue
          obtain ⟨shorter, again⟩ := values _ _ _ isValue
          have spaces := length_skipSpaces after
          split at isRead
          · rename_i left isComma
            obtain ⟨⟨others, final⟩, isOthers, same⟩ := Option.map_eq_some_iff.mp isRead
            cases same
            obtain ⟨consumed, againOthers⟩ := fields _ _ _ isOthers
            have moreSpaces := length_skipSpaces left
            rw [isComma, List.length_cons] at spaces
            refine ⟨by simp only [List.length_cons]; omega, forall_of_succ (by simp) fun more enough => ?_⟩
            rw [List.length_cons] at enough
            simp only [readFields, isKey, isColon, again more (by omega), isComma,
              againOthers more (by omega), Option.map_some]
          · rename_i left isEnd
            cases isRead
            rw [isEnd, List.length_cons] at spaces
            refine ⟨by simp only [List.length_cons]; omega, forall_of_succ (by simp) fun more enough => ?_⟩
            rw [List.length_cons] at enough
            simp only [readFields, isKey, isColon, again more (by omega), isEnd]
          · cases isRead
      · cases isRead
  · cases isRead

end Steps

theorem enough (F : FloatText) (fuel : Nat) :
    Enough (readValue F) 0 fuel ∧ Enough (readItems F) 1 fuel ∧ Enough (readFields F) 1 fuel := by
  induction fuel with
  | zero =>
      refine ⟨fun _ _ _ isRead => ?_, fun _ _ _ isRead => ?_, fun _ _ _ isRead => ?_⟩
      · simp [readValue] at isRead
      · simp [readItems] at isRead
      · simp [readFields] at isRead
  | succ fuel ih =>
      obtain ⟨values, items, fields⟩ := ih
      exact ⟨readValue_step items fields, readItems_step values items,
        readFields_step values fields⟩

/-- `loads` accepts what some fuel reads to the end of the text. -/
theorem loads_eq_some_iff {F : FloatText} {text : String} {value : Json} :
    loads F text = some value ↔
      text.toList.head? ≠ some '\ufeff' ∧
        ∃ fuel rest, readValue F fuel (skipSpaces text.toList) = some (value, rest) ∧
          skipSpaces rest = [] := by
  have spaces := length_skipSpaces text.toList
  unfold loads
  split
  · rename_i marked
    simp [marked]
  · rename_i unmarked
    refine ⟨fun accepted => ⟨unmarked, 2 * text.toList.length + 1, ?_⟩, ?_⟩
    · split at accepted
      · rename_i read rest isRead
        split at accepted
        · rename_i isEnd
          cases accepted
          exact ⟨rest, isRead, isEnd⟩
        · cases accepted
      · cases accepted
    · rintro ⟨-, fuel, rest, isRead, isEnd⟩
      have again := ((enough F fuel).1 _ _ _ isRead).2 (2 * text.toList.length + 1) (by omega)
      rw [again]
      exact if_pos isEnd

end JobPlatform.Store.Json
