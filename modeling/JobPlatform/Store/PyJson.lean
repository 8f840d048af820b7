import Mathlib.Data.Rat.Defs

/-!
Contract: what `json.loads` gives for the body of a request.

Owns:
- `PyStr`, a Python `str`, in which an escape can leave half of a surrogate pair, and `text?`;
- `PyFloat`, which has the infinities and NaN that `1e400` and `NaN` are read as;
- `PyJson`, made of these, its `depth`, and `rendered`, what the JSON of an answer shows of a value.

`Json` is for the values that the platform itself writes. All their strings are texts.
-/

namespace JobPlatform.Store

/-! ### Strings -/

/-- A Python `str`: any code points. -/
structure PyStr where
  codePoints : List (Fin 0x110000)
deriving DecidableEq

namespace PyStr

/-- `ord`. -/
def ord (char : Char) : Fin 0x110000 :=
  ⟨char.toNat, char.valid.elim (fun low => lt_trans low (by decide)) And.right⟩

/-- The character of a code point, which half of a surrogate pair has not. -/
def char? (codePoint : Fin 0x110000) : Option Char :=
  if valid : codePoint.val.isValidChar then some (Char.ofNatAux codePoint valid) else none

def ofString (text : String) : PyStr := ⟨text.toList.map ord⟩

/-- `value.encode("utf-8")` as a text; `none` is a `UnicodeEncodeError`. -/
def text? (value : PyStr) : Option String := (value.codePoints.mapM char?).map String.ofList

/-- The string can be encoded. -/
def isText (value : PyStr) : Bool := value.text?.isSome

/-- The string holds a null character. -/
def hasNull (value : PyStr) : Bool := 0 ∈ value.codePoints

theorem char?_ord (char : Char) : char? (ord char) = some char := by
  have valid : (ord char).val.isValidChar := char.valid
  rw [char?, dif_pos valid]
  rfl

@[simp] theorem text?_ofString (text : String) : (ofString text).text? = some text := by
  have chars : ∀ chars : List Char, (chars.map ord).mapM char? = some chars := by
    intro chars
    induction chars with
    | nil => rfl
    | cons char chars inductionHypothesis =>
        rw [List.map_cons, List.mapM_cons, char?_ord, inductionHypothesis]
        rfl
  rw [text?, ofString, chars, Option.map_some, String.ofList_toList]

@[simp] theorem ofString_inj {left right : String} : ofString left = ofString right ↔ left = right := by
  constructor
  · intro same
    have texts := text?_ofString left
    rw [same, text?_ofString] at texts
    exact (Option.some.inj texts).symm
  · exact congrArg ofString

end PyStr

/-! ### Values -/

/-- A Python `float`. -/
inductive PyFloat where
  | finite (value : Rat)
  | infinite (negative : Bool)
  | nan

/-- `math.isfinite`. -/
def PyFloat.isFinite : PyFloat → Bool
  | finite _ => true
  | _ => false

/-- Decoded JSON, as Python holds it. -/
inductive PyJson where
  | null
  | bool (value : Bool)
  | int (value : Int)
  | float (value : PyFloat)
  | str (value : PyStr)
  | arr (items : List PyJson)
  | obj (fields : List (PyStr × PyJson))

namespace PyJson

/-- The field of an object. -/
def field? (key : String) (fields : List (PyStr × PyJson)) : Option PyJson :=
  (fields.find? fun entry => entry.1 = .ofString key).map Prod.snd

section All

variable (text : PyStr → Bool) (number : PyFloat → Bool)

mutual

/-- Every string in the value, keys included, passes the first test, and every float the second. -/
def all : PyJson → Bool
  | str value => text value
  | float value => number value
  | arr items => allItems items
  | obj fields => allFields fields
  | _ => true

def allItems : List PyJson → Bool
  | [] => true
  | item :: items => all item && allItems items

def allFields : List (PyStr × PyJson) → Bool
  | [] => true
  | (key, value) :: fields => text key && all value && allFields fields

end

end All

/-- No string in the value holds a null character. -/
def nullFree (value : PyJson) : Bool := value.all (fun text => !text.hasNull) fun _ => true

/-- All strings in the value are texts and all numbers finite, as the grammar of JSON asks. -/
def plain (value : PyJson) : Bool := value.all PyStr.isText PyFloat.isFinite

mutual

/-- The number of values that are nested in each other. -/
def depth : PyJson → Nat
  | arr items => depthItems items + 1
  | obj fields => depthFields fields + 1
  | _ => 1

def depthItems : List PyJson → Nat
  | [] => 0
  | item :: items => max (depth item) (depthItems items)

def depthFields : List (PyStr × PyJson) → Nat
  | [] => 0
  | (_, value) :: fields => max (depth value) (depthFields fields)

end

/-! ### Answers -/

mutual

/-- What the JSON of an answer shows of a value: a number that is not finite becomes null. A string
that is no text cannot be encoded. -/
def rendered : PyJson → Option PyJson
  | str value => if value.isText then some (str value) else none
  | float value => some (if value.isFinite then float value else null)
  | arr items => (renderedItems items).map arr
  | obj fields => (renderedFields fields).map obj
  | value => some value

def renderedItems : List PyJson → Option (List PyJson)
  | [] => some []
  | item :: items =>
      (rendered item).bind fun shown => (renderedItems items).map fun rest => shown :: rest

def renderedFields : List (PyStr × PyJson) → Option (List (PyStr × PyJson))
  | [] => some []
  | (key, value) :: fields =>
      if key.isText then
        (rendered value).bind fun shown =>
          (renderedFields fields).map fun rest => (key, shown) :: rest
      else none

end

mutual

/-- An answer shows a value as it is exactly if the value is plain. -/
theorem rendered_eq_self : ∀ value : PyJson, rendered value = some value ↔ value.plain
  | null => by simp [rendered, plain, all]
  | bool _ => by simp [rendered, plain, all]
  | int _ => by simp [rendered, plain, all]
  | float value => by cases value <;> simp [rendered, plain, all, PyFloat.isFinite]
  | str value => by simp [rendered, plain, all]
  | arr items => by
      have each := renderedItems_eq_self items
      simpa [rendered, plain, all] using each
  | obj fields => by
      have each := renderedFields_eq_self fields
      simpa [rendered, plain, all] using each

theorem renderedItems_eq_self : ∀ items : List PyJson,
    renderedItems items = some items ↔ allItems PyStr.isText PyFloat.isFinite items
  | [] => by simp [renderedItems, allItems]
  | item :: items => by
      have first := rendered_eq_self item
      have each := renderedItems_eq_self items
      unfold plain at first
      simp [renderedItems, allItems, Option.bind_eq_some_iff, first, each]

theorem renderedFields_eq_self : ∀ fields : List (PyStr × PyJson),
    renderedFields fields = some fields ↔ allFields PyStr.isText PyFloat.isFinite fields
  | [] => by simp [renderedFields, allFields]
  | (key, value) :: fields => by
      have first := rendered_eq_self value
      have each := renderedFields_eq_self fields
      unfold plain at first
      simp [renderedFields, allFields, Option.bind_eq_some_iff, first, each, and_assoc]

end

example : rendered (arr [str ⟨[0xd800]⟩]) = none := rfl

example : rendered (arr [float (.infinite false)]) = some (arr [null]) := rfl

end PyJson

end JobPlatform.Store
