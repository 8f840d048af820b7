import Mathlib.Data.List.Infix
import Mathlib.Tactic.Tauto

/-!
Contract: pure POSIX paths, joined as text and compared after `..` is resolved.

Owns:
- `join`, the joining of two path texts, and `parse`, the anchor and the components of a text;
- `resolve`, the components after every `..` took back the one before it;
- `Within` and `StrictlyBelow`, the containment of a path in a directory, and what a path gains and
  loses with its last components;
- `FileSystem`, which refuses paths for their length, and `FileSystem.limited`.

Does not own a directory tree: links are not followed, and no path need exist.
-/

namespace JobPlatform.Foundation

/-- Where a path starts: at the current directory, at `/`, or at `//`. -/
inductive Anchor where
  | relative
  | root
  | doubleRoot
deriving DecidableEq

/-- An anchor and components, none of them empty or `.`. -/
structure PosixPath where
  anchor : Anchor
  parts : List (List Char)
deriving DecidableEq

namespace PosixPath

/-- The component `..`. -/
def parent : List Char := ['.', '.']

/-- `posixpath.join(path, other)`. -/
def join (path other : List Char) : List Char :=
  if other.head? = some '/' then other
  else if path = [] ∨ path.getLast? = some '/' then path ++ other
  else path ++ '/' :: other

/-- The anchor of a text. Exactly two slashes are an anchor of their own. -/
def anchorOf : List Char → Anchor
  | '/' :: '/' :: '/' :: _ => .root
  | '/' :: '/' :: _ => .doubleRoot
  | '/' :: _ => .root
  | _ => .relative

/-- The text between slashes is a component. -/
def IsPart (text : List Char) : Prop := text ≠ [] ∧ text ≠ ['.']

instance : DecidablePred IsPart := fun _ => inferInstanceAs (Decidable (_ ∧ _))

/-- The components of a text. -/
def partsOf (text : List Char) : List (List Char) := (text.splitOn '/').filter IsPart

/-- `PurePosixPath(text)`. -/
def parse (text : List Char) : PosixPath := ⟨anchorOf text, partsOf text⟩

/-- One component onto the reversed path. A `..` takes back a name; above the anchor it has no
effect, and above a relative start it stays. -/
def push (anchor : Anchor) (stack : List (List Char)) (part : List Char) : List (List Char) :=
  if part = parent then
    match stack with
    | [] => if anchor = .relative then [parent] else []
    | top :: below => if top = parent then parent :: stack else below
  else part :: stack

/-- The components after every `..` is resolved. -/
def resolve (path : PosixPath) : List (List Char) :=
  (path.parts.foldl (push path.anchor) []).reverse

/-- The path is the directory, or below it. -/
def Within (directory path : PosixPath) : Prop :=
  path.anchor = directory.anchor ∧
    ∃ rest, path.resolve = directory.resolve ++ rest ∧ parent ∉ rest

/-- The path is below the directory. -/
def StrictlyBelow (directory path : PosixPath) : Prop :=
  path.anchor = directory.anchor ∧
    ∃ rest, rest ≠ [] ∧ path.resolve = directory.resolve ++ rest ∧ parent ∉ rest

/-- More components. -/
def extend (path : PosixPath) (more : List (List Char)) : PosixPath :=
  ⟨path.anchor, path.parts ++ more⟩

/-- The bytes of a component, encoded as UTF-8. -/
def byteLength : List Char → Nat
  | [] => 0
  | char :: rest => char.utf8Size + byteLength rest

theorem byteLength_append (first rest : List Char) :
    byteLength (first ++ rest) = byteLength first + byteLength rest := by
  induction first with
  | nil => simp [byteLength]
  | cons char first inductionHypothesis => simp [byteLength, inductionHypothesis, Nat.add_assoc]

/-- A text of ASCII characters has a byte for each of them. -/
theorem byteLength_ascii {part : List Char} (ascii : ∀ char ∈ part, char.utf8Size = 1) :
    byteLength part = part.length := by
  induction part with
  | nil => rfl
  | cons char rest inductionHypothesis =>
      rw [byteLength, ascii char List.mem_cons_self,
        inductionHypothesis fun other member => ascii other (List.mem_cons_of_mem _ member),
        List.length_cons, Nat.add_comm]

/-- The lengths of the components. -/
def lengths (path : PosixPath) : List Nat := path.parts.map byteLength

theorem lengths_extend (path : PosixPath) (more : List (List Char)) :
    (path.extend more).lengths = path.lengths ++ more.map byteLength :=
  List.map_append ..

/-! ### Joining -/

theorem partsOf_append_slash (first rest : List Char) :
    partsOf (first ++ '/' :: rest) = partsOf first ++ partsOf rest := by
  unfold partsOf
  rw [List.splitOn_append_cons_self, List.filter_append]

theorem partsOf_name {name : List Char} (noSlash : '/' ∉ name) (isPart : IsPart name) :
    partsOf name = [name] := by
  unfold partsOf
  rw [List.splitOn_eq_singleton noSlash]
  simp [isPart]

/-- A text that ends in a slash has the components of the text before it. -/
theorem partsOf_ends_slash {text : List Char} (ends : text.getLast? = some '/') (rest : List Char) :
    partsOf (text ++ rest) = partsOf text ++ partsOf rest := by
  obtain ⟨before, rfl⟩ := List.getLast?_eq_some_iff.mp ends
  have none : partsOf [] = [] := by decide
  rw [List.append_assoc, List.singleton_append, partsOf_append_slash, partsOf_append_slash, none,
    List.append_nil]

/-- An anchor is decided before the text that follows, unless all before it are slashes. -/
theorem anchorOf_append {path rest : List Char}
    (decided : path ∈ [[], ['/'], ['/', '/']] → rest.head? ≠ some '/') :
    anchorOf (path ++ rest) = anchorOf path := by
  match path with
  | [] =>
      cases rest with
      | nil => rfl
      | cons first rest =>
          have other : first ≠ '/' := by simpa using decided
          simp [anchorOf, other]
  | [first] =>
      by_cases slash : first = '/'
      · subst slash
        cases rest with
        | nil => rfl
        | cons second rest =>
            have other : second ≠ '/' := by simpa using decided
            simp [anchorOf, other]
      · simp [anchorOf, slash]
  | [first, second] =>
      by_cases slashes : first = '/' ∧ second = '/'
      · obtain ⟨rfl, rfl⟩ := slashes
        cases rest with
        | nil => rfl
        | cons third rest =>
            have other : third ≠ '/' := by simpa using decided
            simp [anchorOf, other]
      · by_cases slash : first = '/'
        · have other : second ≠ '/' := fun isSlash => slashes ⟨slash, isSlash⟩
          simp [anchorOf, slash, other]
        · simp [anchorOf, slash]
  | first :: second :: third :: more =>
      by_cases slash : first = '/'
      · by_cases next : second = '/'
        · by_cases last : third = '/'
          · simp [anchorOf, slash, next, last]
          · simp [anchorOf, slash, next, last]
        · simp [anchorOf, slash, next]
      · simp [anchorOf, slash]

/-- A text that does not start with a slash adds its components to the path. -/
theorem parse_join (path : List Char) {other : List Char} (free : other.head? ≠ some '/') :
    parse (join path other) = (parse path).extend (partsOf other) := by
  unfold join
  rw [if_neg free]
  by_cases ends : path = [] ∨ path.getLast? = some '/'
  · rw [if_pos ends]
    have sameAnchor : anchorOf (path ++ other) = anchorOf path := anchorOf_append fun _ => free
    have sameParts : partsOf (path ++ other) = partsOf path ++ partsOf other := by
      rcases ends with rfl | slash
      · rfl
      · exact partsOf_ends_slash slash other
    exact congrArg₂ PosixPath.mk sameAnchor sameParts
  · rw [if_neg ends]
    have sameAnchor : anchorOf (path ++ '/' :: other) = anchorOf path := by
      apply anchorOf_append
      intro slashes
      simp only [List.mem_cons, List.not_mem_nil, or_false] at slashes
      rcases slashes with rfl | rfl | rfl
      · exact absurd (.inl rfl) ends
      · exact absurd (.inr rfl) ends
      · exact absurd (.inr rfl) ends
    exact congrArg₂ PosixPath.mk sameAnchor (partsOf_append_slash path other)

theorem mem_join {path other : List Char} {char : Char} (member : char ∈ join path other) :
    char ∈ path ∨ char ∈ other ∨ char = '/' := by
  unfold join at member
  split at member
  · exact .inr (.inl member)
  · split at member
    · rcases List.mem_append.mp member with inPath | inOther
      · exact .inl inPath
      · exact .inr (.inl inOther)
    · simp only [List.mem_append, List.mem_cons] at member
      tauto

/-- A text that does not start with a slash is joined without loss. -/
theorem mem_join_of_mem {path other : List Char} (free : other.head? ≠ some '/') {char : Char}
    (member : char ∈ path ∨ char ∈ other) : char ∈ join path other := by
  unfold join
  rw [if_neg free]
  split
  · exact List.mem_append.mpr member
  · rw [List.mem_append, List.mem_cons]
    tauto

/-! ### Resolving -/

section Resolve

variable {directory path : PosixPath} {more : List (List Char)}

theorem foldl_push_names (anchor : Anchor) (stack : List (List Char)) (names : parent ∉ more) :
    more.foldl (push anchor) stack = more.reverse ++ stack := by
  induction more generalizing stack with
  | nil => rfl
  | cons part more inductionHypothesis =>
      have isName : part ≠ parent := fun isParent => names (isParent ▸ List.mem_cons_self)
      have pushed : push anchor stack part = part :: stack := if_neg isName
      rw [List.foldl_cons, pushed,
        inductionHypothesis _ fun member => names (List.mem_cons_of_mem _ member)]
      simp

/-- Names are added as they are. -/
theorem resolve_extend (path : PosixPath) (names : parent ∉ more) :
    (path.extend more).resolve = path.resolve ++ more := by
  unfold resolve extend
  rw [List.foldl_append, foldl_push_names _ _ names]
  simp

/-- What is named within a directory is below it. -/
theorem Within.strictlyBelow (within : Within directory path) (some : more ≠ [])
    (names : parent ∉ more) : StrictlyBelow directory (path.extend more) := by
  obtain ⟨sameAnchor, rest, isRest, restNames⟩ := within
  refine ⟨sameAnchor, rest ++ more, ?_, ?_, ?_⟩
  · simp [some]
  · rw [resolve_extend path names, isRest, List.append_assoc]
  · simp [restNames, names]

/-- A file two names under a path is below a directory only if the path is within the directory, or
the first of the names is the directory itself. -/
theorem within_of_strictlyBelow {folder file : List Char} (folderName : folder ≠ parent)
    (fileName : file ≠ parent) (below : StrictlyBelow directory (path.extend [folder, file])) :
    Within directory path ∨ directory.resolve = path.resolve ++ [folder] := by
  obtain ⟨sameAnchor, rest, some, isRest, restNames⟩ := below
  have names : parent ∉ [folder, file] := by simp [folderName.symm, fileName.symm]
  rw [resolve_extend path names] at isRest
  rcases List.eq_nil_or_concat rest with rfl | ⟨inner, last, rfl⟩
  · exact absurd rfl some
  have isInner : path.resolve ++ [folder] = directory.resolve ++ inner := by
    have split : path.resolve ++ [folder] ++ [file] = directory.resolve ++ inner ++ [last] := by
      simpa using isRest
    exact (List.append_inj' split rfl).1
  rcases List.eq_nil_or_concat inner with rfl | ⟨outer, first, rfl⟩
  · rw [List.append_nil] at isInner
    exact .inr isInner.symm
  · have isOuter : path.resolve = directory.resolve ++ outer := by
      have split : path.resolve ++ [folder] = directory.resolve ++ outer ++ [first] := by
        simpa using isInner
      exact (List.append_inj' split rfl).1
    refine .inl ⟨sameAnchor, outer, isOuter, fun isParent => restNames ?_⟩
    simp [isParent]

end Resolve

end PosixPath

/-! ### Limits -/

/-- A file system: the paths it refuses, told by their anchor and the lengths of their components. -/
structure FileSystem where
  refuses : Anchor → List Nat → Bool

namespace FileSystem

/-- The file system refuses the path. -/
def Refuses (fileSystem : FileSystem) (path : PosixPath) : Prop :=
  fileSystem.refuses path.anchor path.lengths = true

instance (fileSystem : FileSystem) : DecidablePred fileSystem.Refuses :=
  fun _ => inferInstanceAs (Decidable (_ = _))

/-- `NAME_MAX`: the longest component. -/
def limited (nameMax : Nat) : FileSystem where
  refuses _ lengths := lengths.any (nameMax < ·)

end FileSystem

end JobPlatform.Foundation
