import Mathlib.Data.List.Pairwise
import Mathlib.Data.List.Basic
import Mathlib.Algebra.GroupWithZero.Nat

/-!
Contract: relational tables whose unique constraints hold by construction.

Owns:
- tables as row lists no two of which clash on the unique columns;
- checked insertion, `UPDATE ... WHERE` that leaves the unique columns alone, lookup by
  primary key;
- the rules that reduce each statement to the rows it touches.

Does not own: any concrete schema.
-/

namespace JobPlatform.Foundation

/-- The unique constraints of a row type. `columns` collects every column a constraint looks at;
`Clash` says when two rows may not be in one table; the primary key is one of the constraints. -/
class Keyed (ρ : Type) where
  Columns : Type
  columns : ρ → Columns
  Clash : Columns → Columns → Prop
  Key : Type
  primary : Columns → Key
  decidableClash : DecidableRel Clash
  decidableKey : DecidableEq Key
  clash_symm : ∀ {left right}, Clash left right → Clash right left
  clash_of_primary : ∀ {left right}, primary left = primary right → Clash left right

instance {ρ : Type} [Keyed ρ] : DecidableRel (Keyed.Clash (ρ := ρ)) := Keyed.decidableClash

instance {ρ : Type} [Keyed ρ] : DecidableEq (Keyed.Key ρ) := Keyed.decidableKey

/-- A primary key and no other constraint. -/
@[reducible] def Keyed.byPrimary {ρ κ : Type} [DecidableEq κ] (key : ρ → κ) : Keyed ρ where
  Columns := κ
  columns := key
  Clash := Eq
  Key := κ
  primary := id
  decidableClash := inferInstance
  decidableKey := inferInstance
  clash_symm := Eq.symm
  clash_of_primary := id

/-- A primary key and one more unique constraint. -/
@[reducible] def Keyed.byPrimaryAnd {ρ κ ι : Type} [DecidableEq κ] [DecidableEq ι] (key : ρ → κ)
    (other : ρ → ι) : Keyed ρ where
  Columns := κ × ι
  columns row := (key row, other row)
  Clash left right := left.1 = right.1 ∨ left.2 = right.2
  Key := κ
  primary := Prod.fst
  decidableClash := inferInstance
  decidableKey := inferInstance
  clash_symm := Or.imp Eq.symm Eq.symm
  clash_of_primary := Or.inl

/-- The primary key of a row. -/
def Keyed.key {ρ : Type} [Keyed ρ] (row : ρ) : Keyed.Key ρ :=
  Keyed.primary (Keyed.columns row)

/-- Two rows no table may hold together. -/
def Keyed.Conflict {ρ : Type} [Keyed ρ] (left right : ρ) : Prop :=
  Keyed.Clash (Keyed.columns left) (Keyed.columns right)

instance {ρ : Type} [Keyed ρ] (left right : ρ) : Decidable (Keyed.Conflict left right) :=
  Keyed.decidableClash _ _

/-- A table: its rows in insertion order, no two of them in conflict. -/
structure Table (ρ : Type) [Keyed ρ] where
  rows : List ρ
  unique : rows.Pairwise fun left right => ¬ Keyed.Conflict left right

namespace Table

open Keyed

variable {ρ : Type} [Keyed ρ]

@[ext] theorem ext {left right : Table ρ} (same : left.rows = right.rows) : left = right := by
  cases left
  cases right
  cases same
  rfl

/-- The table without rows. -/
def empty : Table ρ := ⟨[], List.Pairwise.nil⟩

/-- `INSERT`; `none` is a unique violation. -/
def insert? (table : Table ρ) (row : ρ) : Option (Table ρ) :=
  if free : ∀ old ∈ table.rows, ¬ Conflict old row then
    some ⟨table.rows ++ [row], by
      rw [List.pairwise_append]
      refine ⟨table.unique, List.pairwise_singleton _ _, ?_⟩
      intro old member new isNew
      rw [List.mem_singleton.mp isNew]
      exact free old member⟩
  else none

/-- `UPDATE ... SET ... WHERE`, for an assignment that leaves the unique columns alone. -/
def update (table : Table ρ) (clause : ρ → Prop) [DecidablePred clause] (set : ρ → ρ)
    (fixed : ∀ row, columns (set row) = columns row) : Table ρ :=
  ⟨table.rows.map fun row => if clause row then set row else row, by
    rw [List.pairwise_map]
    refine table.unique.imp ?_
    intro left right apart
    have same : ∀ row, columns (if clause row then set row else row) = columns row := by
      intro row
      split
      · exact fixed row
      · rfl
    unfold Conflict at apart ⊢
    rwa [same, same]⟩

/-- The rows a clause selects, in table order. -/
def matching (table : Table ρ) (clause : ρ → Prop) [DecidablePred clause] : List ρ :=
  table.rows.filter fun row => decide (clause row)

/-- The row with a given primary key. -/
def find? (table : Table ρ) (id : Key ρ) : Option ρ :=
  table.rows.find? fun row => decide (key row = id)

theorem conflict_of_key {left right : ρ} (same : key left = key right) : Conflict left right :=
  clash_of_primary same

/-- Rows that clash are one row. -/
theorem eq_of_conflict (table : Table ρ) {left right : ρ} (inLeft : left ∈ table.rows)
    (inRight : right ∈ table.rows) (conflict : Conflict left right) : left = right := by
  by_contra different
  have symmetric : Std.Symm fun left right : ρ => ¬ Conflict left right :=
    ⟨fun _ _ apart clash => apart (clash_symm clash)⟩
  exact table.unique.forall inLeft inRight different conflict

theorem eq_of_key (table : Table ρ) {left right : ρ} (inLeft : left ∈ table.rows)
    (inRight : right ∈ table.rows) (same : key left = key right) : left = right :=
  table.eq_of_conflict inLeft inRight (conflict_of_key same)

theorem find?_eq_some {table : Table ρ} {id : Key ρ} {row : ρ} :
    table.find? id = some row ↔ row ∈ table.rows ∧ key row = id := by
  constructor
  · intro found
    exact ⟨List.mem_of_find?_eq_some found, by simpa using List.find?_some found⟩
  · rintro ⟨member, isKey⟩
    cases found : table.find? id with
    | none =>
        have absent := List.find?_eq_none.mp found row member
        simp [isKey] at absent
    | some other =>
        have otherKey : key other = id := by simpa using List.find?_some found
        rw [table.eq_of_key (List.mem_of_find?_eq_some found) member (otherKey.trans isKey.symm)]

theorem find?_eq_none {table : Table ρ} {id : Key ρ} :
    table.find? id = none ↔ ∀ row ∈ table.rows, key row ≠ id := by
  simp [find?]

/-! ### Insertion -/

theorem rows_of_insert? {table after : Table ρ} {row : ρ}
    (inserted : table.insert? row = some after) : after.rows = table.rows ++ [row] := by
  unfold insert? at inserted
  split at inserted
  · rw [← Option.some.inj inserted]
  · exact absurd inserted (by simp)

/-- A row that clashes with none is inserted. -/
theorem insert?_of_free {table : Table ρ} {row : ρ}
    (free : ∀ old ∈ table.rows, ¬ Conflict old row) :
    ∃ after, table.insert? row = some after ∧ after.rows = table.rows ++ [row] := by
  unfold insert?
  rw [dif_pos free]
  exact ⟨_, rfl, rfl⟩

theorem free_of_insert? {table after : Table ρ} {row : ρ}
    (inserted : table.insert? row = some after) : ∀ old ∈ table.rows, ¬ Conflict old row := by
  unfold insert? at inserted
  split at inserted
  next free => exact free
  next => exact absurd inserted (by simp)

theorem find?_insert? {table after : Table ρ} {row : ρ}
    (inserted : table.insert? row = some after) (id : Key ρ) :
    after.find? id = if key row = id then some row else table.find? id := by
  split
  next isKey =>
    rw [find?_eq_some, rows_of_insert? inserted]
    exact ⟨by simp, isKey⟩
  next otherKey =>
    unfold find?
    rw [rows_of_insert? inserted, List.find?_append]
    simp [otherKey]

/-! ### Update -/

section Update

variable {table : Table ρ} {clause : ρ → Prop} [DecidablePred clause] {set : ρ → ρ}
  {fixed : ∀ row, columns (set row) = columns row}

theorem mem_update (fixed : ∀ row, columns (set row) = columns row) {row : ρ} :
    row ∈ (table.update clause set fixed).rows ↔
      ∃ old ∈ table.rows, row = if clause old then set old else old := by
  simp only [update, List.mem_map]
  exact exists_congr fun old => and_congr_right fun _ => eq_comm

theorem key_update (fixed : ∀ row, columns (set row) = columns row) (row : ρ) :
    key (if clause row then set row else row) = key row := by
  split
  · exact congrArg primary (fixed row)
  · rfl

theorem find?_update (id : Key ρ) :
    (table.update clause set fixed).find? id =
      (table.find? id).map fun row => if clause row then set row else row := by
  unfold find? update
  rw [List.find?_map]
  congr 2
  funext row
  simp only [Function.comp_apply, key_update fixed]

/-- A column the assignment leaves alone keeps its values, in order. -/
theorem map_update {α : Type*} {column : ρ → α} (fixed : ∀ row, columns (set row) = columns row)
    (kept : ∀ row, column (set row) = column row) :
    (table.update clause set fixed).rows.map column = table.rows.map column := by
  unfold update
  rw [List.map_map]
  apply List.map_congr_left
  intro row _
  rw [Function.comp_apply]
  split
  · exact kept row
  · rfl

/-- An update whose clause selects no row changes nothing. -/
theorem update_of_none (none : ∀ row ∈ table.rows, ¬ clause row) :
    table.update clause set fixed = table := by
  apply Table.ext
  unfold update
  conv_rhs => rw [← List.map_id table.rows]
  apply List.map_congr_left
  intro row member
  simp [none row member]

end Update

/-- `WHERE key = id AND clause` on a row that satisfies the clause is `WHERE key = id`. -/
theorem update_key_of_holds {table : Table ρ} {id : Key ρ} {row : ρ} {clause : ρ → Prop}
    [DecidablePred clause] {set : ρ → ρ} {fixed : ∀ row, columns (set row) = columns row}
    (found : table.find? id = some row) (holds : clause row) :
    table.update (fun row => key row = id ∧ clause row) set fixed =
      table.update (fun row => key row = id) set fixed := by
  apply Table.ext
  apply List.map_congr_left
  intro other member
  by_cases isKey : key other = id
  · obtain ⟨inTable, rowKey⟩ := find?_eq_some.mp found
    rw [table.eq_of_key member inTable (isKey.trans rowKey.symm)]
    simp [rowKey, holds]
  · simp [isKey]

theorem update_key_of_not_holds {table : Table ρ} {id : Key ρ} {clause : ρ → Prop}
    [DecidablePred clause] {set : ρ → ρ} {fixed : ∀ row, columns (set row) = columns row}
    (rejected : ∀ row, table.find? id = some row → ¬ clause row) :
    table.update (fun row => key row = id ∧ clause row) set fixed = table := by
  apply update_of_none
  rintro row member ⟨isKey, holds⟩
  exact rejected row (find?_eq_some.mpr ⟨member, isKey⟩) holds

/-- The sum of a column after an update of one row. -/
theorem sum_update_key {table : Table ρ} {id : Key ρ} {row : ρ} {set : ρ → ρ}
    (fixed : ∀ row, columns (set row) = columns row) (found : table.find? id = some row)
    (column : ρ → Nat) :
    ((table.update (fun row => key row = id) set fixed).rows.map column).sum + column row =
      (table.rows.map column).sum + column (set row) := by
  obtain ⟨member, isKey⟩ := find?_eq_some.mp found
  obtain ⟨before, after, isRows⟩ := List.append_of_mem member
  have unique := table.unique
  rw [isRows, List.pairwise_append, List.pairwise_cons] at unique
  have same : ∀ others : List ρ, (∀ other ∈ others, key other ≠ id) →
      (others.map fun other => if key other = id then set other else other) = others := by
    intro others apart
    conv_rhs => rw [← List.map_id others]
    apply List.map_congr_left
    intro other inOthers
    simp [apart other inOthers]
  have sameBefore := same before fun other inBefore isId =>
    unique.2.2 other inBefore row List.mem_cons_self (conflict_of_key (isId.trans isKey.symm))
  have sameAfter := same after fun other inAfter isId =>
    unique.2.1.1 other inAfter (conflict_of_key (isKey.trans isId.symm))
  change ((table.rows.map fun other => if key other = id then set other else other).map
    column).sum + _ = _
  rw [isRows, List.map_append, List.map_cons, sameBefore, sameAfter, if_pos isKey]
  simp only [List.map_append, List.map_cons, List.sum_append, List.sum_cons]
  omega

/-- `WHERE key = id AND clause` selects at most the row with that key. -/
theorem matching_key (table : Table ρ) (id : Key ρ) (clause : ρ → Prop) [DecidablePred clause] :
    table.matching (fun row => key row = id ∧ clause row) =
      ((table.find? id).filter fun row => decide (clause row)).toList := by
  have split : table.matching (fun row => key row = id ∧ clause row) =
      (table.rows.filter fun row => decide (key row = id)).filter fun row => decide (clause row) := by
    unfold matching
    rw [List.filter_filter]
    congr 1
    funext row
    simp [and_comm]
  have single : (table.rows.filter fun row => decide (key row = id)) = (table.find? id).toList := by
    cases found : table.find? id with
    | none => simpa using find?_eq_none.mp found
    | some row =>
        obtain ⟨member, isKey⟩ := find?_eq_some.mp found
        have nodup : (table.rows.filter fun row => decide (key row = id)).Nodup := by
          refine (table.unique.imp ?_).filter _
          intro left right apart equal
          exact apart (conflict_of_key (congrArg key equal))
        have same : (table.rows.filter fun row => decide (key row = id)).Perm [row] := by
          rw [List.perm_ext_iff_of_nodup nodup (by simp)]
          intro other
          simp only [List.mem_filter, decide_eq_true_eq, List.mem_singleton]
          constructor
          · rintro ⟨otherIn, otherKey⟩
            exact table.eq_of_key otherIn member (otherKey.trans isKey.symm)
          · rintro rfl
            exact ⟨member, isKey⟩
        exact List.perm_singleton.mp same
  rw [split, single]
  cases table.find? id with
  | none => rfl
  | some row => by_cases holds : clause row <;> simp [holds, Option.filter]

end Table

end JobPlatform.Foundation
