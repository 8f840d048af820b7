import Mathlib.Data.List.Basic

/-!
Contract: the three-valued logic of a SQL `WHERE` clause.

Owns:
- truth values with `UNKNOWN`, their connectives, and comparisons of nullable columns;
- the rules that turn "the clause keeps the row" into a statement about the columns.

Does not own: rows, tables, or statements.
-/

namespace JobPlatform.Foundation

/-- A truth value of SQL. `none` is `UNKNOWN`, the value of a comparison with `NULL`. -/
abbrev Truth := Option Bool

namespace Truth

/-- `AND`: false wins over unknown. -/
def and : Truth → Truth → Truth
  | some false, _ => some false
  | _, some false => some false
  | some true, some true => some true
  | _, _ => none

/-- `OR`: true wins over unknown. -/
def or : Truth → Truth → Truth
  | some true, _ => some true
  | _, some true => some true
  | some false, some false => some false
  | _, _ => none

/-- `=` on nullable columns. -/
def eq {α : Type*} [DecidableEq α] : Option α → Option α → Truth
  | some left, some right => some (decide (left = right))
  | _, _ => none

/-- `<` on nullable columns. -/
def lt {α : Type*} [LT α] [DecidableLT α] : Option α → Option α → Truth
  | some left, some right => some (decide (left < right))
  | _, _ => none

/-- `column IN (...)` for a column that is not nullable. -/
def isIn {α : Type*} [DecidableEq α] (value : α) (values : List α) : Truth :=
  some (decide (value ∈ values))

/-- `WHERE` keeps a row exactly when its clause is true: unknown drops it like false. -/
def Holds (truth : Truth) : Prop := truth = some true

instance (truth : Truth) : Decidable truth.Holds :=
  inferInstanceAs (Decidable (truth = some true))

@[simp] theorem holds_and (left right : Truth) :
    (left.and right).Holds ↔ left.Holds ∧ right.Holds := by
  rcases left with _ | _ | _ <;> rcases right with _ | _ | _ <;> simp [and, Holds]

@[simp] theorem holds_or (left right : Truth) :
    (left.or right).Holds ↔ left.Holds ∨ right.Holds := by
  rcases left with _ | _ | _ <;> rcases right with _ | _ | _ <;> simp [or, Holds]

@[simp] theorem holds_isIn {α : Type*} [DecidableEq α] (value : α) (values : List α) :
    (isIn value values).Holds ↔ value ∈ values := by
  simp [isIn, Holds]

@[simp] theorem holds_eq_some {α : Type*} [DecidableEq α] (column : Option α) (value : α) :
    (eq column (some value)).Holds ↔ column = some value := by
  cases column <;> simp [eq, Holds]

@[simp] theorem holds_lt_some {α : Type*} [LT α] [DecidableLT α]
    (column : Option α) (bound : α) :
    (lt column (some bound)).Holds ↔ ∃ value, column = some value ∧ value < bound := by
  cases column <;> simp [lt, Holds]

end Truth

end JobPlatform.Foundation
