import Mathlib.Data.Option.Basic

/-! Conditions over nullable columns, with the three truth values of a database: `none` is
NULL, and a selection keeps the rows whose condition is true. -/
namespace FireDash

abbrev Condition := Option Bool

namespace Condition

/-- The columns are equal; NULL as soon as one of them is. -/
def eq {α : Type*} [DecidableEq α] (a b : Option α) : Condition := a.bind fun x => b.map fun y => x = y

/-- The column has one of the values. -/
def isIn {α : Type*} [DecidableEq α] (a : Option α) (values : List α) : Condition := a.map fun x => x ∈ values

def isNull {α : Type*} (a : Option α) : Condition := some a.isNone

def not (a : Condition) : Condition := a.map fun x => !x

def and : Condition → Condition → Condition
  | some false, _ | _, some false => some false
  | some true, some true => some true
  | _, _ => none

def or (a b : Condition) : Condition := not (and (not a) (not b))

section

variable {α : Type*} {a b : Option α} {c d : Condition}

@[simp] theorem isNull_true : isNull a = some true ↔ a = none := by
  cases a <;> simp [isNull]

@[simp] theorem isNull_false : isNull a = some false ↔ ∃ x, a = some x := by
  cases a <;> simp [isNull]

@[simp] theorem not_true : not c = some true ↔ c = some false := by
  cases c <;> simp [not]

@[simp] theorem not_false : not c = some false ↔ c = some true := by
  cases c <;> simp [not]

@[simp] theorem and_true : and c d = some true ↔ c = some true ∧ d = some true := by
  rcases c with _ | _ | _ <;> rcases d with _ | _ | _ <;> simp [and]

@[simp] theorem and_false : and c d = some false ↔ c = some false ∨ d = some false := by
  rcases c with _ | _ | _ <;> rcases d with _ | _ | _ <;> simp [and]

@[simp] theorem or_true : or c d = some true ↔ c = some true ∨ d = some true := by
  simp [or]

variable [DecidableEq α] {values : List α}

@[simp] theorem eq_true : eq a b = some true ↔ ∃ x, a = some x ∧ b = some x := by
  cases a <;> cases b <;> simp [eq, eq_comm]

@[simp] theorem eq_false : eq a b = some false ↔ ∃ x y, a = some x ∧ b = some y ∧ x ≠ y := by
  cases a <;> cases b <;> simp [eq]

@[simp] theorem isIn_false : isIn a values = some false ↔ ∃ x, x ∉ values ∧ a = some x := by
  cases a <;> simp [isIn]

end

end Condition

end FireDash
