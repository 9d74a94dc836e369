import Mathlib.Tactic.Common

set_option autoImplicit false

/-! # Three-valued logic

The truth values of SQL. A comparison with NULL is UNKNOWN, the connectives are Kleene's, and a
`WHERE` clause keeps a row only when its condition is TRUE (`Truth.holds`). The lemmas below turn
a condition that is asked to hold into an ordinary proposition about the columns; a negated
condition has no such reading, which is why only `holds` has them. -/

namespace Relational

/-- A truth value: TRUE and FALSE are known, a comparison with NULL is not. -/
inductive Truth where
  | known (b : Bool)
  | unknown
deriving DecidableEq, Repr

namespace Truth

def and : Truth → Truth → Truth
  | known false, _ => known false
  | _, known false => known false
  | known true, known true => known true
  | _, _ => unknown

def or : Truth → Truth → Truth
  | known true, _ => known true
  | _, known true => known true
  | known false, known false => known false
  | _, _ => unknown

def not : Truth → Truth
  | known b => known (!b)
  | unknown => unknown

/-- What a `WHERE` clause, a join condition and a `CASE WHEN` branch ask of their condition. -/
def holds : Truth → Bool
  | known b => b
  | unknown => false

variable {α : Type} [DecidableEq α]

/-- `a = b` on nullable columns. -/
def eq : Option α → Option α → Truth
  | some x, some y => known (decide (x = y))
  | _, _ => unknown

/-- `a <> b` on nullable columns. -/
def ne (a b : Option α) : Truth := (eq a b).not

@[simp] theorem holds_known (b : Bool) : (known b).holds = b := rfl

@[simp] theorem holds_and (a b : Truth) : (a.and b).holds = (a.holds && b.holds) := by
  rcases a with (_ | _) | _ <;> rcases b with (_ | _) | _ <;> rfl

@[simp] theorem holds_or (a b : Truth) : (a.or b).holds = (a.holds || b.holds) := by
  rcases a with (_ | _) | _ <;> rcases b with (_ | _) | _ <;> rfl

@[simp] theorem holds_eq_some (a : Option α) (y : α) :
    (eq a (some y)).holds = decide (a = some y) := by
  cases a with
  | none => rfl
  | some x => simp [eq]

@[simp] theorem holds_eq_none (a : Option α) : (eq a none).holds = false := by
  cases a <;> rfl

@[simp] theorem holds_ne_some (a : Option α) (y : α) :
    (ne a (some y)).holds = decide (a ≠ none ∧ a ≠ some y) := by
  cases a with
  | none => rfl
  | some x => simp [ne, eq, not]

end Truth

end Relational
