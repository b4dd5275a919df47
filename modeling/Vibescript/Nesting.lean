/-!
# Nesting limits

A nesting budget counts how deep constructs stand inside each other and refuses to go below a
limit. Every successful entry is paired with one exit.
-/
namespace Vibescript

/-- The nesting limit when none is given. -/
def defaultNestingLimit : Nat := 256

/-- The refusal to go deeper than a limit. -/
structure NestingExceeded where
  /-- The limit. -/
  limit : Nat
  deriving DecidableEq, Repr

/-- The wording of the refusal. -/
def NestingExceeded.message (exceeded : NestingExceeded) : String :=
  s!"nesting depth exceeds the limit of {exceeded.limit}"

/-- A depth and the limit it must stay below. -/
structure NestingBudget where
  /-- Current depth. -/
  depth : Nat
  /-- Greatest depth allowed. -/
  limit : Nat
  deriving DecidableEq, Repr

namespace NestingBudget

/-- A budget of so many levels, none used. -/
def ofLimit (limit : Nat) : NestingBudget := ⟨0, limit⟩

/-- Number of levels left. -/
def remaining (budget : NestingBudget) : Nat := budget.limit - budget.depth

/-- One level down, unless that would exceed the limit. -/
def enter (budget : NestingBudget) : Except NestingExceeded NestingBudget :=
  if budget.limit ≤ budget.depth then .error ⟨budget.limit⟩
  else .ok { budget with depth := budget.depth + 1 }

/-- One level up; the top stays the top. -/
def exit (budget : NestingBudget) : NestingBudget := { budget with depth := budget.depth - 1 }

/-- Going down is refused exactly when no level is left. -/
theorem enter_eq_error_iff (budget : NestingBudget) :
    budget.enter = .error ⟨budget.limit⟩ ↔ budget.remaining = 0 := by
  unfold enter remaining
  split <;> simp <;> omega

/-- Leaving the level just entered restores the budget. -/
theorem exit_of_enter {budget entered : NestingBudget} (ok : budget.enter = .ok entered) :
    entered.exit = budget := by
  unfold enter at ok
  split at ok
  · contradiction
  · cases ok
    rfl

end NestingBudget

end Vibescript
