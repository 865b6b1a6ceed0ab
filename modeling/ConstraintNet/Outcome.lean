import ConstraintNet.Assignment

namespace ConstraintNet

/-- Only a solved problem comes with an assignment. A search that was exhaustive and found nothing
shows that there is no solution; one that ran out of steps or time shows nothing. -/
inductive Outcome (V : Type)
  | solved (solution : Assignment V)
  | unsatisfiable
  | stepBudgetExhausted
  | timedOut

namespace Outcome

variable {V : Type}

def kind : Outcome V → String
  | solved _ => "solved"
  | unsatisfiable => "unsatisfiable"
  | stepBudgetExhausted => "step_budget_exhausted"
  | timedOut => "timed_out"

def solution? : Outcome V → Option (Assignment V)
  | solved a => some a
  | _ => none

def isSolved (o : Outcome V) : Bool := o.solution?.isSome

end Outcome

structure Statistics where
  /-- Nodes of the search tree, or conflict counts taken by a repair. -/
  nodesVisited : Nat := 0
  backtracks : Nat := 0
  assignments : Nat := 0
  /-- Values removed from domains. -/
  domainChanges : Nat := 0
  inferenceCalls : Nat := 0
  /-- Moves made by a repair. -/
  steps : Nat := 0
  elapsedMicros : Nat := 0
  deriving DecidableEq, Repr

end ConstraintNet
