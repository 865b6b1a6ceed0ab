import ConstraintNet.Error

namespace ConstraintNet

/-- A fixed set of named choices of one kind, each of which is found by its name. -/
class Choice (α : Type) where
  kind : String
  all : List α
  name : α → String
  find_name : ∀ x, all.find? (fun c => name c = name x) = some x := by intro x; cases x <;> rfl

namespace Choice

variable {α : Type} [Choice α]

def find? (name : String) : Option α := all.find? fun c => Choice.name c = name

@[simp] theorem find?_name (x : α) : find? (name x) = some x := find_name x

def parse (name : String) : Except Error α :=
  match find? name with
  | some c => .ok c
  | none => .error (.unknownStrategy (kind α) name)

def names (α : Type) [Choice α] : List String := (all : List α).map name

end Choice

/-- Which unassigned variable is given a value next. Ties go to the least variable. -/
inductive VariableOrder
  /-- The least variable. -/
  | static
  /-- The one with the fewest legal values left. -/
  | mrv
  /-- The one with the most unassigned neighbours. -/
  | degree
  /-- The fewest legal values, then the most unassigned neighbours. -/
  | mrvDegree
  deriving DecidableEq, Repr

instance : Choice VariableOrder where
  kind := "variable"
  all := [.static, .mrv, .degree, .mrvDegree]
  name
    | .static => "static"
    | .mrv => "mrv"
    | .degree => "degree"
    | .mrvDegree => "mrv_degree"

/-- In which order the values of a variable are tried. -/
inductive ValueOrder
  /-- Ascending. -/
  | unordered
  /-- Those first that leave the unassigned neighbours the most choices. -/
  | lcv
  | random
  deriving DecidableEq, Repr

instance : Choice ValueOrder where
  kind := "value"
  all := [.unordered, .lcv, .random]
  name
    | .unordered => "unordered"
    | .lcv => "lcv"
    | .random => "random"

/-- What is pruned before and during a search. -/
inductive Inference
  | none
  /-- The unassigned neighbours of each newly assigned variable. -/
  | forwardChecking
  /-- Arc consistency, once before the search. -/
  | ac3Pre
  /-- Arc consistency before the search and again after each assignment. -/
  | mac
  deriving DecidableEq, Repr

instance : Choice Inference where
  kind := "inference"
  all := [.none, .forwardChecking, .ac3Pre, .mac]
  name
    | .none => "none"
    | .forwardChecking => "forward_checking"
    | .ac3Pre => "ac3_pre"
    | .mac => "mac"

namespace Inference

def preprocesses : Inference → Bool
  | none | forwardChecking => false
  | ac3Pre | mac => true

def runsPerAssignment : Inference → Bool
  | none | ac3Pre => false
  | forwardChecking | mac => true

end Inference

inductive Algorithm
  | backtracking
  | minConflicts
  deriving DecidableEq, Repr

instance : Choice Algorithm where
  kind := "algorithm"
  all := [.backtracking, .minConflicts]
  name
    | .backtracking => "backtracking"
    | .minConflicts => "min_conflicts"

end ConstraintNet
