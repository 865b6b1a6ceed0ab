import ConstraintNet.Decimal.Binary64
import ConstraintNet.Error
import ConstraintNet.Outcome
import ConstraintNet.Text.Columns

namespace ConstraintNet.Decimal

/-- The digits of `n`, with zeros in front up to the given width. -/
def padded (width n : Nat) : String :=
  let digits := toString n
  String.ofList (List.replicate (width - digits.length) '0') ++ digits

/-- `num / den` with the given number of places, at least one; a half goes to the even neighbour. -/
def fixed (places num den : Nat) : String :=
  let scaled := roundDiv (num * tenTo places) den
  toString (scaled / tenTo places) ++ "." ++ padded places (scaled % tenTo places)

end ConstraintNet.Decimal

namespace ConstraintNet.Report

def headings : List String :=
  ["Strategy", "Nodes", "Backtracks", "Assignments", "Domain Changes", "Inference Calls", "Steps",
    "Total Time (ms)"]

/-- Microseconds as milliseconds with two places. Both numbers are rounded to binary fractions
first, and the quotient of those again, before the places are cut. -/
def milliseconds (micros : Nat) : String :=
  let time := (Decimal.Binary64.ofNat micros).div (.ofNat 1000)
  Decimal.fixed 2 time.num time.den

def row (label : String) (stats : Statistics) : List String :=
  [label, toString stats.nodesVisited, toString stats.backtracks, toString stats.assignments,
    toString stats.domainChanges, toString stats.inferenceCalls, toString stats.steps,
    milliseconds stats.elapsedMicros]

/-- Runs that took equally long stay in the order in which they are listed. -/
def table (runs : List (String × Statistics)) : Except Error String :=
  let sorted := runs.mergeSort fun a b => a.2.elapsedMicros ≤ b.2.elapsedMicros
  let rows := sorted.map fun (label, stats) => row label stats
  match Text.table? headings.length (headings :: rows) with
  | some text => .ok text
  | none => .error .labelTooNarrow

end ConstraintNet.Report
