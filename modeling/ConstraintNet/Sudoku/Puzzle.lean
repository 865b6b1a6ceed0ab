import ConstraintNet.Store
import ConstraintNet.Sudoku.Board

namespace ConstraintNet.Sudoku

/-- The digits given so far, by cell. -/
abbrev Givens := Vector (Option UInt8) 81

/-- Enters a given. A cell may be given again with the same digit. -/
def enterGiven (givens : Givens) (given : Cell × UInt8) : Except Error Givens :=
  let (cell, value) := given
  match cell.number? with
  | none => .error (.cellOutOfRange cell.row cell.col)
  | some v =>
    if 1 ≤ value ∧ value ≤ 9 then
      match givens.get v with
      | some first =>
        if first = value then .ok givens
        else .error (.conflictingCell cell.row cell.col first value)
      | none => .ok (givens.set v.val (some value) v.isLt)
    else .error (.valueOutOfRange cell.row cell.col value)

def digits : Domain UInt8 := .ofList [1, 2, 3, 4, 5, 6, 7, 8, 9]

/-- A given cell has one value left, an open one has all digits. -/
def domainOf : Option UInt8 → Domain UInt8
  | some digit => .singleton digit
  | none => digits

/-- The problem with the given digits, entered in order. Givens may contradict the rules; the
problem then has no solution. -/
def build (given : List (Cell × UInt8)) : Except Error (Store UInt8 81) := do
  let givens ← given.foldlM enterGiven (Vector.replicate 81 none)
  Store.ofDomains 81 (givens.map domainOf).toArray

def buildGrid (grid : Grid) : Except Error (Store UInt8 81) := build grid.givens

/-- The board that a complete assignment fills in. -/
def project (a : Assignment UInt8) : Except Error Grid :=
  match a.keys.find? fun id => 81 ≤ id with
  | some id => .error (.unknownCell id)
  | none =>
    if a.size < 81 then .error (.incompleteAssignment (81 - a.size))
    else .ok (Grid.ofFn fun v => (a.value? v).getD 0)

end ConstraintNet.Sudoku
