import ConstraintNet.Network

namespace ConstraintNet.Sudoku

/-- A place given by row and column, on the board or off it. -/
structure Cell where
  row : Nat
  col : Nat
  deriving DecidableEq, Repr

namespace Cell

def onBoard (c : Cell) : Prop := c.row < 9 ∧ c.col < 9

instance (c : Cell) : Decidable c.onBoard := inferInstanceAs (Decidable (_ ∧ _))

/-- The number of a cell on the board. -/
def number? (c : Cell) : Option (Fin 81) :=
  if h : c.onBoard then some ⟨c.row * 9 + c.col, by obtain ⟨hr, hc⟩ := h; omega⟩ else none

def ofNumber (number : Nat) : Cell := ⟨number / 9, number % 9⟩

end Cell

def rowOf (v : Fin 81) : Fin 9 := ⟨v.val / 9, by omega⟩

def colOf (v : Fin 81) : Fin 9 := ⟨v.val % 9, by omega⟩

/-- Boxes are numbered row by row, like cells. -/
def boxOf (v : Fin 81) : Fin 9 := ⟨v.val / 27 * 3 + v.val % 9 / 3, by omega⟩

def cellAt (row col : Fin 9) : Fin 81 := ⟨row.val * 9 + col.val, by omega⟩

def row (r : Fin 9) : List (Fin 81) := (List.finRange 9).map fun c => cellAt r c

def column (c : Fin 9) : List (Fin 81) := (List.finRange 9).map fun r => cellAt r c

def box (b : Fin 9) : List (Fin 81) :=
  (List.finRange 9).map fun k =>
    cellAt ⟨b.val / 3 * 3 + k.val / 3, by omega⟩ ⟨b.val % 3 * 3 + k.val % 3, by omega⟩

/-- The rows, the columns and the boxes. -/
def units : List (List (Fin 81)) :=
  (List.finRange 9).map row ++ (List.finRange 9).map column ++ (List.finRange 9).map box

/-- Cells are neighbours if they have a unit in common. -/
def graph : Graph 81 := .ofZones units

theorem cellAt_eq_iff {r c : Fin 9} {v : Fin 81} : cellAt r c = v ↔ rowOf v = r ∧ colOf v = c := by
  simp only [cellAt, rowOf, colOf, Fin.ext_iff]
  omega

theorem mem_row {r : Fin 9} {v : Fin 81} : v ∈ row r ↔ rowOf v = r := by
  simp [row, cellAt_eq_iff]

theorem mem_column {c : Fin 9} {v : Fin 81} : v ∈ column c ↔ colOf v = c := by
  simp [column, cellAt_eq_iff]

theorem mem_box {b : Fin 9} {v : Fin 81} : v ∈ box b ↔ boxOf v = b := by
  simp only [box, List.mem_map, List.mem_finRange, true_and, cellAt_eq_iff]
  simp only [boxOf, rowOf, colOf, Fin.ext_iff]
  constructor
  · rintro ⟨k, hrow, hcol⟩
    omega
  · intro hbox
    -- the place of the cell within its box
    refine ⟨⟨v.val / 9 % 3 * 3 + v.val % 3, by omega⟩, ?_, ?_⟩
    · dsimp only
      omega
    · dsimp only
      omega

/-- Neighbours are the other cells in the same row, column or box. -/
theorem adj_graph {v w : Fin 81} :
    graph.Adj v w ↔ w ≠ v ∧ (rowOf w = rowOf v ∨ colOf w = colOf v ∨ boxOf w = boxOf v) := by
  rw [graph, Graph.adj_ofZones]
  refine and_congr_right fun _ => ?_
  simp only [units, List.mem_append, List.mem_map, List.mem_finRange, true_and]
  constructor
  · rintro ⟨unit, (⟨r, rfl⟩ | ⟨c, rfl⟩) | ⟨b, rfl⟩, hv, hw⟩
    · exact Or.inl ((mem_row.1 hw).trans (mem_row.1 hv).symm)
    · exact Or.inr (Or.inl ((mem_column.1 hw).trans (mem_column.1 hv).symm))
    · exact Or.inr (Or.inr ((mem_box.1 hw).trans (mem_box.1 hv).symm))
  · rintro (hrow | hcol | hbox)
    · exact ⟨row (rowOf v), Or.inl (Or.inl ⟨_, rfl⟩), mem_row.2 rfl, mem_row.2 hrow⟩
    · exact ⟨column (colOf v), Or.inl (Or.inr ⟨_, rfl⟩), mem_column.2 rfl, mem_column.2 hcol⟩
    · exact ⟨box (boxOf v), Or.inr ⟨_, rfl⟩, mem_box.2 rfl, mem_box.2 hbox⟩

/-- Neighbours take different digits. -/
def network : Network UInt8 81 := ⟨graph, .notEqual⟩

/-- A board with a number in each cell; 0 marks an open cell. -/
abbrev Grid := Vector (Vector UInt8 9) 9

namespace Grid

def entry (grid : Grid) (v : Fin 81) : UInt8 := (grid.get (rowOf v)).get (colOf v)

def ofFn (entry : Fin 81 → UInt8) : Grid :=
  Vector.ofFn fun r => Vector.ofFn fun c => entry (cellAt r c)

/-- The cells that are not open, row by row. -/
def givens (grid : Grid) : List (Cell × UInt8) :=
  (List.finRange 81).filterMap fun v =>
    if grid.entry v = 0 then none else some (.ofNumber v.val, grid.entry v)

/-- Every entry is a digit, and no neighbour repeats it. -/
def isValidSolution (grid : Grid) : Bool :=
  (List.finRange 81).all fun v =>
    1 ≤ grid.entry v && grid.entry v ≤ 9 &&
      (graph.neighbors v).all fun u => grid.entry u ≠ grid.entry v

/-- Every given of the puzzle stands in the solution. -/
def preservesGivens (puzzle solution : Grid) : Bool :=
  (List.finRange 81).all fun v => puzzle.entry v = 0 || solution.entry v = puzzle.entry v

end Grid

end ConstraintNet.Sudoku
