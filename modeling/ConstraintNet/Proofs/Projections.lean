import ConstraintNet.Proofs.Puzzles
import Mathlib.Order.Bounds.Basic

namespace ConstraintNet.Sudoku

theorem Cell.number?_mk (r c : Fin 9) : (⟨r, c⟩ : Cell).number? = some (cellAt r c) :=
  dif_pos ⟨r.isLt, c.isLt⟩

namespace Grid

/-- Enters what stands in each cell, row by row, under the number of the cell. -/
def reading (grid : Grid) : Assignment UInt8 :=
  .ofPairs ((List.finRange 9).flatMap fun r : Fin 9 => (List.finRange 9).filterMap fun c : Fin 9 =>
    (⟨r, c⟩ : Cell).number?.map fun v => (v.val, (grid.get r).get c))

/-- Row by row, the cells come in the order of their numbers. -/
theorem reading_eq (grid : Grid) : grid.reading = .ofVector (Vector.ofFn grid.entry) := by
  have hcells : List.finRange 81 =
      (List.finRange 9).flatMap fun r => (List.finRange 9).map fun c => cellAt r c := by decide
  rw [reading, Assignment.ofVector, hcells, List.map_flatMap]
  simp only [Cell.number?_mk, Option.map_some, List.filterMap_eq_map', List.map_map,
    Function.comp_def, Family.get_ofFn, entry_cellAt]

theorem value?_reading (grid : Grid) (v : Fin 81) :
    Assignment.value? grid.reading v = some (grid.entry v) := by
  rw [reading_eq, Assignment.value?_ofVector, Family.get_ofFn]

theorem mem_reading {grid : Grid} {id : Nat} : id ∈ grid.reading ↔ id < 81 := by
  rw [reading_eq, Assignment.mem_ofVector]

theorem ext_entry {grid other : Grid} (same : ∀ v, grid.entry v = other.entry v) :
    grid = other := by
  refine Vector.ext fun i hi => Vector.ext fun j hj => ?_
  have hcell := same (cellAt ⟨i, hi⟩ ⟨j, hj⟩)
  rwa [entry_cellAt, entry_cellAt] at hcell

/-- An assignment to all cells and to nothing else is read from the board that has its values. -/
theorem eq_reading {grid : Grid} {a : Assignment UInt8} (whole : ∀ id, id ∈ a ↔ id < 81)
    (values : ∀ v : Fin 81, a.value? v = some (grid.entry v)) : a = grid.reading := by
  apply Std.ExtTreeMap.ext_getElem?
  intro id
  by_cases hid : id < 81
  · exact (values ⟨id, hid⟩).trans (grid.value?_reading ⟨id, hid⟩).symm
  · have hleft : id ∉ a := fun h => hid ((whole id).mp h)
    have hright : id ∉ grid.reading := fun h => hid (mem_reading.mp h)
    rw [Std.ExtTreeMap.getElem?_eq_none hleft, Std.ExtTreeMap.getElem?_eq_none hright]

end Grid

theorem isLeast_of_find? {a : Assignment UInt8} {id : Nat}
    (found : (a.keys.find? fun id => 81 ≤ id) = some id) : IsLeast {k | k ∈ a ∧ 81 ≤ k} id := by
  have hid : 81 ≤ id := by simpa using List.find?_some found
  refine ⟨⟨Std.ExtTreeMap.mem_keys.mp (List.mem_of_find?_eq_some found), hid⟩, ?_⟩
  rintro k ⟨hk, hstray⟩
  have htest : decide (81 ≤ k) = true := decide_eq_true hstray
  rcases first_of_find? a.ordered_keys found (Std.ExtTreeMap.mem_keys.mpr hk) htest with heq | hlt
  · exact Nat.le_of_eq heq.symm
  · exact Nat.le_of_lt (Nat.compare_eq_lt.mp hlt)

theorem find?_eq_none_iff {a : Assignment UInt8} :
    (a.keys.find? fun id => 81 ≤ id) = none ↔ ∀ id ∈ a, id < 81 := by
  simp [List.find?_eq_none]

/-- `Projects a result`: what comes of projecting `a`. A number that is no cell is reported whatever
is missing besides. -/
inductive Projects (a : Assignment UInt8) : Except Error Grid → Prop
  | stray {id : Nat} (least : IsLeast {k | k ∈ a ∧ 81 ≤ k} id) :
      Projects a (.error (.unknownCell id))
  | incomplete {missing : Nat} (cells : ∀ id ∈ a, id < 81) (lacks : 0 < missing)
      (counted : a.size + missing = 81) : Projects a (.error (.incompleteAssignment missing))
  | whole {grid : Grid} (reads : a = grid.reading) : Projects a (.ok grid)

/-- Writes into a cell, which has to be on the board. -/
def Grid.write? (grid : Grid) (c : Cell) (x : UInt8) : Option Grid :=
  if h : c.onBoard then
    some (grid.set c.row ((grid.get ⟨c.row, h.1⟩).set c.col x h.2) h.1)
  else none

/-- Goes through the entries that are left, with the board filled so far and the number of entries
on it. It comes to nothing if it would write off the board. -/
def projectFrom : List (Nat × UInt8) → Grid → Nat → Option (Except Error Grid)
  | [], grid, entered =>
    some (if entered < 81 then .error (.incompleteAssignment (81 - entered)) else .ok grid)
  | (id, x) :: rest, grid, entered =>
    if 81 ≤ id then some (.error (.unknownCell id))
    else (grid.write? (.ofNumber id) x).bind fun written => projectFrom rest written (entered + 1)

/-- What is written for a variable stands in its cell, and the other cells keep what they have. -/
theorem Grid.exists_write? (grid : Grid) (v : Fin 81) (x : UInt8) :
    ∃ written, grid.write? (.ofNumber v.val) x = some written ∧
      ∀ w, written.entry w = if w = v then x else grid.entry w := by
  refine ⟨_, dif_pos (Cell.onBoard_ofNumber v), fun w => ?_⟩
  change ((grid.set (rowOf v).val ((grid.get (rowOf v)).set (colOf v).val x (colOf v).isLt)
    (rowOf v).isLt).get (rowOf w)).get (colOf w) = _
  rw [Family.get_set]
  by_cases hrow : rowOf w = rowOf v
  · rw [if_pos hrow, Family.get_set, ← hrow]
    by_cases hcol : colOf w = colOf v
    · have hsame : w = v :=
        (cellAt_eq_iff.mpr ⟨rfl, rfl⟩).symm.trans (cellAt_eq_iff.mpr ⟨hrow.symm, hcol.symm⟩)
      rw [if_pos hcol, if_pos hsame]
    · have hother : w ≠ v := fun h => hcol (congrArg colOf h)
      rw [if_neg hcol, if_neg hother]
      rfl
  · have hother : w ≠ v := fun h => hrow (congrArg rowOf h)
    rw [if_neg hrow, if_neg hother]
    rfl

theorem ordered_of_split {a : Assignment UInt8} {entered rest : List (Nat × UInt8)} {id : Nat}
    {x : UInt8} (split : a.toList = entered ++ (id, x) :: rest) :
    (∀ e ∈ entered, e.1 < id) ∧ ∀ e ∈ rest, id < e.1 := by
  have hordered := a.ordered_keys_toList
  rw [split] at hordered
  obtain ⟨-, hlater, hearlier⟩ := List.pairwise_append.mp hordered
  constructor
  · intro e he
    exact Nat.compare_eq_lt.mp (hearlier e he (id, x) List.mem_cons_self)
  · intro e he
    exact Nat.compare_eq_lt.mp ((List.pairwise_cons.mp hlater).1 e he)

theorem isLeast_of_split {a : Assignment UInt8} {entered rest : List (Nat × UInt8)} {id : Nat}
    {x : UInt8} (split : a.toList = entered ++ (id, x) :: rest) (cells : ∀ e ∈ entered, e.1 < 81)
    (hstray : 81 ≤ id) : IsLeast {k | k ∈ a ∧ 81 ≤ k} id := by
  have hmem : (id, x) ∈ a.toList := split ▸ List.mem_append_right entered List.mem_cons_self
  refine ⟨⟨Assignment.mem_of_mem_toList hmem, hstray⟩, ?_⟩
  rintro k ⟨hk, hkstray⟩
  obtain ⟨y, hy⟩ := Assignment.exists_mem_toList hk
  rw [split] at hy
  rcases List.mem_append.mp hy with hy | hy
  · exact absurd (cells (k, y) hy) (Nat.not_lt.mpr hkstray)
  · rcases List.mem_cons.mp hy with heq | hy
    · exact Nat.le_of_eq (congrArg Prod.fst heq).symm
    · exact ((ordered_of_split split).2 (k, y) hy).le

/-- With the first entries on the board, going through the others ends in what comes of the
assignment. -/
theorem projects_projectFrom {a : Assignment UInt8} {entered left : List (Nat × UInt8)}
    {grid : Grid} (split : a.toList = entered ++ left) (cells : ∀ e ∈ entered, e.1 < 81)
    (filled : ∀ (v : Fin 81) (x : UInt8), (v.val, x) ∈ entered → grid.entry v = x) :
    ∃ result, projectFrom left grid entered.length = some result ∧ Projects a result := by
  -- the entries gone through are those on the board, and no other is for one of their cells
  induction left generalizing entered grid with
  | nil =>
    rw [List.append_nil] at split
    have hsize : a.size = entered.length := by rw [← Std.ExtTreeMap.length_toList, split]
    have hcells : ∀ id ∈ a, id < 81 := by
      intro id hid
      obtain ⟨x, hx⟩ := Assignment.exists_mem_toList hid
      exact cells (id, x) (split ▸ hx)
    have hle := Assignment.size_le hcells
    rw [projectFrom]
    split
    · exact ⟨_, rfl, .incomplete hcells (by omega) (by omega)⟩
    · have whole := Assignment.mem_iff_lt_of_size hcells (by omega)
      refine ⟨_, rfl, .whole (Grid.eq_reading whole fun v => ?_)⟩
      obtain ⟨x, hx⟩ := Assignment.exists_value? ((whole v).mpr v.isLt)
      rw [hx, filled v x (split ▸ Assignment.mem_toList.mpr hx)]
  | cons e rest ih =>
    obtain ⟨id, x⟩ := e
    rw [projectFrom]
    by_cases hstray : 81 ≤ id
    · rw [if_pos hstray]
      exact ⟨_, rfl, .stray (isLeast_of_split split cells hstray)⟩
    · have hid : id < 81 := Nat.not_le.mp hstray
      obtain ⟨written, hwrite, hentry⟩ := grid.exists_write? ⟨id, hid⟩ x
      have hsplit : a.toList = (entered ++ [(id, x)]) ++ rest := by
        rw [split, List.append_assoc, List.singleton_append]
      have hcells : ∀ e ∈ entered ++ [(id, x)], e.1 < 81 := by
        rw [List.forall_mem_append, List.forall_mem_singleton]
        exact ⟨cells, hid⟩
      have hfilled (v : Fin 81) (y : UInt8) (hy : (v.val, y) ∈ entered ++ [(id, x)]) :
          written.entry v = y := by
        rw [hentry]
        rcases List.mem_append.mp hy with hy | hy
        · have hlt : v.val < id := (ordered_of_split split).1 _ hy
          have hother : v ≠ ⟨id, hid⟩ := fun h => Nat.ne_of_lt hlt (congrArg Fin.val h)
          rw [if_neg hother, filled v y hy]
        · obtain ⟨hv, rfl⟩ := Prod.mk.inj (List.mem_singleton.mp hy)
          rw [if_pos (Fin.ext hv)]
      have hnext := ih hsplit hcells hfilled
      rw [if_neg hstray, hwrite]
      rwa [List.length_append] at hnext

/-- What comes of an assignment is what `project` answers, so it is one thing only. -/
theorem Projects.project_eq {a : Assignment UInt8} {result : Except Error Grid}
    (h : Projects a result) : project a = result := by
  -- the checks are made in this order: a stray number first, then the count, then nothing can go
  -- wrong
  cases h with
  | @stray id least =>
    have hfind : (a.keys.find? fun id => 81 ≤ id) = some id := by
      cases hfind : a.keys.find? fun id => 81 ≤ id with
      | none =>
        have hcell := find?_eq_none_iff.mp hfind id least.1.1
        exact absurd least.1.2 (Nat.not_le.mpr hcell)
      | some k => rw [(isLeast_of_find? hfind).unique least]
    rw [project, hfind]
  | @incomplete missing cells lacks counted =>
    have hless : a.size < 81 := by omega
    have hmissing : 81 - a.size = missing := by omega
    rw [project, find?_eq_none_iff.mpr cells]
    simp only [hless, if_true, hmissing]
  | @whole grid reads =>
    subst reads
    rw [project_eq_ok fun _ => Grid.mem_reading]
    simp only [Grid.value?_reading, Option.getD_some]
    exact congrArg Except.ok (Grid.ext_entry fun v => Grid.entry_ofFn grid.entry v)

/-- Going through the entries comes to the same, and never writes off the board. -/
theorem projectFrom_toList (a : Assignment UInt8) :
    projectFrom a.toList (.ofFn fun _ => 0) 0 = some (project a) ∧ Projects a (project a) := by
  have split : a.toList = [] ++ a.toList := rfl
  obtain ⟨result, hgoes, hresult⟩ := projects_projectFrom split (List.forall_mem_nil _) nofun
  rw [hresult.project_eq]
  exact ⟨hgoes, hresult⟩

theorem project_eq_iff {a : Assignment UInt8} {result : Except Error Grid} :
    project a = result ↔ Projects a result :=
  ⟨fun h => h ▸ (projectFrom_toList a).2, Projects.project_eq⟩

theorem project_eq_ok_iff {a : Assignment UInt8} {grid : Grid} :
    project a = .ok grid ↔ a = grid.reading := by
  rw [project_eq_iff]
  constructor
  · intro h
    cases h with
    | whole reads => exact reads
  · exact .whole

/-- Every entry of an assignment that is read from a board stands in the cell of its number. -/
theorem Grid.get_of_reading {grid : Grid} {id : Nat} {x : UInt8}
    (entry : grid.reading[id]? = some x) :
    ∃ r c : Fin 9, Cell.ofNumber id = ⟨r, c⟩ ∧ (grid.get r).get c = x := by
  have hid : id < 81 := mem_reading.mp (Assignment.mem_iff_exists.mpr ⟨x, entry⟩)
  have hvalue := (grid.value?_reading ⟨id, hid⟩).symm.trans entry
  exact ⟨rowOf ⟨id, hid⟩, colOf ⟨id, hid⟩, rfl, Option.some.inj hvalue⟩

/-- An assignment is projected to a board exactly if it is the one read from that board. So those to
all cells and to nothing else are projected, and every entry then stands in the cell of its number.
Of any other assignment the least number that is no cell is reported, whatever is missing besides,
and if there is none, how many cells are without a value. Going through the entries one by one, and
writing each into the row and column of its number, comes to the same, and never off the board. -/
theorem project_inverts_reading (a : Assignment UInt8) :
    (∀ grid, project a = .ok grid ↔ a = grid.reading) ∧
      ((∃ grid, project a = .ok grid) ↔ ∀ id, id ∈ a ↔ id < 81) ∧
      (∀ grid, project a = .ok grid → ∀ (id : Nat) (x : UInt8), a[id]? = some x →
        ∃ r c : Fin 9, Cell.ofNumber id = ⟨r, c⟩ ∧ (grid.get r).get c = x) ∧
      (∀ e, project a = .error e ↔
        (∃ id, IsLeast {k | k ∈ a ∧ 81 ≤ k} id ∧ e = .unknownCell id) ∨
          (∀ id ∈ a, id < 81) ∧
            ∃ missing, 0 < missing ∧ a.size + missing = 81 ∧ e = .incompleteAssignment missing) ∧
      projectFrom a.toList (.ofFn fun _ => 0) 0 = some (project a) := by
  refine ⟨fun grid => project_eq_ok_iff, ⟨?_, fun whole => ⟨_, project_eq_ok whole⟩⟩, ?_,
    fun e => ⟨fun h => ?_, ?_⟩, (projectFrom_toList a).1⟩
  · rintro ⟨grid, h⟩ id
    rw [project_eq_ok_iff.mp h, Grid.mem_reading]
  · rintro grid h id x entry
    rw [project_eq_ok_iff.mp h] at entry
    exact Grid.get_of_reading entry
  · cases project_eq_iff.mp h with
    | stray least => exact Or.inl ⟨_, least, rfl⟩
    | incomplete cells lacks counted => exact Or.inr ⟨cells, _, lacks, counted, rfl⟩
  · rintro (⟨id, least, rfl⟩ | ⟨cells, missing, lacks, counted, rfl⟩)
    · exact project_eq_iff.mpr (.stray least)
    · exact project_eq_iff.mpr (.incomplete cells lacks counted)

end ConstraintNet.Sudoku
