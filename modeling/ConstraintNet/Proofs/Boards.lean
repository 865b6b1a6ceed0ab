import ConstraintNet.Proofs.Givens
import Mathlib.Data.List.Nodup
import Mathlib.Data.List.Perm.Subperm
import Mathlib.Logic.ExistsUnique

namespace ConstraintNet.Sudoku

namespace Grid

theorem entry_cellAt (grid : Grid) (r c : Fin 9) : grid.entry (cellAt r c) = (grid.get r).get c := by
  obtain ⟨hrow, hcol⟩ := cellAt_eq_iff.mp (rfl : cellAt r c = cellAt r c)
  rw [entry, hrow, hcol]

theorem entry_ofFn (f : Fin 81 → UInt8) (v : Fin 81) : (ofFn f).entry v = f v := by
  have hv : cellAt (rowOf v) (colOf v) = v := cellAt_eq_iff.mpr ⟨rfl, rfl⟩
  rw [entry, ofFn, Family.get_ofFn, Family.get_ofFn, hv]

theorem isValidSolution_iff {grid : Grid} :
    grid.isValidSolution = true ↔
      ∀ v, (1 ≤ grid.entry v ∧ grid.entry v ≤ 9) ∧
        ∀ u, graph.Adj v u → grid.entry u ≠ grid.entry v := by
  simp [isValidSolution, Graph.Adj]

/-- A board is right if it has digits only and none of them twice in a unit. -/
theorem isValidSolution_iff_nodup {grid : Grid} :
    grid.isValidSolution = true ↔
      (∀ v, 1 ≤ grid.entry v ∧ grid.entry v ≤ 9) ∧
        ∀ unit ∈ units, (unit.map grid.entry).Nodup := by
  have hunits : ∀ unit ∈ units, unit.Nodup := by decide +kernel
  rw [isValidSolution_iff, forall_and]
  refine and_congr_right fun _ => ?_
  constructor
  · intro differ unit hunit
    apply (hunits unit hunit).map_on
    intro v hv u hu same
    by_contra hne
    have adj : graph.Adj v u := Graph.adj_ofZones.mpr ⟨Ne.symm hne, unit, hunit, hv, hu⟩
    exact differ v u adj same.symm
  · intro nodup v u adj same
    obtain ⟨hne, unit, hunit, hv, hu⟩ := Graph.adj_ofZones.mp adj
    exact hne (List.inj_on_of_nodup_map (nodup unit hunit) hu hv same)

end Grid

theorem forall_mem_units {P : List (Fin 81) → Prop} :
    (∀ unit ∈ units, P unit) ↔ (∀ r, P (row r)) ∧ (∀ c, P (column c)) ∧ ∀ b, P (box b) := by
  simp only [units, List.forall_mem_append, List.forall_mem_map, List.mem_finRange, true_implies,
    and_assoc]

theorem length_of_mem_units {unit : List (Fin 81)} (h : unit ∈ units) : unit.length = 9 := by
  have hall : ∀ unit ∈ units, unit.length = 9 := by
    rw [forall_mem_units]
    simp [row, column, box]
  exact hall unit h

theorem cellAt_inj {r c r' c' : Fin 9} : cellAt r c = cellAt r' c' ↔ r = r' ∧ c = c' := by
  simp only [cellAt, Fin.ext_iff]
  omega

theorem cellAt_mem_row (r c : Fin 9) : cellAt r c ∈ row r :=
  mem_row.mpr (cellAt_eq_iff.mp rfl).1

theorem cellAt_mem_column (r c : Fin 9) : cellAt r c ∈ column c :=
  mem_column.mpr (cellAt_eq_iff.mp rfl).2

/-- A box lies where three rows and three columns meet. -/
theorem cellAt_mem_box {r c b : Fin 9} :
    cellAt r c ∈ box b ↔ r.val / 3 = b.val / 3 ∧ c.val / 3 = b.val % 3 := by
  rw [mem_box, boxOf, cellAt, Fin.ext_iff]
  dsimp only
  omega

/-- Nine digits of which none is repeated are all digits in some order. -/
theorem perm_digits_of_nodup {l : List UInt8} (nine : l.length = 9) (nodup : l.Nodup)
    (within : ∀ x ∈ l, x ∈ digits) : l.Perm digits.toList := by
  have hsub : l.Subperm digits.toList := List.subperm_of_subset nodup within
  have hlength : digits.toList.length ≤ l.length := by
    rw [nine]
    decide
  exact hsub.perm_of_length_le hlength

/-- Nine entries among which every digit occurs are the digits in some order. -/
theorem perm_digits_of_mem {l : List UInt8} (nine : l.length = 9) (all : ∀ d ∈ digits, d ∈ l) :
    l.Perm digits.toList := by
  have hsub : digits.toList.Subperm l := List.subperm_of_subset digits.nodup all
  have hlength : l.length ≤ digits.toList.length := by
    rw [nine]
    decide
  exact (hsub.perm_of_length_le hlength).symm

/-- Nine cells have digits only, none of them twice, exactly if each digit has one of the cells. -/
theorem digits_nodup_iff {unit : List (Fin 81)} (nine : unit.length = 9) (entry : Fin 81 → UInt8) :
    ((∀ v ∈ unit, entry v ∈ digits) ∧ (unit.map entry).Nodup) ↔
      ∀ d ∈ digits, ∃! v, v ∈ unit ∧ entry v = d := by
  have hlength : (unit.map entry).length = 9 := (List.length_map entry).trans nine
  constructor
  · rintro ⟨within, nodup⟩ d hd
    have hperm : (unit.map entry).Perm digits.toList :=
      perm_digits_of_nodup hlength nodup (List.forall_mem_map.mpr within)
    obtain ⟨v, hv, rfl⟩ := List.mem_map.mp (hperm.mem_iff.mpr hd)
    refine ⟨v, ⟨hv, rfl⟩, ?_⟩
    rintro u ⟨hu, same⟩
    exact List.inj_on_of_nodup_map nodup hu hv same
  · intro once
    have hall : ∀ d ∈ digits, d ∈ unit.map entry := by
      intro d hd
      obtain ⟨v, ⟨hv, hvd⟩, -⟩ := once d hd
      exact List.mem_map.mpr ⟨v, hv, hvd⟩
    have hperm : (unit.map entry).Perm digits.toList := perm_digits_of_mem hlength hall
    refine ⟨fun v hv => ?_, hperm.nodup_iff.mpr digits.nodup⟩
    exact hperm.mem_iff.mp (List.mem_map_of_mem hv)

/-- If all cells with a property are found under an injective naming, then one cell has the property
exactly if one name has. -/
theorem existsUnique_cell {ι : Type} (cell : ι → Fin 81) (apart : Function.Injective cell)
    {P : Fin 81 → Prop} (named : ∀ v, P v → ∃ i, cell i = v) :
    (∃! v, P v) ↔ ∃! i, P (cell i) := by
  constructor
  · rintro ⟨v, hv, only⟩
    obtain ⟨i, rfl⟩ := named v hv
    exact ⟨i, hv, fun j hj => apart (only (cell j) hj)⟩
  · rintro ⟨i, hi, only⟩
    refine ⟨cell i, hi, fun v hv => ?_⟩
    obtain ⟨j, rfl⟩ := named v hv
    rw [only j hv]

namespace Grid

/-- The digit stands once in each row, once in each column and once in each box. -/
structure HasOnce (grid : Grid) (d : UInt8) : Prop where
  rows : ∀ r, ∃! c, (grid.get r).get c = d
  columns : ∀ c, ∃! r, (grid.get r).get c = d
  boxes : ∀ band stack : Fin 3, ∃! place : Fin 9 × Fin 9,
    (place.1.val / 3 = band.val ∧ place.2.val / 3 = stack.val) ∧
      (grid.get place.1).get place.2 = d

section

variable {grid : Grid} {d : UInt8}

theorem existsUnique_row (r : Fin 9) :
    (∃! v, v ∈ row r ∧ grid.entry v = d) ↔ ∃! c, (grid.get r).get c = d := by
  rw [existsUnique_cell (fun c => cellAt r c) fun c c' h => (cellAt_inj.mp h).2]
  · simp only [cellAt_mem_row, true_and, entry_cellAt]
  · rintro v ⟨hv, -⟩
    exact ⟨colOf v, cellAt_eq_iff.mpr ⟨mem_row.mp hv, rfl⟩⟩

theorem existsUnique_column (c : Fin 9) :
    (∃! v, v ∈ column c ∧ grid.entry v = d) ↔ ∃! r, (grid.get r).get c = d := by
  rw [existsUnique_cell (fun r => cellAt r c) fun r r' h => (cellAt_inj.mp h).1]
  · simp only [cellAt_mem_column, true_and, entry_cellAt]
  · rintro v ⟨hv, -⟩
    exact ⟨rowOf v, cellAt_eq_iff.mpr ⟨rfl, mem_column.mp hv⟩⟩

theorem existsUnique_box (b : Fin 9) :
    (∃! v, v ∈ box b ∧ grid.entry v = d) ↔
      ∃! place : Fin 9 × Fin 9,
        (place.1.val / 3 = b.val / 3 ∧ place.2.val / 3 = b.val % 3) ∧
          (grid.get place.1).get place.2 = d := by
  rw [existsUnique_cell (fun place : Fin 9 × Fin 9 => cellAt place.1 place.2)
    fun p p' h => Prod.ext (cellAt_inj.mp h).1 (cellAt_inj.mp h).2]
  · simp only [cellAt_mem_box, entry_cellAt]
  · exact fun v _ => ⟨(rowOf v, colOf v), cellAt_eq_iff.mpr ⟨rfl, rfl⟩⟩

/-- The digit has one cell in each unit. -/
theorem hasOnce_iff : grid.HasOnce d ↔ ∀ unit ∈ units, ∃! v, v ∈ unit ∧ grid.entry v = d := by
  rw [forall_mem_units]
  simp only [existsUnique_row, existsUnique_column, existsUnique_box]
  constructor
  · intro h
    refine ⟨h.rows, h.columns, fun b => ?_⟩
    exact h.boxes ⟨b.val / 3, by omega⟩ ⟨b.val % 3, by omega⟩
  · rintro ⟨rows, columns, boxes⟩
    refine ⟨rows, columns, fun band stack => ?_⟩
    -- the box in this band and this stack
    have hband : (band.val * 3 + stack.val) / 3 = band.val := by omega
    have hstack : (band.val * 3 + stack.val) % 3 = stack.val := by omega
    have hbox := boxes ⟨band.val * 3 + stack.val, by omega⟩
    simpa only [hband, hstack] using hbox

end

/-- A board passes the check exactly if each of the nine digits stands once in each row, once in
each column and once in each box, whatever numbers its cells have. -/
theorem isValidSolution_iff_hasOnce (grid : Grid) :
    grid.isValidSolution = true ↔ ∀ d, 1 ≤ d → d ≤ 9 → grid.HasOnce d := by
  -- every cell is in a unit, as it is in its row
  have hcells : (∀ v, 1 ≤ grid.entry v ∧ grid.entry v ≤ 9) ↔
      ∀ unit ∈ units, ∀ v ∈ unit, grid.entry v ∈ digits := by
    constructor
    · intro all unit _ v _
      exact mem_digits.mpr (all v)
    · intro within v
      exact mem_digits.mp ((forall_mem_units.mp within).1 (rowOf v) v (mem_row.mpr rfl))
  have hunits : (∀ unit ∈ units,
      (∀ v ∈ unit, grid.entry v ∈ digits) ∧ (unit.map grid.entry).Nodup) ↔
        ∀ unit ∈ units, ∀ d ∈ digits, ∃! v, v ∈ unit ∧ grid.entry v = d :=
    forall₂_congr fun unit hunit => digits_nodup_iff (length_of_mem_units hunit) grid.entry
  rw [isValidSolution_iff_nodup, hcells, ← forall₂_and, hunits]
  simp only [hasOnce_iff, mem_digits]
  constructor
  · intro once d hpos hle unit hunit
    exact once unit hunit d ⟨hpos, hle⟩
  · intro once unit hunit d hd
    exact once d hd.1 hd.2 unit hunit

end Grid

end ConstraintNet.Sudoku
