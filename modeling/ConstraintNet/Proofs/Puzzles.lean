import ConstraintNet.Proofs.Boards
import ConstraintNet.Proofs.Verdicts

namespace ConstraintNet.Sudoku

namespace Grid

theorem exists_of_mem_givens {grid : Grid} {g : Cell × UInt8} (h : g ∈ grid.givens) :
    ∃ v : Fin 81, g = (Cell.ofNumber v.val, grid.entry v) ∧ grid.entry v ≠ 0 := by
  obtain ⟨v, -, hv⟩ := List.mem_filterMap.mp h
  split at hv
  · cases hv
  · rename_i hfilled
    exact ⟨v, (Option.some.inj hv).symm, hfilled⟩

theorem mem_givens {grid : Grid} {v : Fin 81} {x : UInt8} :
    (Cell.ofNumber v.val, x) ∈ grid.givens ↔ grid.entry v = x ∧ x ≠ 0 := by
  constructor
  · intro h
    obtain ⟨u, he, hfilled⟩ := exists_of_mem_givens h
    obtain ⟨hcell, rfl⟩ := Prod.mk.inj he
    rw [Cell.ofNumber_inj.mp hcell]
    exact ⟨rfl, hfilled⟩
  · rintro ⟨rfl, hfilled⟩
    exact List.mem_filterMap.mpr ⟨v, List.mem_finRange v, if_neg hfilled⟩

theorem preservesGivens_iff {puzzle solution : Grid} :
    puzzle.preservesGivens solution = true ↔
      ∀ v, puzzle.entry v = 0 ∨ solution.entry v = puzzle.entry v := by
  simp [preservesGivens]

/-- The board is right, and has every given of the puzzle. -/
structure Solves (solution puzzle : Grid) : Prop where
  valid : solution.isValidSolution = true
  preserves : puzzle.preservesGivens solution = true

end Grid

theorem coherent_givens_iff {grid : Grid} :
    Coherent grid.givens ↔ ∀ r c : Fin 9, (grid.get r).get c ≤ 9 := by
  constructor
  · intro coherent r c
    rw [← grid.entry_cellAt]
    by_cases hopen : grid.entry (cellAt r c) = 0
    · rw [hopen]
      decide
    · exact (coherent _ (Grid.mem_givens.mpr ⟨rfl, hopen⟩)).1.2.2
  · intro small g hg
    obtain ⟨v, rfl, hfilled⟩ := Grid.exists_of_mem_givens hg
    have hpos : 1 ≤ grid.entry v := by
      have hne : (grid.entry v).toNat ≠ 0 := fun h => hfilled (UInt8.toNat_inj.mp h)
      apply UInt8.le_iff_toNat_le.mpr
      rw [UInt8.toNat_one]
      omega
    refine ⟨⟨Cell.onBoard_ofNumber v, hpos, small (rowOf v) (colOf v)⟩, fun x hx => ?_⟩
    exact (Grid.mem_givens.mp hx).1.symm

variable {puzzle : Grid} {s : Store UInt8 81}

/-- The digits left for a cell are those that do not contradict the puzzle. -/
theorem Built.mem_domain_givens (built : Built puzzle.givens s) {v : Fin 81} {x : UInt8} :
    x ∈ s.domain v ↔ (1 ≤ x ∧ x ≤ 9) ∧ (puzzle.entry v = 0 ∨ x = puzzle.entry v) := by
  rw [built.mem_domain]
  refine and_congr_right fun _ => ?_
  simp only [Grid.mem_givens]
  by_cases hopen : puzzle.entry v = 0
  · simp [hopen]
  · simp [hopen, eq_comm]

/-- Where a puzzle has a digit, its problem leaves no choice. -/
theorem Built.size_eq_one (built : Built puzzle.givens s) {v : Fin 81}
    (given : puzzle.entry v ≠ 0) : (s.domain v).size = 1 := by
  have honly {x : UInt8} (hx : x ∈ s.domain v) : x = puzzle.entry v :=
    (built.mem_domain_givens.mp hx).2.resolve_left given
  obtain ⟨x, hx⟩ := built.live v
  have hdomain : s.domain v = .singleton (puzzle.entry v) := by
    apply SortedSet.ext
    intro y
    rw [SortedSet.mem_singleton]
    refine ⟨honly, ?_⟩
    rintro rfl
    rw [← honly hx]
    exact hx
  rw [hdomain]
  rfl

theorem project_eq_ok {a : Assignment UInt8} (whole : ∀ id, id ∈ a ↔ id < 81) :
    project a = .ok (Grid.ofFn fun v => (a.value? v).getD 0) := by
  have hnone : (a.keys.find? fun id => 81 ≤ id) = none := by
    apply List.find?_eq_none.mpr
    intro id hid
    have hlt := (whole id).mp (Std.ExtTreeMap.mem_keys.mp hid)
    simpa using hlt
  have hsize : a.size = 81 := Assignment.size_eq whole
  unfold project
  simp only [hnone, hsize]
  rfl

theorem compatible_network_iff {value? : Fin 81 → Option UInt8} :
    network.Compatible value? ↔
      ∀ v w x y, graph.Adj v w → value? v = some x → value? w = some y → x ≠ y := by
  simp [Network.Compatible, network, Relation.notEqual]

/-- A solution of the problem is read back as a solution of the puzzle. -/
theorem Built.exists_solves (built : Built puzzle.givens s) {a : Assignment UInt8}
    (h : network.IsSolution s a) : ∃ grid, project a = .ok grid ∧ grid.Solves puzzle := by
  let grid := Grid.ofFn fun v => (a.value? v).getD 0
  have hvalue (v : Fin 81) : a.value? v = some (grid.entry v) := by
    obtain ⟨x, hx⟩ := Assignment.exists_value? ((h.whole v).mpr v.isLt)
    rw [Grid.entry_ofFn, hx]
    rfl
  have hdomain (v : Fin 81) := built.mem_domain_givens.mp (h.within v _ (hvalue v))
  have hdiffer := compatible_network_iff.mp h.compatible
  refine ⟨grid, project_eq_ok h.whole, ?_, ?_⟩
  · apply Grid.isValidSolution_iff.mpr
    intro v
    exact ⟨(hdomain v).1, fun u adj => (hdiffer v u _ _ adj (hvalue v) (hvalue u)).symm⟩
  · exact Grid.preservesGivens_iff.mpr fun v => (hdomain v).2

/-- And every solution of the puzzle is one of the problem. -/
theorem Built.isSolution_of_solves (built : Built puzzle.givens s) {grid : Grid}
    (h : grid.Solves puzzle) :
    network.IsSolution s (Assignment.ofVector (Vector.ofFn grid.entry)) := by
  have hvalid := Grid.isValidSolution_iff.mp h.valid
  have hgivens := Grid.preservesGivens_iff.mp h.preserves
  have hvalue (v : Fin 81) (x : UInt8)
      (hx : Assignment.value? (.ofVector (Vector.ofFn grid.entry)) v = some x) :
      grid.entry v = x := by
    rw [Assignment.value?_ofVector, Family.get_ofFn] at hx
    exact Option.some.inj hx
  refine ⟨fun id => Assignment.mem_ofVector, fun v x hx => ?_, compatible_network_iff.mpr ?_⟩
  · obtain rfl := hvalue v x hx
    exact built.mem_domain_givens.mpr ⟨(hvalid v).1, hgivens v⟩
  · intro v w x y adj hx hy
    obtain rfl := hvalue v x hx
    obtain rfl := hvalue w y hy
    exact ((hvalid v).2 w adj).symm

/-- A puzzle is built into a problem exactly if it has no entry above 9, and the cells that then
constrain each other are those that share a row, a column or a box. Every search that nobody
cancels solves the puzzle, or tells rightly that it has no solution, and what a repair solves is a
solution of the puzzle, whatever its bound, its seed and its token. -/
theorem solvers_solve_puzzle (puzzle : Grid) :
    ((∃ s, buildGrid puzzle = .ok s) ↔ ∀ r c : Fin 9, (puzzle.get r).get c ≤ 9) ∧
      (∀ v w, network.graph.Adj v w ↔
        w ≠ v ∧ (rowOf w = rowOf v ∨ colOf w = colOf v ∨ boxOf w = boxOf v)) ∧
      ∀ s, buildGrid puzzle = .ok s →
        (∀ plan : Plan, ∃ outcome stats, (plan.solve network .never s).1 = .ok (outcome, stats) ∧
          ((∃ a grid, outcome = .solved a ∧ project a = .ok grid ∧ grid.Solves puzzle) ∨
            outcome = .unsatisfiable ∧ ∀ grid : Grid, ¬ grid.Solves puzzle)) ∧
        ∀ (repair : Repair) (token : Token) (a : Assignment UInt8) (stats : Statistics),
          repair.solve network token s = .ok (.solved a, stats) →
            ∃ grid, project a = .ok grid ∧ grid.Solves puzzle := by
  refine ⟨⟨fun ⟨s, hbuild⟩ => ?_, fun small => ?_⟩, fun v w => adj_graph, fun s hbuild =>
    ⟨fun plan => ?_, fun repair token a stats hsolve => ?_⟩⟩
  · exact coherent_givens_iff.mp (coherent_of_build hbuild)
  · obtain ⟨s, hbuild, -⟩ := exists_built (coherent_givens_iff.mpr small)
    exact ⟨s, hbuild⟩
  · have built := built_of_build hbuild
    obtain ⟨outcome, stats, hsolve, hverdict⟩ := plan.exists_verdict network built.live built.fresh
    refine ⟨outcome, stats, hsolve, ?_⟩
    rcases hverdict with ⟨a, rfl, ha⟩ | ⟨rfl, hnone⟩
    · obtain ⟨grid, hproject, hsolves⟩ := built.exists_solves ha
      exact Or.inl ⟨a, grid, rfl, hproject, hsolves⟩
    · exact Or.inr ⟨rfl, fun grid hsolves => hnone _ (built.isSolution_of_solves hsolves)⟩
  · exact (built_of_build hbuild).exists_solves (Repair.isSolution_of_solve hsolve)

/-- A puzzle with thirty givens. -/
def classic : Grid := #v[
  #v[5, 3, 0, 0, 7, 0, 0, 0, 0],
  #v[6, 0, 0, 1, 9, 5, 0, 0, 0],
  #v[0, 9, 8, 0, 0, 0, 0, 6, 0],
  #v[8, 0, 0, 0, 6, 0, 0, 0, 3],
  #v[4, 0, 0, 8, 0, 3, 0, 0, 1],
  #v[7, 0, 0, 0, 2, 0, 0, 0, 6],
  #v[0, 6, 0, 0, 0, 0, 2, 8, 0],
  #v[0, 0, 0, 4, 1, 9, 0, 0, 5],
  #v[0, 0, 0, 0, 8, 0, 0, 7, 9]]

/-- The same with every cell filled in. -/
def filled : Grid := #v[
  #v[5, 3, 4, 6, 7, 8, 9, 1, 2],
  #v[6, 7, 2, 1, 9, 5, 3, 4, 8],
  #v[1, 9, 8, 3, 4, 2, 5, 6, 7],
  #v[8, 5, 9, 7, 6, 1, 4, 2, 3],
  #v[4, 2, 6, 8, 5, 3, 7, 9, 1],
  #v[7, 1, 3, 9, 2, 4, 8, 5, 6],
  #v[9, 6, 1, 5, 3, 7, 2, 8, 4],
  #v[2, 8, 7, 4, 1, 9, 6, 3, 5],
  #v[3, 4, 5, 2, 8, 6, 1, 7, 9]]

theorem filled_solves {puzzle : Grid}
    (h : ∀ v, puzzle.entry v = 0 ∨ filled.entry v = puzzle.entry v) : filled.Solves puzzle where
  valid := Grid.isValidSolution_iff_nodup.mpr (by decide +kernel)
  preserves := Grid.preservesGivens_iff.mpr h

theorem solvers_solve_classic :
    (∃ s, buildGrid classic = .ok s ∧
      ∀ plan : Plan, ∃ a grid stats, (plan.solve network .never s).1 = .ok (.solved a, stats) ∧
        project a = .ok grid ∧ grid.Solves classic) ∧
    ∃ s, buildGrid filled = .ok s ∧
      ∀ repair : Repair, ∃ a grid stats, repair.solve network .never s = .ok (.solved a, stats) ∧
        project a = .ok grid ∧ grid.Solves filled := by
  obtain ⟨hopen, -, hplans⟩ := solvers_solve_puzzle classic
  obtain ⟨hfixed, -, hrepairs⟩ := solvers_solve_puzzle filled
  obtain ⟨s, hs⟩ := hopen.mpr (by decide +kernel)
  obtain ⟨t, ht⟩ := hfixed.mpr (by decide +kernel)
  refine ⟨⟨s, hs, fun plan => ?_⟩, t, ht, fun repair => ?_⟩
  · obtain ⟨outcome, stats, hsolve, ⟨a, grid, rfl, hproject, hsolves⟩ | ⟨-, hnone⟩⟩ :=
      (hplans s hs).1 plan
    · exact ⟨a, grid, stats, hsolve, hproject, hsolves⟩
    · exact absurd (filled_solves (by decide +kernel)) (hnone filled)
  · have built := built_of_build ht
    have hfull : ∀ v, filled.entry v ≠ 0 := by decide +kernel
    obtain ⟨a, stats, hsolve⟩ := repair.exists_solved_of_fixed (fun v => built.size_eq_one (hfull v))
      (built.isSolution_of_solves (filled_solves fun _ => Or.inr rfl))
    obtain ⟨grid, hproject, hsolves⟩ := (hrepairs t ht).2 repair .never a stats hsolve
    exact ⟨a, grid, stats, hsolve, hproject, hsolves⟩

end ConstraintNet.Sudoku
