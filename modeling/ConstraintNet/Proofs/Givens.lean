import ConstraintNet.Proofs.Inference
import ConstraintNet.Sudoku.Puzzle

namespace ConstraintNet

theorem Store.ofDomains_toArray {V : Type} [Value V] {n : Nat} {domains : Vector (Domain V) n}
    (live : ∀ v, ∃ x, x ∈ domains.get v) :
    Store.ofDomains n domains.toArray = .ok { domains := domains } := by
  have hnone : (List.finRange n).find? (fun v => (domains.get v).isEmpty) = none := by
    apply List.find?_eq_none.mpr
    intro v _
    rw [SortedSet.isEmpty_eq_false_iff.mpr (live v)]
    exact Bool.false_ne_true
  unfold ofDomains
  rw [dif_pos domains.size_toArray]
  simp only [hnone]

namespace Sudoku

namespace Cell

theorem onBoard_ofNumber (v : Fin 81) : (ofNumber v.val).onBoard := by
  unfold onBoard ofNumber
  dsimp only
  omega

theorem number?_ofNumber (v : Fin 81) : (ofNumber v.val).number? = some v := by
  rw [number?, dif_pos (onBoard_ofNumber v)]
  congr 1
  apply Fin.ext
  dsimp only [ofNumber]
  omega

theorem eq_ofNumber {c : Cell} {v : Fin 81} (h : c.number? = some v) : c = ofNumber v.val := by
  unfold number? at h
  split at h
  · rename_i onBoard
    obtain ⟨hrow, hcol⟩ := onBoard
    cases h
    obtain ⟨row, col⟩ := c
    rw [ofNumber, mk.injEq]
    dsimp only at hrow hcol ⊢
    omega
  · cases h

theorem ofNumber_inj {v w : Fin 81} : ofNumber v.val = ofNumber w.val ↔ v = w := by
  refine ⟨fun h => ?_, fun h => by rw [h]⟩
  have hv := number?_ofNumber v
  rw [h, number?_ofNumber w] at hv
  exact (Option.some.inj hv).symm

theorem number?_eq_none_iff {c : Cell} : c.number? = none ↔ ¬ c.onBoard := by
  unfold number?
  split
  · rename_i onBoard
    simp [onBoard]
  · rename_i off
    simp [off]

end Cell

/-- A digit for a cell of the board. -/
def Fits (g : Cell × UInt8) : Prop := g.1.onBoard ∧ 1 ≤ g.2 ∧ g.2 ≤ 9

instance (g : Cell × UInt8) : Decidable (Fits g) := inferInstanceAs (Decidable (_ ∧ _))

/-- The givens are those of the list. -/
def Records (givens : Givens) (given : List (Cell × UInt8)) : Prop :=
  ∀ v x, givens.get v = some x ↔ (Cell.ofNumber v.val, x) ∈ given

theorem records_nil : Records (Vector.replicate 81 none) [] := by
  intro v x
  have hget : (Vector.replicate 81 (none : Option UInt8)).get v = none := Vector.getElem_replicate ..
  simp [hget]

theorem Records.again {givens : Givens} {given : List (Cell × UInt8)} (records : Records givens given)
    {g : Cell × UInt8} (earlier : g ∈ given) : Records givens (given ++ [g]) := by
  intro w y
  rw [records w y, List.mem_append, List.mem_singleton]
  refine ⟨Or.inl, fun h => h.elim id fun again => ?_⟩
  rw [again]
  exact earlier

theorem Records.set {givens : Givens} {given : List (Cell × UInt8)} (records : Records givens given)
    {v : Fin 81} (unrecorded : givens.get v = none) (x : UInt8) :
    Records (Vector.set givens v.val (some x) v.isLt) (given ++ [(Cell.ofNumber v.val, x)]) := by
  intro w y
  rw [Family.get_set, List.mem_append, List.mem_singleton, Prod.mk.injEq, Cell.ofNumber_inj]
  by_cases hw : w = v
  · subst hw
    have hnone : (Cell.ofNumber w.val, y) ∉ given := by
      rw [← records w y, unrecorded]
      intro e
      cases e
    simp only [if_true, hnone, false_or, true_and, Option.some.injEq]
    exact eq_comm
  · simp only [hw, if_false, false_and, or_false]
    exact records w y

/-- `Enters given g result`: what comes of entering `g` after the givens of the list. -/
inductive Enters (given : List (Cell × UInt8)) (g : Cell × UInt8) : Except Error Givens → Prop
  | offBoard (off : ¬ g.1.onBoard) : Enters given g (.error (.cellOutOfRange g.1.row g.1.col))
  | noDigit (on : g.1.onBoard) (outside : ¬ (1 ≤ g.2 ∧ g.2 ≤ 9)) :
      Enters given g (.error (.valueOutOfRange g.1.row g.1.col g.2))
  | conflicting {first : UInt8} (fits : Fits g) (earlier : (g.1, first) ∈ given)
      (differs : first ≠ g.2) :
      Enters given g (.error (.conflictingCell g.1.row g.1.col first g.2))
  | entered {next : Givens} (fits : Fits g) (agrees : ∀ x, (g.1, x) ∈ given → x = g.2)
      (records : Records next (given ++ [g])) : Enters given g (.ok next)

theorem enters_enterGiven {givens : Givens} {given : List (Cell × UInt8)}
    (records : Records givens given) (g : Cell × UInt8) :
    Enters given g (enterGiven givens g) := by
  obtain ⟨cell, value⟩ := g
  unfold enterGiven
  dsimp only
  split
  · rename_i off
    exact .offBoard (Cell.number?_eq_none_iff.mp off)
  · rename_i v number
    -- from here on the cell is known by its number
    obtain rfl := Cell.eq_ofNumber number
    have hon := Cell.onBoard_ofNumber v
    split
    · rename_i digit
      have hfits : Fits (Cell.ofNumber v.val, value) := ⟨hon, digit⟩
      split
      · rename_i first recorded
        have hearlier := (records v first).mp recorded
        split
        · rename_i same
          subst same
          refine .entered hfits (fun x hx => ?_) (records.again hearlier)
          rw [← records v x, recorded] at hx
          exact (Option.some.inj hx).symm
        · rename_i differs
          exact .conflicting hfits hearlier differs
      · rename_i unrecorded
        refine .entered hfits (fun x hx => ?_) (records.set unrecorded value)
        rw [← records v x, unrecorded] at hx
        cases hx
    · rename_i outside
      exact .noDigit hon outside

theorem Records.foldlM {givens all : Givens} {past given : List (Cell × UInt8)}
    (records : Records givens past) (entered : given.foldlM enterGiven givens = .ok all) :
    Records all (past ++ given) := by
  induction given generalizing givens past with
  | nil =>
    cases entered
    rw [List.append_nil]
    exact records
  | cons g rest ih =>
    have hg := enters_enterGiven records g
    rw [List.foldlM_cons] at entered
    generalize enterGiven givens g = result at hg entered
    cases hg with
    | offBoard | noDigit | conflicting => cases entered
    | entered _ _ records =>
      have hall := ih records entered
      rw [List.append_assoc] at hall
      exact hall

/-- Entering the list after other givens succeeds exactly if each entry fits and agrees with all
that its cell is given, before or after it. -/
theorem exists_foldlM_enterGiven {givens : Givens} {past given : List (Cell × UInt8)}
    (records : Records givens past) :
    (∃ all, given.foldlM enterGiven givens = .ok all) ↔
      ∀ g ∈ given, Fits g ∧ ∀ x, (g.1, x) ∈ past ++ given → x = g.2 := by
  induction given generalizing givens past with
  | nil => exact ⟨fun _ g hg => (by cases hg), fun _ => ⟨givens, rfl⟩⟩
  | cons g rest ih =>
    have hg := enters_enterGiven records g
    rw [List.foldlM_cons, List.forall_mem_cons]
    generalize enterGiven givens g = result at hg
    -- a refused entry breaks the condition by itself
    cases hg with
    | offBoard off =>
      refine ⟨fun h => ?_, fun h => absurd h.1.1.1 off⟩
      obtain ⟨_, h⟩ := h
      cases h
    | noDigit _ outside =>
      refine ⟨fun h => ?_, fun h => absurd h.1.1.2 outside⟩
      obtain ⟨_, h⟩ := h
      cases h
    | conflicting _ earlier differs =>
      refine ⟨fun h => ?_, fun h => ?_⟩
      · obtain ⟨_, h⟩ := h
        cases h
      · exact absurd (h.1.2 _ (List.mem_append_left _ earlier)) differs
    | entered fits agrees records =>
      have hrest := ih records
      rw [List.append_assoc, List.singleton_append] at hrest
      refine hrest.trans ⟨fun h => ⟨⟨fits, fun x hx => ?_⟩, h⟩, fun h => h.2⟩
      -- what the cell is given later agrees with what it is given now
      rcases List.mem_append.mp hx with hpast | hlater
      · exact agrees x hpast
      · rcases List.mem_cons.mp hlater with hnow | hlater
        · exact congrArg Prod.snd hnow
        · have hsame := (h (g.1, x) hlater).2 g.2
            (List.mem_append_right _ List.mem_cons_self)
          exact hsame.symm

/-- The givens of the list fit the board, and no cell is given two digits. -/
def Coherent (given : List (Cell × UInt8)) : Prop :=
  ∀ g ∈ given, Fits g ∧ ∀ x, (g.1, x) ∈ given → x = g.2

theorem mem_digits {x : UInt8} : x ∈ digits ↔ 1 ≤ x ∧ x ≤ 9 := by
  simp only [digits, SortedSet.mem_ofList, List.mem_cons, List.not_mem_nil, or_false,
    UInt8.le_iff_toNat_le, ← UInt8.toNat_inj, UInt8.reduceToNat]
  omega

/-- A given cell has one value left, its own, and an open cell has every digit. -/
theorem mem_domainOf {given : Option UInt8} {x : UInt8} :
    x ∈ domainOf given ↔ given = some x ∨ given = none ∧ 1 ≤ x ∧ x ≤ 9 := by
  cases given with
  | none => simp [domainOf, mem_digits]
  | some y => simp [domainOf, eq_comm]

theorem exists_mem_domainOf (given : Option UInt8) : ∃ x, x ∈ domainOf given := by
  cases given with
  | none => exact ⟨1, mem_domainOf.mpr (Or.inr ⟨rfl, by decide⟩)⟩
  | some x => exact ⟨x, mem_domainOf.mpr (Or.inl rfl)⟩

/-- A problem as built from givens: nothing is assigned, and the domain of a cell has the digits
that agree with all that was given for it. -/
structure Built (given : List (Cell × UInt8)) (s : Store UInt8 81) : Prop where
  live : s.Live
  fresh : s.assignment = ∅
  mem_domain : ∀ v x, x ∈ s.domain v ↔
    (1 ≤ x ∧ x ≤ 9) ∧ ∀ y, (Cell.ofNumber v.val, y) ∈ given → y = x

theorem Records.mem_domain {all : Givens} {given : List (Cell × UInt8)} (records : Records all given)
    (coherent : Coherent given) {v : Fin 81} {x : UInt8} :
    x ∈ domainOf (all.get v) ↔
      (1 ≤ x ∧ x ≤ 9) ∧ ∀ y, (Cell.ofNumber v.val, y) ∈ given → y = x := by
  simp only [← records v]
  rw [mem_domainOf]
  cases hget : all.get v with
  | none => simp
  | some y =>
    obtain ⟨hfits, -⟩ := coherent _ ((records v y).mp hget)
    simp only [Option.some.injEq, reduceCtorEq, false_and, or_false, forall_eq']
    refine ⟨?_, fun h => h.2⟩
    rintro rfl
    exact ⟨hfits.2, rfl⟩

theorem get_map_domainOf (all : Givens) (v : Fin 81) :
    (all.map domainOf).get v = domainOf (all.get v) := Vector.getElem_map ..

theorem build_eq_ok {given : List (Cell × UInt8)} {all : Givens}
    (entered : given.foldlM enterGiven (Vector.replicate 81 none) = .ok all) :
    build given = .ok { domains := all.map domainOf } := by
  have live (v : Fin 81) : ∃ x, x ∈ (all.map domainOf).get v := by
    rw [get_map_domainOf]
    exact exists_mem_domainOf _
  unfold build
  rw [entered]
  exact Store.ofDomains_toArray live

theorem exists_built {given : List (Cell × UInt8)} (coherent : Coherent given) :
    ∃ s, build given = .ok s ∧ Built given s := by
  obtain ⟨all, hfold⟩ := (exists_foldlM_enterGiven records_nil).mpr coherent
  have records : Records all given := records_nil.foldlM hfold
  refine ⟨{ domains := all.map domainOf }, build_eq_ok hfold, fun v => ?_, rfl, fun v x => ?_⟩
  · rw [Store.domain, get_map_domainOf]
    exact exists_mem_domainOf _
  · rw [Store.domain, get_map_domainOf]
    exact records.mem_domain coherent

theorem coherent_of_build {given : List (Cell × UInt8)} {s : Store UInt8 81}
    (h : build given = .ok s) : Coherent given := by
  apply (exists_foldlM_enterGiven records_nil).mp
  unfold build at h
  cases hfold : given.foldlM enterGiven (Vector.replicate 81 none) with
  | error e =>
    rw [hfold] at h
    cases h
  | ok all => exact ⟨all, rfl⟩

theorem built_of_build {given : List (Cell × UInt8)} {s : Store UInt8 81}
    (h : build given = .ok s) : Built given s := by
  obtain ⟨t, hbuild, hbuilt⟩ := exists_built (coherent_of_build h)
  rw [h] at hbuild
  cases hbuild
  exact hbuilt

end Sudoku

end ConstraintNet
