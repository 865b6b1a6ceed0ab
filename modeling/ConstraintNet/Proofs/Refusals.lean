import ConstraintNet.Proofs.Givens
import Mathlib.Data.List.Induction

namespace ConstraintNet.Sudoku

theorem coherent_congr {given again : List (Cell × UInt8)} (same : ∀ g, g ∈ again ↔ g ∈ given) :
    Coherent again ↔ Coherent given := by
  simp only [Coherent, same]

theorem eq_domains_of_build {given : List (Cell × UInt8)} {s : Store UInt8 81}
    (h : build given = .ok s) : s = { domains := s.domains } := by
  obtain ⟨all, hfold⟩ := (exists_foldlM_enterGiven records_nil).mpr (coherent_of_build h)
  rw [build_eq_ok hfold] at h
  cases h
  rfl

/-- Givens that are listed in another order, or more often, make the same problem. -/
theorem build_congr {given again : List (Cell × UInt8)} {s : Store UInt8 81}
    (h : build given = .ok s) (same : ∀ g, g ∈ again ↔ g ∈ given) : build again = .ok s := by
  have built := built_of_build h
  obtain ⟨t, hbuild, rebuilt⟩ := exists_built ((coherent_congr same).mpr (coherent_of_build h))
  have hdomains : t.domains = s.domains := by
    apply Store.domains_ext
    intro v x
    rw [rebuilt.mem_domain, built.mem_domain]
    simp only [same]
  rw [hbuild, eq_domains_of_build hbuild, eq_domains_of_build h, hdomains]

theorem Built.domain_given {given : List (Cell × UInt8)} {s : Store UInt8 81} (built : Built given s)
    (coherent : Coherent given) {v : Fin 81} {x : UInt8} (hx : (Cell.ofNumber v.val, x) ∈ given) :
    s.domain v = .singleton x := by
  obtain ⟨⟨-, hdigit⟩, honly⟩ := coherent _ hx
  apply SortedSet.ext
  intro y
  rw [built.mem_domain, SortedSet.mem_singleton]
  constructor
  · intro h
    exact (h.2 x hx).symm
  · intro h
    subst h
    exact ⟨hdigit, honly⟩

theorem Built.mem_domain_open {given : List (Cell × UInt8)} {s : Store UInt8 81}
    (built : Built given s) {v : Fin 81} (isOpen : ∀ x, (Cell.ofNumber v.val, x) ∉ given)
    {x : UInt8} : x ∈ s.domain v ↔ 1 ≤ x ∧ x ≤ 9 := by
  rw [built.mem_domain]
  exact and_iff_left fun y hy => absurd hy (isOpen y)

/-- `Refuses past g e`: after the givens of the list, `g` is refused with the error. A cell off the
board is reported before a value that is no digit, and this before a digit other than the one that
the cell was given first. -/
inductive Refuses (past : List (Cell × UInt8)) (g : Cell × UInt8) : Error → Prop
  | offBoard (off : ¬ g.1.onBoard) : Refuses past g (.cellOutOfRange g.1.row g.1.col)
  | noDigit (on : g.1.onBoard) (outside : ¬ (1 ≤ g.2 ∧ g.2 ≤ 9)) :
      Refuses past g (.valueOutOfRange g.1.row g.1.col g.2)
  | conflicting {first : UInt8} (fits : Fits g)
      (earliest : (past.find? fun h => h.1 = g.1) = some (g.1, first)) (differs : first ≠ g.2) :
      Refuses past g (.conflictingCell g.1.row g.1.col first g.2)

/-- The first given for a cell is like every other. -/
theorem Coherent.find?_eq {past : List (Cell × UInt8)} (coherent : Coherent past) {c : Cell}
    {x : UInt8} (earlier : (c, x) ∈ past) : (past.find? fun h => h.1 = c) = some (c, x) := by
  cases hfind : past.find? fun h => h.1 = c with
  | none =>
    have hnone := List.find?_eq_none.mp hfind (c, x) earlier
    exact absurd rfl (of_decide_eq_false (Bool.eq_false_iff.mpr hnone))
  | some h =>
    have hcell : h.1 = c := by simpa using List.find?_some hfind
    have hmem := List.mem_of_find?_eq_some hfind
    have hvalue : x = h.2 := (coherent h hmem).2 x (hcell.symm ▸ earlier)
    rw [← hcell, hvalue]

theorem Coherent.append {past : List (Cell × UInt8)} (coherent : Coherent past)
    {g : Cell × UInt8} (fits : Fits g) (agrees : ∀ x, (g.1, x) ∈ past → x = g.2) :
    Coherent (past ++ [g]) := by
  intro h hh
  rcases List.mem_append.mp hh with hpast | hnow
  · refine ⟨(coherent h hpast).1, fun x hx => ?_⟩
    rcases List.mem_append.mp hx with hx | hx
    · exact (coherent h hpast).2 x hx
    · -- the new given is for the cell of an old one
      have hg : (h.1, x) = g := List.mem_singleton.mp hx
      subst hg
      exact (agrees h.2 hpast).symm
  · obtain rfl := List.mem_singleton.mp hnow
    refine ⟨fits, fun x hx => ?_⟩
    rcases List.mem_append.mp hx with hx | hx
    · exact agrees x hx
    · exact congrArg Prod.snd (List.mem_singleton.mp hx)

theorem enterGiven_eq_error_iff {givens : Givens} {past : List (Cell × UInt8)}
    (records : Records givens past) (coherent : Coherent past) {g : Cell × UInt8} {e : Error} :
    enterGiven givens g = .error e ↔ Refuses past g e := by
  have henters := enters_enterGiven records g
  -- the cell is checked first, then the digit, then what was entered before: the refusals exclude
  -- each other in this order
  generalize enterGiven givens g = result at henters
  cases henters with
  | offBoard off =>
    refine ⟨fun h => ?_, fun refused => ?_⟩
    · cases h
      exact .offBoard off
    · cases refused with
      | offBoard => rfl
      | noDigit on => exact absurd on off
      | conflicting fits => exact absurd fits.1 off
  | noDigit on outside =>
    refine ⟨fun h => ?_, fun refused => ?_⟩
    · cases h
      exact .noDigit on outside
    · cases refused with
      | offBoard off => exact absurd on off
      | noDigit => rfl
      | conflicting fits => exact absurd fits.2 outside
  | conflicting fits earlier differs =>
    have hfind := coherent.find?_eq earlier
    refine ⟨fun h => ?_, fun refused => ?_⟩
    · cases h
      exact .conflicting fits hfind differs
    · cases refused with
      | offBoard off => exact absurd fits.1 off
      | noDigit _ outside => exact absurd fits.2 outside
      | conflicting _ earliest =>
        rw [hfind] at earliest
        cases earliest
        rfl
  | entered fits agrees =>
    refine ⟨fun h => (by cases h), fun refused => ?_⟩
    cases refused with
    | offBoard off => exact absurd fits.1 off
    | noDigit _ outside => exact absurd fits.2 outside
    | conflicting _ earliest differs =>
      exact absurd (agrees _ (List.mem_of_find?_eq_some earliest)) differs

/-- What holds of no entries but not of all fails first at one of them. -/
theorem exists_first_failure {α : Type} {P : List α → Prop} (start : P []) {l : List α}
    (fails : ¬ P l) : ∃ past a rest, l = past ++ a :: rest ∧ P past ∧ ¬ P (past ++ [a]) := by
  induction l using List.reverseRecOn with
  | nil => exact absurd start fails
  | append_singleton l a ih =>
    by_cases holds : P l
    · exact ⟨l, a, [], rfl, holds, fails⟩
    · obtain ⟨past, b, rest, rfl, hpast, hb⟩ := ih holds
      exact ⟨past, b, rest ++ [a], by simp, hpast, hb⟩

theorem Coherent.exists_records {past : List (Cell × UInt8)} (coherent : Coherent past) :
    ∃ all, past.foldlM enterGiven (Vector.replicate 81 none) = .ok all ∧ Records all past := by
  obtain ⟨all, hfold⟩ := (exists_foldlM_enterGiven records_nil).mpr coherent
  exact ⟨all, hfold, records_nil.foldlM hfold⟩

/-- The list is refused at a given that is refused after coherent ones. -/
theorem build_of_refuses {past : List (Cell × UInt8)} {g : Cell × UInt8} {e : Error}
    (coherent : Coherent past) (refused : Refuses past g e) (rest : List (Cell × UInt8)) :
    build (past ++ g :: rest) = .error e := by
  obtain ⟨all, hfold, records⟩ := coherent.exists_records
  have hrefused := (enterGiven_eq_error_iff records coherent).mpr refused
  have hlist : (past ++ g :: rest).foldlM enterGiven (Vector.replicate 81 none) = .error e := by
    rw [List.foldlM_append, hfold]
    change (g :: rest).foldlM enterGiven all = .error e
    rw [List.foldlM_cons, hrefused]
    rfl
  unfold build
  rw [hlist]
  rfl

/-- A given with which a list is no longer coherent is refused. -/
theorem Coherent.exists_refuses {past : List (Cell × UInt8)} (coherent : Coherent past)
    {g : Cell × UInt8} (breach : ¬ Coherent (past ++ [g])) : ∃ e, Refuses past g e := by
  obtain ⟨all, -, records⟩ := coherent.exists_records
  have henters := enters_enterGiven records g
  cases hresult : enterGiven all g with
  | error e => exact ⟨e, (enterGiven_eq_error_iff records coherent).mp hresult⟩
  | ok next =>
    rw [hresult] at henters
    cases henters with
    | entered fits agrees => exact absurd (coherent.append fits agrees) breach

theorem build_eq_error_iff {given : List (Cell × UInt8)} {e : Error} :
    build given = .error e ↔
      ∃ past g rest, given = past ++ g :: rest ∧ Coherent past ∧ ¬ Coherent (past ++ [g]) ∧
        Refuses past g e := by
  constructor
  · intro h
    have hbreach : ¬ Coherent given := by
      intro coherent
      obtain ⟨s, hbuild, -⟩ := exists_built coherent
      rw [h] at hbuild
      cases hbuild
    -- the empty list is coherent, so there is a first given with which the list is no longer so
    obtain ⟨past, g, rest, hgiven, coherent, breach⟩ :=
      exists_first_failure (P := Coherent) (fun g hg => absurd hg List.not_mem_nil) hbreach
    obtain ⟨e', refused⟩ := coherent.exists_refuses breach
    have hbuild := build_of_refuses coherent refused rest
    rw [← hgiven, h] at hbuild
    cases hbuild
    exact ⟨past, g, rest, hgiven, coherent, breach, refused⟩
  · intro h
    obtain ⟨past, g, rest, hgiven, coherent, -, refused⟩ := h
    rw [hgiven]
    exact build_of_refuses coherent refused rest

/-- Only cells of the board have a number, and it is found within 32 bits, by products and sums of
64-bit words that do not wrap around. -/
theorem Cell.number_exact {row col : UInt64} {v : Fin 81}
    (h : (⟨row.toNat, col.toNat⟩ : Cell).number? = some v) :
    row.toNat * 9 + col.toNat < UInt32.size ∧ (row * 9 + col).toUInt32.toNat = v.val := by
  obtain ⟨hrow, hcol⟩ := Cell.mk.inj (eq_ofNumber h)
  have hv := v.isLt
  have hexact : (row * 9 + col).toNat = v.val := by
    rw [UInt64.toNat_add, UInt64.toNat_mul]
    have hnine : (9 : UInt64).toNat = 9 := rfl
    rw [hnine]
    omega
  rw [UInt64.toNat_toUInt32, hexact]
  have hsize : UInt32.size = 2 ^ 32 := rfl
  omega

/-- A list of givens is built into a problem exactly if it is coherent. The problem leaves a given
cell its value and every other cell all digits, and any list of the same givens, in whatever order
and however often they are listed, builds the same problem. Any other list is refused for the first
given with which it is no longer coherent. The number of a cell is computed without overflow. -/
theorem build_judges_givens (given : List (Cell × UInt8)) :
    ((∃ s, build given = .ok s) ↔ Coherent given) ∧
      (∀ s, build given = .ok s →
        (∀ v : Fin 81,
          (∀ x, (Cell.ofNumber v.val, x) ∈ given → s.domain v = .singleton x) ∧
            ((∀ x, (Cell.ofNumber v.val, x) ∉ given) →
              ∀ x, x ∈ s.domain v ↔ 1 ≤ x ∧ x ≤ 9)) ∧
          ∀ again : List (Cell × UInt8), (∀ g, g ∈ again ↔ g ∈ given) → build again = .ok s) ∧
      (∀ e, build given = .error e ↔
        ∃ past g rest, given = past ++ g :: rest ∧ Coherent past ∧ ¬ Coherent (past ++ [g]) ∧
          Refuses past g e) ∧
      ∀ (row col : UInt64) (v : Fin 81), (⟨row.toNat, col.toNat⟩ : Cell).number? = some v →
        row.toNat * 9 + col.toNat < UInt32.size ∧ (row * 9 + col).toUInt32.toNat = v.val := by
  refine ⟨⟨fun h => ?_, fun coherent => ?_⟩, fun s h => ⟨fun v => ⟨fun x hx => ?_, ?_⟩, ?_⟩,
    fun e => build_eq_error_iff, fun row col v => Cell.number_exact⟩
  · obtain ⟨s, h⟩ := h
    exact coherent_of_build h
  · obtain ⟨s, h, -⟩ := exists_built coherent
    exact ⟨s, h⟩
  · exact (built_of_build h).domain_given (coherent_of_build h) hx
  · intro isOpen x
    exact (built_of_build h).mem_domain_open isOpen
  · intro again same
    exact build_congr h same

theorem build_judges_givens_repeated :
    (∃ s, build [(⟨1, 1⟩, 3)] = .ok s ∧ build [(⟨1, 1⟩, 3), (⟨1, 1⟩, 3)] = .ok s ∧
        s.domain 10 = .singleton 3 ∧ (∀ x, x ∈ s.domain 11 ↔ 1 ≤ x ∧ x ≤ 9)) ∧
      build [(⟨1, 1⟩, 3), (⟨1, 1⟩, 4), (⟨9, 0⟩, 1)] = .error (.conflictingCell 1 1 3 4) := by
  have hone : Coherent [(⟨1, 1⟩, 3)] := by
    intro g hg
    obtain rfl := List.mem_singleton.mp hg
    exact ⟨by decide, fun x hx => congrArg Prod.snd (List.mem_singleton.mp hx)⟩
  obtain ⟨haccepts, hbuilt, -⟩ := build_judges_givens [(⟨1, 1⟩, 3)]
  obtain ⟨s, hbuild⟩ := haccepts.mpr hone
  obtain ⟨hdomains, hagain⟩ := hbuilt s hbuild
  refine ⟨⟨s, hbuild, hagain _ (by simp), (hdomains 10).1 3 (by decide), ?_⟩, ?_⟩
  · apply (hdomains 11).2
    intro x hx
    cases List.mem_singleton.mp hx
  · obtain ⟨-, -, hrefuses, -⟩ := build_judges_givens [(⟨1, 1⟩, 3), (⟨1, 1⟩, 4), (⟨9, 0⟩, 1)]
    refine (hrefuses _).mpr ⟨[(⟨1, 1⟩, 3)], (⟨1, 1⟩, 4), [(⟨9, 0⟩, 1)], rfl, hone, ?_, ?_⟩
    · intro coherent
      have hsame := (coherent (⟨1, 1⟩, 3) (by simp)).2 4 (by simp)
      exact absurd hsame (by decide)
    · exact .conflicting (by decide) (by decide) (by decide)

end ConstraintNet.Sudoku
