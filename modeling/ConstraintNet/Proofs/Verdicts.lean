import ConstraintNet.Proofs.Cancellation
import ConstraintNet.Proofs.Coherence
import ConstraintNet.Proofs.Completeness
import ConstraintNet.Proofs.Repairs

namespace ConstraintNet

variable {V : Type} [Value V] [DecidableEq V] {n : Nat}

namespace Plan

/-- From a sound node, a search that succeeds ends with a completion. -/
theorem Explores.completes {plan : Plan} {net : Network V n} {token : Token} {r r' : Run V n}
    (h : Explores plan net token .node r (.ok true) r') (sound : Sound net .node r) :
    net.Completes r.store r'.store.assignment := by
  have hlast := Network.verify_eq_ok_iff.mp ((h.ends_well sound).2 rfl)
  have hcompletes : net.Completes r'.store r'.store.assignment :=
    ⟨hlast, Assignment.extends_refl _⟩
  exact hcompletes.of_advances (h.framed trivial).advances

/-- From a well-posed store a search that nobody cancels ends with an outcome. -/
theorem exists_ends (plan : Plan) (net : Network V n) {s : Store V n} (well : net.WellPosed s) :
    ∃ outcome r', Ends plan net .never (plan.start s) (.ok outcome) r' ∧
      (plan.solve net .never s).1 = .ok (outcome, r'.stats) := by
  have hends := plan.ends_run net .never (plan.start s)
  cases hrun : plan.run net .never (plan.start s) with
  | mk result r' =>
    rw [hrun] at hends
    have hsolve : (plan.solve net .never s).1 = result.map fun outcome => (outcome, r'.stats) := by
      simp only [solve, hrun]
    rcases hends.no_violation well.start with rfl | rfl | ⟨a, rfl⟩
    · have hheeds := plan.heeds_run net .never (plan.start s)
      exact absurd hsolve (hheeds.ne_cancelled fun r outcome => (outcome, r.stats))
    · exact ⟨.unsatisfiable, r', hends, hsolve⟩
    · exact ⟨.solved a, r', hends, hsolve⟩

/-- Begun with nothing assigned, the search solves the problem or shows that it has no solution. -/
theorem exists_verdict (plan : Plan) (net : Network V n) {s : Store V n} (live : s.Live)
    (fresh : s.assignment = ∅) :
    ∃ outcome stats, (plan.solve net .never s).1 = .ok (outcome, stats) ∧
      ((∃ a, outcome = .solved a ∧ net.IsSolution s a) ∨
        outcome = .unsatisfiable ∧ ∀ a, ¬ net.IsSolution s a) := by
  obtain ⟨outcome, r', hends, hsolve⟩ := plan.exists_ends net (net.wellPosed_of_fresh live fresh)
  have hcompletes (a : Assignment V) : net.Completes (plan.start s).store a ↔ net.IsSolution s a :=
    completes_start.trans (Network.completes_iff_of_fresh fresh)
  refine ⟨outcome, r'.stats, hsolve, ?_⟩
  rcases hends.answers with rfl | ⟨a, rfl⟩
  · exact Or.inr ⟨rfl, fun a ha => hends.exhaustive a ((hcompletes a).mpr ha)⟩
  · exact Or.inl ⟨a, rfl, (hcompletes a).mp hends.completes⟩

end Plan

namespace Repair

theorem Halts.isSolution {net : Network V n} {token : Token} {s : Store V n} {left : Nat}
    {r t : RepairRun V n} {a : Assignment V} (h : Halts net token s left r (.ok (.solved a)) t) :
    net.IsSolution s a := by
  generalize hresult : (Except.ok (.solved a) : Except Error (Outcome V)) = result at h
  cases h with
  | told | spent | stalled => cases hresult
  | repaired =>
    -- what is handed back has passed the check
    rcases (net.verify_eq s (.ofVector r.values)).2 with hok | ⟨violation, hrefused⟩
    · rw [hok] at hresult
      cases hresult
      exact Network.verify_eq_ok_iff.mp hok
    · rw [hrefused] at hresult
      cases hresult

/-- An assignment that a repair returns is a solution, whatever its token says. -/
theorem isSolution_of_solve {repair : Repair} {net : Network V n} {token : Token} {s : Store V n}
    {a : Assignment V} {stats : Statistics}
    (answer : repair.solve net token s = .ok (.solved a, stats)) : net.IsSolution s a := by
  unfold solve at answer
  cases hstart : repair.start s with
  | error e =>
    rw [hstart] at answer
    cases answer
  | ok r =>
    -- of the ways in which a repair halts, one alone gives an assignment, and it has checked it
    obtain ⟨left, t, -, hhalts⟩ := halts_repairFor net token s repair.maxSteps r
    rw [hstart] at answer
    dsimp only at answer
    cases hresult : (repairFor net token s repair.maxSteps r).1 with
    | error e =>
      rw [hresult] at answer
      cases answer
    | ok outcome =>
      rw [hresult] at answer hhalts
      cases answer
      exact hhalts.isSolution

/-- A solvable problem with no choice left is solved by every repair, without a step. -/
theorem exists_solved_of_fixed (repair : Repair) {net : Network V n} {s : Store V n}
    {a : Assignment V} (fixed : ∀ v, (s.domain v).size = 1) (solution : net.IsSolution s a) :
    ∃ b stats, repair.solve net .never s = .ok (.solved b, stats) := by
  have live : s.Live := fun v => by
    obtain ⟨x, hx⟩ := Assignment.exists_value? ((solution.whole v).mpr v.isLt)
    exact ⟨x, solution.within v x hx⟩
  obtain ⟨r, hstart, hfirst⟩ := repair.exists_start live
  -- a conflict would be one between fixed variables, and there is a solution
  have hnone : conflicted net r.values = [] := by
    by_contra hsome
    have hpair := conflictingSingletons_of_fixed hfirst.within hsome fun c _ => fixed c.1
    rw [solution.no_conflict] at hpair
    cases hpair
  have haccepts := Network.verify_eq_ok_iff.mpr (isSolution_of_unconflicted hfirst.within hnone)
  have hresult (left : Nat) :
      (repairFor net .never s left r).1 = .ok (.solved (.ofVector r.values)) := by
    cases left with
    | zero | succ =>
      unfold repairFor
      simp only [hnone, haccepts, Token.never, List.isEmpty_nil, if_true, Bool.false_eq_true,
        if_false]
      rfl
  refine ⟨.ofVector r.values, (repairFor net .never s repair.maxSteps r).2.stats, ?_⟩
  simp only [solve, hstart, hresult]
  rfl

end Repair

end ConstraintNet
