import ConstraintNet.Proofs.Checks
import ConstraintNet.Proofs.Stages

namespace ConstraintNet

variable {V : Type} [Value V] {n : Nat}

namespace Network

/-- `a` is a solution within the domains of `s`, and keeps what `s` has assigned. -/
structure Completes (net : Network V n) (s : Store V n) (a : Assignment V) : Prop where
  solution : net.IsSolution s a
  grows : Assignment.Extends a s.assignment

theorem Completes.exists_value {net : Network V n} {s : Store V n} {a : Assignment V}
    (h : net.Completes s a) (v : Fin n) :
    ∃ x, Assignment.value? a v = some x ∧ x ∈ s.domain v := by
  obtain ⟨x, hx⟩ := Assignment.exists_value? ((h.solution.whole v).mpr v.isLt)
  exact ⟨x, hx, h.solution.within v x hx⟩

/-- A completion stays one when domains grow and variables lose their values. -/
theorem Completes.of_looser {net : Network V n} {s t : Store V n} {a : Assignment V}
    (h : net.Completes s a) (more : ∀ v x, x ∈ s.domain v → x ∈ t.domain v)
    (fewer : Assignment.Extends s.assignment t.assignment) : net.Completes t a where
  solution :=
    { whole := h.solution.whole
      within := fun v x hx => more v x (h.solution.within v x hx)
      compatible := h.solution.compatible }
  grows := h.grows.trans fewer

/-- What completes a store completes every store that led to it. -/
theorem Completes.of_advances {net : Network V n} {s t : Store V n} {a : Assignment V}
    (h : net.Completes t a) (advances : s.Advances t) : net.Completes s a :=
  h.of_looser (fun _ _ hx => advances.descends.mem hx) advances.grows

theorem completes_iff_of_fresh {net : Network V n} {s : Store V n} (fresh : s.assignment = ∅)
    {a : Assignment V} : net.Completes s a ↔ net.IsSolution s a := by
  refine ⟨fun h => h.solution, fun h => ⟨h, ?_⟩⟩
  rw [fresh]
  exact Assignment.extends_empty a

theorem Completes.live {net : Network V n} {s : Store V n} {a : Assignment V}
    (h : net.Completes s a) : s.Live := by
  intro v
  obtain ⟨x, -, hx⟩ := h.exists_value v
  exact ⟨x, hx⟩

theorem Completes.legal {net : Network V n} {s : Store V n} {a : Assignment V}
    (h : net.Completes s a) {v : Fin n} {x : V} (hx : Assignment.value? a v = some x) :
    net.isLegal s.value? v x = true :=
  isLegal_iff.mpr fun u y adj hy => h.solution.compatible.consistent adj hx (h.grows u y hy)

theorem Completes.assign {net : Network V n} {s : Store V n} {a : Assignment V}
    (h : net.Completes s a) {v : Fin n} {x : V} (hx : Assignment.value? a v = some x) :
    net.Completes (s.assign v x) a where
  solution := ⟨h.solution.whole, h.solution.within, h.solution.compatible⟩
  grows := h.grows.insert hx

theorem Completes.prune {net : Network V n} {s : Store V n} {a : Assignment V}
    (h : net.Completes s a) {v : Fin n} {keep : V → Bool}
    (spared : ∀ x, Assignment.value? a v = some x → keep x = true) :
    net.Completes (s.prune v keep) a where
  solution :=
    { whole := h.solution.whole
      within := by
        intro w x hx
        apply Store.mem_domain_prune.mpr
        exact ⟨h.solution.within w x hx, fun e => spared x (e ▸ hx)⟩
      compatible := h.solution.compatible }
  grows := h.grows

theorem Completes.narrow [DecidableEq V] {net : Network V n} {s : Store V n} {a : Assignment V}
    (h : net.Completes s a) {v : Fin n} {x : V} (hx : Assignment.value? a v = some x) :
    net.Completes (s.narrow v x) a := by
  apply h.prune
  intro y hy
  rw [hx] at hy
  cases hy
  exact decide_eq_true rfl

theorem Completes.deduces {net : Network V n} {s t : Store V n} {a : Assignment V}
    (step : net.Deduces s t) (h : net.Completes s a) : net.Completes t a := by
  cases step with
  | byValue adj given _ =>
    apply h.prune
    intro y hy
    exact h.solution.compatible.consistent (Graph.adj_comm.mp adj) hy (h.grows _ _ given)
  | @byArc arc adj =>
    apply h.prune
    intro x hx
    -- the completion's own value at the head supports its value at the tail
    obtain ⟨y, hy, hmem⟩ := h.exists_value arc.head
    exact List.any_eq_true.mpr ⟨y, hmem, h.solution.compatible.consistent adj hx hy⟩

theorem Completes.infers {net : Network V n} {s t : Store V n} {a : Assignment V}
    (h : net.Completes s a) (steps : net.Infers s t) : net.Completes t a :=
  steps.keeps (P := fun t => net.Completes t a) (fun _ _ => Completes.deduces) h

/-- Where there is a completion, no wipeout is reported. -/
theorem Completes.eq_consistent {net : Network V n} {s : Store V n} {a : Assignment V}
    (h : net.Completes s a) {propagation : Propagation n} (reports : Reports (s, propagation)) :
    propagation = .consistent := by
  cases propagation with
  | consistent => rfl
  | wipeout v =>
    obtain ⟨x, hx⟩ := h.live v
    exact absurd hx (reports x)

/-- A variable that has one value left has this value in every completion. -/
theorem Completes.value_of_only {net : Network V n} {s : Store V n} {a : Assignment V}
    (h : net.Completes s a) {v : Fin n} {x : V} (only : (s.domain v).only? = some x) :
    Assignment.value? a v = some x := by
  obtain ⟨y, hy, hmem⟩ := h.exists_value v
  rw [hy, (SortedSet.mem_iff_of_only? only).mp hmem]

theorem Completes.no_conflict {net : Network V n} {s : Store V n} {a : Assignment V}
    (h : net.Completes s a) : net.conflictingSingletons s = none := by
  apply conflictingSingletons_eq_none_iff.mpr
  rintro v w ⟨adj, x, y, hx, hy, hbroken⟩
  rw [h.solution.compatible.consistent adj (h.value_of_only hx) (h.value_of_only hy)] at hbroken
  cases hbroken

/-- No two fixed variables rule each other out in a problem that has a solution. -/
theorem IsSolution.no_conflict {net : Network V n} {s : Store V n} {a : Assignment V}
    (h : net.IsSolution s a) : net.conflictingSingletons s = none := by
  -- what is assigned plays no part in it, so it may as well be nothing
  have hcompletes : net.Completes { s with assignment := ∅ } a :=
    (completes_iff_of_fresh rfl).mpr ⟨h.whole, h.within, h.compatible⟩
  exact hcompletes.no_conflict

end Network

variable [DecidableEq V]

namespace Plan

open Network (Completes)

omit [DecidableEq V] in
/-- Inference reports no wipeout where there is a completion, and keeps the completion. -/
theorem completes_infer {plan : Plan} {net : Network V n} {r t : Run V n} {v : Fin n}
    {propagation : Propagation n} {a : Assignment V} (h : net.Completes r.store a)
    (inferred : plan.infer net r v = (t, propagation)) :
    propagation = .consistent ∧ net.Completes t.store a := by
  have hcompletes := h.infers (infers_infer inferred)
  exact ⟨hcompletes.eq_consistent (reports_infer inferred h.live), hcompletes⟩

/-- The value that a completion has for `v` can be tried without a wipeout, and the completion is
one of the store that comes of it. -/
theorem completes_tryValue {plan : Plan} {net : Network V n} {r t : Run V n} {v : Fin n} {x : V}
    {propagation : Propagation n} {a : Assignment V} (h : net.Completes r.store a)
    (hx : Assignment.value? a v = some x) (entered : plan.tryValue net r v x = (t, propagation)) :
    propagation = .consistent ∧ net.Completes t.store a := by
  have hnarrow : net.Completes ((r.store.assign v x).narrow v x) a := (h.assign hx).narrow hx
  exact completes_infer hnarrow (infer_of_tryValue entered)

omit [Value V] [DecidableEq V] in
/-- The value that `a` has for the variable of the task is still to be tried. -/
def Task.Includes (task : Task V n) (a : Assignment V) : Prop :=
  match task with
  | .node => True
  | .values v _ left => ∃ x ∈ left, Assignment.value? a v = some x

omit [Value V] [DecidableEq V] in
theorem Task.includes_of_ne {v : Fin n} {length : Nat} {x : V} {left : List V} {a : Assignment V}
    (h : (Task.values v length (x :: left)).Includes a) (ne : Assignment.value? a v ≠ some x) :
    (Task.values v length left).Includes a := by
  obtain ⟨y, hy, ha⟩ := h
  rcases List.mem_cons.mp hy with rfl | hy
  · exact absurd ha ne
  · exact ⟨y, hy, ha⟩

/-- A part of the search that fails had no completion before it. -/
theorem Explores.exhaustive {plan : Plan} {net : Network V n} {token : Token} {task : Task V n}
    {r r' : Run V n} {verdict : Verdict} (h : Explores plan net token task r verdict r')
    {a : Assignment V} :
    task.Fits r → verdict = .ok false → task.Includes a → ¬ net.Completes r.store a := by
  induction h with
  | cancelled | complete | emptied => intro _ failed; cases failed
  | @branch r r' v _ _ selected _ _ ih =>
    intro _ failed _ hcompletes
    obtain ⟨x, hx, hmem⟩ := hcompletes.exists_value v
    refine ih ⟨VariableOrder.free_of_select? selected, rfl⟩ failed ⟨x, ?_, hx⟩ hcompletes
    exact ValueOrder.mem_arrange.mpr hmem
  | exhausted =>
    rintro _ _ ⟨x, hx, -⟩
    cases hx
  | @illegal r r' v _ x _ _ conflict _ ih =>
    intro fits failed includes hcompletes
    refine ih fits failed (Task.includes_of_ne includes ?_) hcompletes
    intro hx
    rw [hcompletes.legal hx] at conflict
    cases conflict
  | @wiped r t r' v w _ x _ _ _ entered _ ih =>
    intro fits failed includes hcompletes
    have hback := store_retract_tryValue fits entered rfl
    rw [hback] at ih
    refine ih (fits.of_store_eq hback) failed (Task.includes_of_ne includes ?_) hcompletes
    -- the value of a completion cannot have led to a wipeout
    intro hx
    cases (completes_tryValue hcompletes hx entered).1
  | @failed r t t' r' v _ x _ _ _ entered below _ ihBelow ih =>
    intro fits failed includes hcompletes
    have hback := store_retract_tryValue fits entered ((below.framed trivial).unchanged rfl)
    rw [hback] at ih
    refine ih (fits.of_store_eq hback) failed (Task.includes_of_ne includes ?_) hcompletes
    -- nor can the node below it have failed
    intro hx
    exact ihBelow trivial rfl trivial (completes_tryValue hcompletes hx entered).2
  | settled _ _ _ ends => exact fun _ failed => absurd failed ends

omit [DecidableEq V] in
theorem Forces.keeps_completion {plan : Plan} {net : Network V n} {l : List (Fin n)}
    {r r' : Run V n} {ok : Bool} (h : Forces plan net l r ok r') {a : Assignment V} :
    net.Completes r.store a → ok = true ∧ net.Completes r'.store a := by
  induction h with
  | done => exact fun hcompletes => ⟨rfl, hcompletes⟩
  | passed _ _ ih => exact ih
  | illegal _ only conflict =>
    intro hcompletes
    rw [hcompletes.legal (hcompletes.value_of_only only)] at conflict
    cases conflict
  | wiped _ only _ entered =>
    intro hcompletes
    cases (completes_infer (hcompletes.assign (hcompletes.value_of_only only)) entered).1
  | forced _ only _ entered _ ih =>
    intro hcompletes
    exact ih (completes_infer (hcompletes.assign (hcompletes.value_of_only only)) entered).2

omit [DecidableEq V] in
theorem Opens.keeps_completion {plan : Plan} {net : Network V n} {r t : Run V n}
    (h : Opens plan net r t) {a : Assignment V} (hcompletes : net.Completes r.store a) :
    net.Completes t.store a :=
  (h.forces.keeps_completion (hcompletes.infers (plan.infers_preprocess net r))).2

/-- A whole search that ends without an answer had no completion before it. -/
theorem Ends.exhaustive {plan : Plan} {net : Network V n} {token : Token} {r r' : Run V n}
    (h : Ends plan net token r (.ok .unsatisfiable) r') (a : Assignment V) :
    ¬ net.Completes r.store a := by
  intro hcompletes
  have hpre := hcompletes.infers (plan.infers_preprocess net r)
  cases h with
  | conflicting conflict =>
    rw [hcompletes.no_conflict] at conflict
    cases conflict
  | emptied wipeout =>
    have hconsistent := hpre.eq_consistent (plan.reports_preprocess net hcompletes.live)
    rw [wipeout] at hconsistent
    cases hconsistent
  | contradicted _ forces => cases (forces.keeps_completion hpre).1
  | exhausted opens search =>
    exact search.exhaustive trivial rfl trivial (opens.keeps_completion hcompletes)

theorem Ends.completes {plan : Plan} {net : Network V n} {token : Token} {r r' : Run V n}
    {a : Assignment V} (h : Ends plan net token r (.ok (.solved a)) r') :
    net.Completes r.store a := by
  have hadvances := h.advances
  cases h with
  | solved opens search accepts =>
    have hlast : net.Completes r'.store r'.store.assignment :=
      ⟨Network.verify_eq_ok_iff.mp accepts, Assignment.extends_refl _⟩
    exact hlast.of_advances hadvances

/-- The only outcomes of a search are an answer and the refusal of all answers. -/
theorem Ends.answers {plan : Plan} {net : Network V n} {token : Token} {r r' : Run V n}
    {outcome : Outcome V} (h : Ends plan net token r (.ok outcome) r') :
    outcome = .unsatisfiable ∨ ∃ a, outcome = .solved a := by
  cases h with
  | conflicting | emptied | contradicted | exhausted => exact Or.inl rfl
  | solved => exact Or.inr ⟨_, rfl⟩

/-- An outcome comes from a whole search, with the statistics of the run in which it ends. -/
theorem ends_of_solve_with {plan : Plan} {net : Network V n} {token : Token} {s : Store V n}
    {outcome : Outcome V} {stats : Statistics}
    (answer : (plan.solve net token s).1 = .ok (outcome, stats)) :
    ∃ r', Ends plan net token (plan.start s) (.ok outcome) r' ∧ r'.stats = stats := by
  have hends := plan.ends_run net token (plan.start s)
  cases hrun : plan.run net token (plan.start s) with
  | mk result r' =>
    simp only [solve, hrun] at answer
    rw [hrun] at hends
    cases result with
    | error e => cases answer
    | ok outcome' =>
      cases answer
      exact ⟨r', hends, rfl⟩

theorem ends_of_solve {plan : Plan} {net : Network V n} {token : Token} {s : Store V n}
    {outcome : Outcome V} {stats : Statistics}
    (answer : (plan.solve net token s).1 = .ok (outcome, stats)) :
    ∃ r', Ends plan net token (plan.start s) (.ok outcome) r' :=
  (ends_of_solve_with answer).imp fun _ h => h.1

omit [DecidableEq V] in
theorem completes_start {plan : Plan} {net : Network V n} {s : Store V n} {a : Assignment V} :
    net.Completes (plan.start s).store a ↔ net.Completes s a :=
  ⟨fun h => h.of_looser (fun _ _ hx => hx) (Assignment.extends_refl _),
    fun h => h.of_looser (fun _ _ hx => hx) (Assignment.extends_refl _)⟩

/-- A search answers that there is no solution exactly if no solution within the domains keeps
what was assigned, and every answer is such a solution. This holds for every plan, every token,
and every store, also one whose assignment breaks a constraint. -/
theorem solve_verdict_exact {plan : Plan} {net : Network V n} {token : Token} {s : Store V n}
    {outcome : Outcome V} {stats : Statistics}
    (answer : (plan.solve net token s).1 = .ok (outcome, stats)) :
    (outcome = .unsatisfiable ↔ ∀ a, ¬ net.Completes s a) ∧
      ∀ a, outcome = .solved a → net.Completes s a := by
  obtain ⟨r', hends⟩ := ends_of_solve answer
  have hsolved (a : Assignment V) (e : outcome = .solved a) : net.Completes s a := by
    subst e
    exact completes_start.mp hends.completes
  refine ⟨⟨?_, ?_⟩, hsolved⟩
  · rintro rfl a hcompletes
    exact hends.exhaustive a (completes_start.mpr hcompletes)
  · intro none
    rcases hends.answers with e | ⟨a, e⟩
    · exact e
    · exact absurd (hsolved a e) (none a)

end Plan

/-- Three variables in a row, of which the outer two leave no value for the middle one. -/
def squeezed : Store UInt8 3 := { domains := #v[.singleton 1, .ofList [1, 2], .singleton 2] }

theorem Plan.solve_verdict_exact_squeezed :
    (Plan.solve ⟨.static, .unordered, .none, 0⟩ (.onPath 3) .never squeezed).1 =
        .ok (.unsatisfiable, { nodesVisited := 1, assignments := 2 }) ∧
      ∀ a, ¬ (Network.onPath 3).Completes squeezed a := by
  have answer : (Plan.solve ⟨.static, .unordered, .none, 0⟩ (.onPath 3) .never squeezed).1 =
      .ok (.unsatisfiable, { nodesVisited := 1, assignments := 2 }) := by rfl
  exact ⟨answer, (Plan.solve_verdict_exact answer).1.mp rfl⟩

end ConstraintNet
