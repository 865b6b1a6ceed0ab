import ConstraintNet.Proofs.Counts
import ConstraintNet.Proofs.LookAhead
import ConstraintNet.Proofs.Verdicts
import Mathlib.Combinatorics.SimpleGraph.Acyclic

/-!
An edge of a forest is a bridge, so the choices on its two sides can be made apart. Hence each value
of an arc-consistent family belongs to a choice of values that agree along every edge.
-/

namespace ConstraintNet

variable {V : Type} {n : Nat}

namespace Graph

def toSimpleGraph (g : Graph n) : SimpleGraph (Fin n) where
  Adj := g.Adj
  symm := ⟨fun _ _ => adj_comm.mp⟩
  loopless := ⟨fun _ => not_adj_self⟩

/-- The graph has no cycle. It need not be connected. -/
def IsForest (g : Graph n) : Prop := g.toSimpleGraph.IsAcyclic

end Graph

namespace Network

/-- One value of the family for each variable, such that the values agree along the edges of `G`. -/
structure Chooses (net : Network V n) (D : Fin n → Set V) (G : SimpleGraph (Fin n))
    (f : Fin n → V) : Prop where
  within : ∀ v, f v ∈ D v
  agrees : ∀ v w, G.Adj v w → net.consistent v (f v) w (f w) = true

/-- The choice of `g` on the side of `b`, and that of `f` elsewhere. -/
noncomputable def splice (G : SimpleGraph (Fin n)) (b : Fin n) (f g : Fin n → V) (v : Fin n) : V :=
  haveI := Classical.propDecidable (G.Reachable b v)
  if G.Reachable b v then g v else f v

theorem splice_near {G : SimpleGraph (Fin n)} {b v : Fin n} (f g : Fin n → V)
    (h : G.Reachable b v) : splice G b f g v = g v := if_pos h

theorem splice_far {G : SimpleGraph (Fin n)} {b v : Fin n} (f g : Fin n → V)
    (h : ¬ G.Reachable b v) : splice G b f g v = f v := if_neg h

/-- Choices on the two sides of a bridge make one choice if they agree along the bridge. -/
theorem chooses_splice {net : Network V n} {D : Fin n → Set V} {G : SimpleGraph (Fin n)}
    {a b : Fin n} {f g : Fin n → V} (bridge : G.IsBridge s(a, b))
    (hf : net.Chooses D (G.deleteEdges {s(a, b)}) f)
    (hg : net.Chooses D (G.deleteEdges {s(a, b)}) g)
    (across : net.consistent a (f a) b (g b) = true) :
    net.Chooses D G (splice (G.deleteEdges {s(a, b)}) b f g) := by
  have ha : ¬ (G.deleteEdges {s(a, b)}).Reachable b a := fun h => bridge h.symm
  have hb : (G.deleteEdges {s(a, b)}).Reachable b b := .refl b
  refine ⟨fun v => ?_, fun v w adj => ?_⟩
  · by_cases hv : (G.deleteEdges {s(a, b)}).Reachable b v
    · rw [splice_near f g hv]
      exact hg.within v
    · rw [splice_far f g hv]
      exact hf.within v
  · by_cases hedge : s(v, w) = s(a, b)
    · rcases Sym2.eq_iff.mp hedge with ⟨rfl, rfl⟩ | ⟨rfl, rfl⟩
      · rw [splice_far f g ha, splice_near f g hb]
        exact across
      · rw [splice_far f g ha, splice_near f g hb, consistent_comm]
        exact across
    -- the ends of any other edge lie on the same side
    · have hadj : (G.deleteEdges {s(a, b)}).Adj v w :=
        SimpleGraph.deleteEdges_adj.mpr ⟨adj, hedge⟩
      by_cases hv : (G.deleteEdges {s(a, b)}).Reachable b v
      · rw [splice_near f g hv, splice_near f g (hv.trans hadj.reachable)]
        exact hg.agrees v w hadj
      · rw [splice_far f g hv, splice_far f g fun hw => hv (hw.trans hadj.symm.reachable)]
        exact hf.agrees v w hadj

/-- Some edge of a graph that has one leads from the side of `v` to the other side. -/
theorem exists_bridge_from {G : SimpleGraph (Fin n)} (forest : G.IsAcyclic) (v : Fin n)
    (edge : ∃ a b, G.Adj a b) :
    ∃ a b, G.Adj a b ∧ ¬ (G.deleteEdges {s(a, b)}).Reachable b v := by
  obtain ⟨a, b, adj⟩ := edge
  by_cases hv : (G.deleteEdges {s(a, b)}).Reachable b v
  · refine ⟨b, a, adj.symm, fun h => ?_⟩
    rw [Sym2.eq_swap] at h
    exact SimpleGraph.isAcyclic_iff_forall_adj_isBridge.mp forest adj (h.trans hv.symm)
  · exact ⟨a, b, adj, hv⟩

/-- Every value of a family that is arc consistent along a forest belongs to a choice. -/
theorem exists_chooses {net : Network V n} {D : Fin n → Set V} (nonempty : ∀ v, (D v).Nonempty)
    {G : SimpleGraph (Fin n)} (forest : G.IsAcyclic)
    (supported : ∀ v w, G.Adj v w → ∀ x ∈ D v, ∃ y ∈ D w, net.consistent v x w y = true)
    {v : Fin n} {x : V} (hx : x ∈ D v) : ∃ f, net.Chooses D G f ∧ f v = x := by
  -- without its edge between `a` and `b`, the graph is smaller and still a forest
  induction G using WellFoundedLT.induction generalizing v x with
  | ind G ih =>
    by_cases edge : ∃ a b, G.Adj a b
    · obtain ⟨a, b, adj, hv⟩ := exists_bridge_from forest v edge
      have hbridge := SimpleGraph.isAcyclic_iff_forall_adj_isBridge.mp forest adj
      have hle := SimpleGraph.deleteEdges_le (G := G) {s(a, b)}
      have hlt : G.deleteEdges {s(a, b)} < G := by
        refine lt_of_le_of_ne hle fun e => ?_
        rw [← e] at adj
        exact (SimpleGraph.deleteEdges_adj.mp adj).2 rfl
      have hsupported : ∀ v w, (G.deleteEdges {s(a, b)}).Adj v w → ∀ x ∈ D v, ∃ y ∈ D w,
          net.consistent v x w y = true := fun v w h => supported v w (hle h)
      obtain ⟨f, hf, hfv⟩ := ih _ hlt (forest.anti hle) hsupported hx
      obtain ⟨y, hy, hay⟩ := supported a b adj (f a) (hf.within a)
      obtain ⟨g, hg, hgb⟩ := ih _ hlt (forest.anti hle) hsupported hy
      rw [← hgb] at hay
      exact ⟨_, chooses_splice hbridge hf hg hay, (splice_far f g hv).trans hfv⟩
    · refine ⟨Function.update (fun u => (nonempty u).some) v x, ⟨fun u => ?_, fun u w h => ?_⟩, ?_⟩
      · by_cases hu : u = v
        · subst hu
          rw [Function.update_self]
          exact hx
        · rw [Function.update_of_ne hu]
          exact (nonempty u).some_mem
      · exact absurd ⟨u, w, h⟩ edge
      · exact Function.update_self ..

variable [Value V]

/-- On a forest with consistent arcs, every value left belongs to a completion. -/
theorem Ahead.exists_completion {net : Network V n} {s : Store V n} (h : net.Ahead .mac s)
    (coherent : net.Coherent s) (forest : net.graph.IsForest) {v : Fin n} {x : V}
    (hx : x ∈ s.domain v) : ∃ a, net.Completes s a ∧ Assignment.value? a v = some x := by
  obtain ⟨f, hf, rfl⟩ := exists_chooses (D := s.sets) h.live forest h.arcConsistent hx
  let a : Assignment V := .ofVector (Vector.ofFn f)
  have hvalue (u : Fin n) : Assignment.value? a u = some (f u) := by
    rw [Assignment.value?_ofVector, Family.get_ofFn]
  refine ⟨a, ⟨⟨fun id => Assignment.mem_ofVector, fun u y hy => ?_, ?_⟩, fun id y hy => ?_⟩,
    hvalue v⟩
  · rw [hvalue] at hy
    cases hy
    exact hf.within u
  · apply compatible_of_consistent
    intro u w y z adj hy hz
    rw [hvalue] at hy hz
    cases hy
    cases hz
    exact hf.agrees u w adj
  -- an assigned variable has only its value left to choose
  · have hid : id < n := coherent.named id (Assignment.mem_iff_exists.mpr ⟨y, hy⟩)
    have hassigned : s.value? (⟨id, hid⟩ : Fin n) = some y := hy
    rw [← h.fixed ⟨id, hid⟩ y hassigned _ (hf.within ⟨id, hid⟩)]
    exact hvalue ⟨id, hid⟩

end Network

namespace Plan

variable [Value V]

omit [Value V] in
/-- A node, or values of which at least one is left. -/
def Task.IsOpen (task : Task V n) : Prop :=
  match task with
  | .node => True
  | .values _ _ left => left ≠ []

variable [DecidableEq V]

/-- On a forest with consistent arcs, no value that is left leads to a wipeout. -/
theorem consistent_of_tryValue {plan : Plan} {net : Network V n} {r t : Run V n} {v : Fin n}
    {length : Nat} {x : V} {left : List V} {propagation : Propagation n}
    (maintains : plan.inference = .mac) (forest : net.graph.IsForest)
    (sound : Sound net (.values v length (x :: left)) r) (ahead : net.Ahead plan.inference r.store)
    (entered : plan.tryValue net r v x = (t, propagation)) : propagation = .consistent := by
  rw [maintains] at ahead
  obtain ⟨a, hcompletes, hx⟩ :=
    ahead.exists_completion sound.coherent forest (sound.offered x List.mem_cons_self)
  exact (completes_tryValue hcompletes hx entered).1

/-- A search that keeps the arcs of a forest consistent never fails, as the first value that it
tries at a node leads to a node of the same kind; so it takes no value back. -/
theorem Explores.never_fails {plan : Plan} {net : Network V n} {token : Token} {task : Task V n}
    {r r' : Run V n} {verdict : Verdict} (h : Explores plan net token task r verdict r')
    (maintains : plan.inference = .mac) (forest : net.graph.IsForest) :
    task.IsOpen → Sound net task r → net.Ahead plan.inference r.store →
      verdict ≠ .ok false ∧ r'.stats.backtracks = r.stats.backtracks := by
  -- the first value that is tried settles the node: it is legal, and no domain is wiped out after
  -- it
  have looks : plan.inference.runsPerAssignment = true := by
    rw [maintains]
    rfl
  induction h with
  | cancelled | complete | emptied => exact fun _ _ _ => ⟨by simp, rfl⟩
  | @branch r r' v _ _ selected nonempty _ ih =>
    intro _ sound ahead
    obtain ⟨x, hx⟩ := SortedSet.isEmpty_eq_false_iff.mp nonempty
    refine ih (fun hnil => ?_) (sound.branch selected) ahead
    have hmem : x ∈ (plan.valueOrder.arrange net r.store v r.rng).1 := ValueOrder.mem_arrange.mpr hx
    rw [hnil] at hmem
    cases hmem
  | exhausted => exact fun isOpen => absurd rfl isOpen
  | illegal conflict =>
    intro _ sound ahead
    rw [ahead.legal _ sound.fits.1 _ (sound.offered _ List.mem_cons_self)] at conflict
    cases conflict
  | wiped _ entered =>
    intro _ sound ahead
    cases consistent_of_tryValue maintains forest sound ahead entered
  | failed legal entered _ _ ihBelow =>
    intro _ sound ahead
    have hx := sound.offered _ List.mem_cons_self
    have hbelow := ahead_tryValue looks ahead sound.fits.1 hx entered
    exact absurd rfl (ihBelow trivial (sound.enter legal entered) hbelow).1
  | settled legal entered _ _ ih =>
    intro _ sound ahead
    have hx := sound.offered _ List.mem_cons_self
    have hbelow := ahead_tryValue looks ahead sound.fits.1 hx entered
    obtain ⟨hverdict, hcount⟩ := ih trivial (sound.enter legal entered) hbelow
    exact ⟨hverdict, hcount.trans (congrArg Prod.snd (tree_tryValue entered))⟩

/-- A whole search that maintains the arcs of a forest counts no value taken back, and finds before
its first node that there is no solution, if it finds so at all. -/
theorem Ends.without_backtracks {plan : Plan} {net : Network V n} {token : Token} {s : Store V n}
    {outcome : Outcome V} {r' : Run V n} (h : Ends plan net token (plan.start s) (.ok outcome) r')
    (live : s.Live) (fresh : s.assignment = ∅) (maintains : plan.inference = .mac)
    (forest : net.graph.IsForest) :
    r'.stats.backtracks = 0 ∧ (outcome = .unsatisfiable → r'.stats.nodesVisited = 0) := by
  -- before the first node nothing is counted, and from there on the search does not fail
  have hbefore {t : Run V n} (htree : t.tree = (0, 0)) :
      t.stats.backtracks = 0 ∧ (outcome = .unsatisfiable → t.stats.nodesVisited = 0) :=
    ⟨congrArg Prod.snd htree, fun _ => congrArg Prod.fst htree⟩
  have hsearch {t : Run V n} {verdict : Verdict} (opens : Opens plan net (plan.start s) t)
      (search : Explores plan net token .node t verdict r') :
      verdict ≠ .ok false ∧ r'.stats.backtracks = 0 := by
    have looks : plan.inference.runsPerAssignment = true := by
      rw [maintains]
      rfl
    have hsound : Sound net .node t := opens.sound (net.wellPosed_of_fresh live fresh).start
    obtain ⟨hverdict, hcount⟩ :=
      search.never_fails maintains forest trivial hsound (opens.ahead looks live fresh)
    exact ⟨hverdict, hcount.trans (congrArg Prod.snd opens.tree)⟩
  cases h with
  | conflicting => exact hbefore rfl
  | emptied => exact hbefore (plan.tree_preprocess net (plan.start s))
  | contradicted _ forces =>
    exact hbefore (forces.tree.trans (plan.tree_preprocess net (plan.start s)))
  | exhausted opens search => exact absurd rfl (hsearch opens search).1
  | solved opens search =>
    refine ⟨(hsearch opens search).2, fun e => ?_⟩
    cases e

/-- On a forest, with nothing assigned, a search that maintains arc consistency takes no value back,
whatever the order of the variables, the order of the values and the seed. It ends with an outcome
unless it is cancelled; and if that is that there is no solution, it never branched. -/
theorem solve_forest_without_backtracks (plan : Plan) (net : Network V n) (s : Store V n)
    (live : s.Live) (fresh : s.assignment = ∅) (forest : net.graph.IsForest)
    (maintains : plan.inference = .mac) :
    (∃ outcome stats, (plan.solve net .never s).1 = .ok (outcome, stats)) ∧
      ∀ token outcome stats, (plan.solve net token s).1 = .ok (outcome, stats) →
        stats.backtracks = 0 ∧ (outcome = .unsatisfiable → stats.nodesVisited = 0) := by
  constructor
  · obtain ⟨outcome, stats, hsolve, -⟩ := plan.exists_verdict net live fresh
    exact ⟨outcome, stats, hsolve⟩
  · intro token outcome stats answer
    obtain ⟨r', hends, rfl⟩ := ends_of_solve_with answer
    exact hends.without_backtracks live fresh maintains forest

end Plan

/-- A graph has no cycle if no vertex has two lower neighbours: the greatest vertex of a cycle has
its two neighbours on the cycle below it. -/
theorem Graph.isForest_of_lower {g : Graph n}
    (lower : ∀ v u w, g.Adj v u → g.Adj v w → u < v → w < v → u = w) : g.IsForest := by
  intro v c hc
  obtain ⟨m, hm, hmax⟩ := c.support.toFinset.exists_max_image id ⟨v, by simp⟩
  rw [List.mem_toFinset] at hm
  have hcycle := hc.rotate hm
  have hbelow {u : Fin n} (adj : g.Adj m u) (hu : u ∈ (c.rotate m hm).support) : u < m := by
    rw [SimpleGraph.Walk.mem_support_rotate_iff] at hu
    refine lt_of_le_of_ne (hmax u (List.mem_toFinset.mpr hu)) ?_
    rintro rfl
    exact not_adj_self adj
  have hsnd : g.Adj m (c.rotate m hm).snd := SimpleGraph.Walk.adj_snd hcycle.not_nil
  have hlast : g.Adj m (c.rotate m hm).penultimate :=
    (SimpleGraph.Walk.adj_penultimate hcycle.not_nil).symm
  exact hcycle.snd_ne_penultimate (lower m _ _ hsnd hlast
    (hbelow hsnd (SimpleGraph.Walk.getVert_mem_support _ _))
    (hbelow hlast (SimpleGraph.Walk.getVert_mem_support _ _)))

theorem Graph.isForest_path (n : Nat) : (path n).IsForest := by
  apply isForest_of_lower
  intro v u w hu hw hlu hlw
  rw [path, adj_ofRelation] at hu hw
  simp only [Bool.or_eq_true, decide_eq_true_eq] at hu hw
  apply Fin.ext
  omega

/-- Four variables in a row, with the choice between two values for each. -/
def unfixed : Store UInt8 4 where
  domains := #v[.ofList [1, 2], .ofList [1, 2], .ofList [1, 2], .ofList [1, 2]]

theorem Plan.solve_forest_without_backtracks_unfixed :
    unfixed.Live ∧ unfixed.assignment = ∅ ∧ (Graph.path 4).IsForest ∧
      ∃ a stats, (Plan.solve ⟨.mrvDegree, .random, .mac, 7⟩ (.onPath 4) .never unfixed).1 =
        .ok (.solved a, stats) ∧ stats.nodesVisited = 5 ∧ stats.backtracks = 0 := by
  let plan : Plan := ⟨.mrvDegree, .random, .mac, 7⟩
  have live : unfixed.Live := by decide
  have hkind : ((plan.solve (.onPath 4) .never unfixed).1.map
      fun o => (o.1.kind, o.2.nodesVisited)) = .ok ("solved", 5) := by decide +kernel
  obtain ⟨⟨outcome, stats, hsolve⟩, hall⟩ :=
    plan.solve_forest_without_backtracks (.onPath 4) unfixed live rfl (Graph.isForest_path 4) rfl
  obtain ⟨hbacktracks, hnone⟩ := hall .never outcome stats hsolve
  rw [hsolve] at hkind
  obtain ⟨hname, hnodes⟩ : outcome.kind = "solved" ∧ stats.nodesVisited = 5 := by
    simpa [Except.map] using hkind
  cases outcome with
  | solved a => exact ⟨live, rfl, Graph.isForest_path 4, a, stats, hsolve, hnodes, hbacktracks⟩
  | unsatisfiable => exact absurd (hnone rfl) (by omega)
  | stepBudgetExhausted | timedOut => exact absurd hname (by decide)

end ConstraintNet
