import ConstraintNet.Proofs.Stages

namespace ConstraintNet

variable {V : Type} [Value V] {n : Nat}

/-- The nodes entered and the values taken back so far. -/
def Run.tree (r : Run V n) : Nat × Nat := (r.stats.nodesVisited, r.stats.backtracks)

namespace Plan

theorem tree_enter (r : Run V n) (v : Fin n) (x : V) : (enter r v x).tree = r.tree := rfl

theorem tree_record (r : Run V n) (s : Store V n) : (record r s).tree = r.tree := rfl

theorem tree_infer {plan : Plan} {net : Network V n} {r t : Run V n} {v : Fin n}
    {propagation : Propagation n} (inferred : plan.infer net r v = (t, propagation)) :
    t.tree = r.tree := by
  have htree : (plan.infer net r v).1.tree = r.tree := by
    unfold infer
    split
    · rfl
    · rfl
  rw [inferred] at htree
  exact htree

theorem tree_preprocess (plan : Plan) (net : Network V n) (r : Run V n) :
    (plan.preprocess net r).1.tree = r.tree := by
  unfold preprocess
  split
  · rfl
  · rfl

theorem Forces.tree {plan : Plan} {net : Network V n} {l : List (Fin n)} {r r' : Run V n}
    {ok : Bool} (h : Forces plan net l r ok r') : r'.tree = r.tree := by
  induction h with
  | done => rfl
  | passed _ _ ih => exact ih
  | illegal => rfl
  | wiped _ _ _ entered => exact (tree_infer entered).trans (tree_enter ..)
  | forced _ _ _ entered _ ih => exact ih.trans ((tree_infer entered).trans (tree_enter ..))

variable [DecidableEq V]

theorem tree_tryValue {plan : Plan} {net : Network V n} {r t : Run V n} {v : Fin n} {x : V}
    {propagation : Propagation n} (entered : plan.tryValue net r v x = (t, propagation)) :
    t.tree = r.tree := by
  have hinfer := tree_infer (infer_of_tryValue entered)
  exact hinfer.trans ((tree_record ..).trans (tree_enter r v x))

theorem nodes_tryValue {plan : Plan} {net : Network V n} {r t : Run V n} {v : Fin n} {x : V}
    {propagation : Propagation n} (entered : plan.tryValue net r v x = (t, propagation)) :
    t.stats.nodesVisited = r.stats.nodesVisited := congrArg Prod.fst (tree_tryValue entered)

/-- No node is taken back from the count. -/
theorem Explores.nodes_le {plan : Plan} {net : Network V n} {token : Token} {task : Task V n}
    {r r' : Run V n} {verdict : Verdict} (h : Explores plan net token task r verdict r') :
    r.stats.nodesVisited ≤ r'.stats.nodesVisited := by
  induction h with
  | cancelled => exact Nat.le_refl _
  | complete | emptied => exact Nat.le_succ _
  | branch _ _ _ _ ih => exact Nat.le_trans (Nat.le_succ _) ih
  | exhausted => exact Nat.le_refl _
  | illegal _ _ ih => exact ih
  | wiped _ entered _ ih =>
    rw [← nodes_tryValue entered]
    exact ih
  | failed _ entered _ _ ihBelow ih =>
    rw [← nodes_tryValue entered]
    exact Nat.le_trans ihBelow ih
  | settled _ entered _ _ ih =>
    rw [← nodes_tryValue entered]
    exact ih

/-- Where every variable has a value there is one node at most. -/
theorem Explores.nodes_le_succ {plan : Plan} {net : Network V n} {token : Token} {r r' : Run V n}
    {verdict : Verdict} (h : Explores plan net token .node r verdict r')
    (whole : r.store.unassigned = []) : r'.stats.nodesVisited ≤ r.stats.nodesVisited + 1 := by
  cases h with
  | cancelled => exact Nat.le_succ _
  | complete | emptied => exact Nat.le_refl _
  | branch _ selected =>
    rw [VariableOrder.select?_eq_none whole] at selected
    cases selected

omit [DecidableEq V] in
theorem Opens.tree {plan : Plan} {net : Network V n} {s : Store V n} {t : Run V n}
    (h : Opens plan net (plan.start s) t) : t.tree = (0, 0) :=
  h.forces.tree.trans (plan.tree_preprocess net (plan.start s))

/-- A whole search that ends with an outcome visits no node unless it comes to branching. -/
theorem Ends.searches {plan : Plan} {net : Network V n} {token : Token} {s : Store V n}
    {outcome : Outcome V} {r' : Run V n} (h : Ends plan net token (plan.start s) (.ok outcome) r') :
    r'.stats.nodesVisited = 0 ∨
      ∃ t b, Opens plan net (plan.start s) t ∧ Explores plan net token .node t (.ok b) r' := by
  have hpre := plan.tree_preprocess net (plan.start s)
  cases h with
  | conflicting => exact Or.inl rfl
  | emptied => exact Or.inl (congrArg Prod.fst hpre)
  | contradicted _ forces => exact Or.inl (congrArg Prod.fst (forces.tree.trans hpre))
  | exhausted opens search | solved opens search => exact Or.inr ⟨_, _, opens, search⟩

end Plan

end ConstraintNet
