import ConstraintNet.Proofs.Counts
import ConstraintNet.Proofs.Verdicts

/-!
Two quantities stay the same throughout a search: the values assigned, less those taken back, with
the variables that are still open; and the inferences due, less those made.
-/

namespace ConstraintNet

variable {V : Type} [Value V] {n : Nat}

namespace Store

theorem length_unassigned_assign {s : Store V n} {v : Fin n} (free : s.value? v = none) (x : V) :
    (s.assign v x).unassigned.length + 1 = s.unassigned.length := by
  rw [unassigned_assign]
  exact List.length_erase_add_one (mem_unassigned.mpr free)

/-- The variables that have a value in `t` and none in `s`. -/
def gained (s t : Store V n) : List (Fin n) := s.unassigned.filter fun v => t.isAssigned v

theorem length_gained {s t : Store V n} (grows : Assignment.Extends t.assignment s.assignment) :
    (s.gained t).length + t.unassigned.length = s.unassigned.length := by
  -- what is open in `t` was open in `s`
  have hopen : t.unassigned = s.unassigned.filter fun v => !t.isAssigned v := by
    rw [unassigned, unassigned, List.filter_filter]
    apply List.filter_congr
    intro v _
    cases hv : s.isAssigned v with
    | false => simp
    | true =>
      rw [isAssigned_eq, Option.isSome_iff_exists] at hv
      obtain ⟨x, hx⟩ := hv
      have hkept : t.value? v = some x := grows v.val x hx
      simp [isAssigned_eq, hkept]
  rw [hopen, gained]
  exact (List.length_eq_length_filter_add _).symm

/-- If only variables have values, the variables are those with a value and those without. -/
theorem size_assignment {s : Store V n} (named : ∀ id ∈ s.assignment, id < n) :
    s.assignment.size + s.unassigned.length = n := by
  let assigned := (List.finRange n).filter fun v => s.isAssigned v
  -- the keys of the assignment and the assigned variables are the same numbers, each once
  have hperm : s.assignment.keys.Perm (assigned.map Fin.val) := by
    have hnodup : (assigned.map Fin.val).Nodup :=
      ((List.nodup_finRange n).filter _).map Fin.val_injective
    apply (List.perm_ext_iff_of_nodup s.assignment.nodup_keys hnodup).mpr
    intro id
    rw [Std.ExtTreeMap.mem_keys, List.mem_map]
    constructor
    · intro hid
      have hassigned : s.isAssigned ⟨id, named id hid⟩ = true := hid
      exact ⟨⟨id, named id hid⟩, List.mem_filter.mpr ⟨List.mem_finRange _, hassigned⟩, rfl⟩
    · intro h
      obtain ⟨v, hv, rfl⟩ := h
      exact (List.mem_filter.mp hv).2
  have hsplit := List.length_eq_length_filter_add (l := List.finRange n) fun v => s.isAssigned v
  have hsize : s.assignment.size = assigned.length := by
    rw [← Std.ExtTreeMap.length_keys, hperm.length_eq, List.length_map]
  rw [List.length_finRange] at hsplit
  rw [hsize, unassigned]
  exact hsplit.symm

end Store

/-- The values assigned, less those taken back, and the variables that are still open. -/
def Run.level (r : Run V n) : Int :=
  r.stats.assignments - r.stats.backtracks + r.store.unassigned.length

/-- The inferences due after the assignments made, less those made. -/
def Run.due (plan : Plan) (r : Run V n) : Int :=
  (if plan.inference.runsPerAssignment then r.stats.assignments else 0) - r.stats.inferenceCalls

namespace Plan

/-- From `r` to `t` every value assigned was taken back or is held, and every inference that was
due was made. -/
structure Balances (plan : Plan) (r t : Run V n) : Prop where
  level : t.level = r.level
  due : t.due plan = r.due plan

theorem balances_refl (plan : Plan) (r : Run V n) : plan.Balances r r := ⟨rfl, rfl⟩

theorem Balances.trans {plan : Plan} {r t u : Run V n} (hrt : plan.Balances r t)
    (htu : plan.Balances t u) : plan.Balances r u :=
  ⟨htu.level.trans hrt.level, htu.due.trans hrt.due⟩

/-- An inference makes no assignment. It is counted if the plan has inferences after them. -/
theorem counts_infer {plan : Plan} {net : Network V n} {r t : Run V n} {v : Fin n}
    {propagation : Propagation n} (inferred : plan.infer net r v = (t, propagation)) :
    t.stats.assignments = r.stats.assignments ∧
      t.stats.inferenceCalls =
        r.stats.inferenceCalls + if plan.inference.runsPerAssignment then 1 else 0 := by
  unfold infer at inferred
  cases hafter : plan.inference.runsPerAssignment with
  | false | true =>
    rw [hafter] at inferred
    cases inferred
    exact ⟨rfl, rfl⟩

/-- An assignment together with the inference that follows it. -/
theorem balances_infer {plan : Plan} {net : Network V n} {r u t : Run V n} {v : Fin n} {x : V}
    {propagation : Propagation n} (free : r.store.value? v = none)
    (inferred : plan.infer net u v = (t, propagation))
    (assigned : u.store.assignment = (r.store.assign v x).assignment)
    (counted : u.stats.assignments = r.stats.assignments + 1)
    (untouched : u.stats.inferenceCalls = r.stats.inferenceCalls) (same : u.tree = r.tree) :
    plan.Balances r t := by
  obtain ⟨hassignments, hcalls⟩ := counts_infer inferred
  have hbacktracks : t.stats.backtracks = r.stats.backtracks :=
    congrArg Prod.snd ((tree_infer inferred).trans same)
  -- inference changes no assignment, so exactly one variable was closed
  have hopen : t.store.unassigned.length + 1 = r.store.unassigned.length := by
    have hassignment := (infers_infer inferred).assignment_eq.trans assigned
    rw [Store.unassigned_congr hassignment]
    exact Store.length_unassigned_assign free x
  constructor
  · unfold Run.level
    omega
  · unfold Run.due
    cases hafter : plan.inference.runsPerAssignment with
    | false =>
      simp only [hafter, Bool.false_eq_true, if_false] at hcalls ⊢
      omega
    | true =>
      simp only [hafter, if_true] at hcalls ⊢
      omega

theorem Forces.balances {plan : Plan} {net : Network V n} {l : List (Fin n)} {r r' : Run V n}
    {ok : Bool} (h : Forces plan net l r ok r') : plan.Balances r r' := by
  induction h with
  | done => exact plan.balances_refl _
  | passed _ _ ih => exact ih
  | illegal => exact plan.balances_refl _
  | wiped free _ _ entered => exact balances_infer free entered rfl rfl rfl rfl
  | forced free _ _ entered _ ih => exact (balances_infer free entered rfl rfl rfl rfl).trans ih

variable [DecidableEq V]

theorem balances_tryValue {plan : Plan} {net : Network V n} {r t : Run V n} {v : Fin n} {x : V}
    {propagation : Propagation n} (free : r.store.value? v = none)
    (entered : plan.tryValue net r v x = (t, propagation)) : plan.Balances r t :=
  balances_infer free (infer_of_tryValue entered) rfl rfl rfl rfl

/-- A value that is taken back leaves its variable open again. -/
theorem balances_retract {plan : Plan} {net : Network V n} {r t t' : Run V n} {v : Fin n}
    {length : Nat} {x : V} {left : List V} {propagation : Propagation n}
    (fits : (Task.values v length left).Fits r)
    (entered : plan.tryValue net r v x = (t, propagation)) (same : t'.store = t.store) :
    plan.Balances t' (retract t' v length) := by
  have hback := store_retract_tryValue fits entered same
  have hopen : t'.store.unassigned.length + 1 = r.store.unassigned.length := by
    have hassigned : t.store.assignment = (r.store.assign v x).assignment :=
      assignment_tryValue entered
    rw [same, Store.unassigned_congr hassigned]
    exact Store.length_unassigned_assign fits.1 x
  have hbacktracks : (retract t' v length).stats.backtracks = t'.stats.backtracks + 1 := rfl
  have hassignments : (retract t' v length).stats.assignments = t'.stats.assignments := rfl
  refine ⟨?_, rfl⟩
  unfold Run.level
  rw [hback]
  omega

/-- A search balances, wherever it begins and however it ends. -/
theorem Explores.balances {plan : Plan} {net : Network V n} {token : Token} {task : Task V n}
    {r r' : Run V n} {verdict : Verdict} (h : Explores plan net token task r verdict r') :
    task.Fits r → plan.Balances r r' := by
  -- what a failed value has changed is made up for when it is taken back, in the store it was
  -- tried from
  induction h with
  | cancelled | complete | emptied => exact fun _ => ⟨rfl, rfl⟩
  | branch _ selected _ _ ih =>
    intro _
    have htried := ih ⟨VariableOrder.free_of_select? selected, rfl⟩
    exact ⟨htried.level, htried.due⟩
  | exhausted => exact fun _ => plan.balances_refl _
  | illegal _ _ ih => exact ih
  | wiped _ entered _ ih =>
    intro fits
    have hback := store_retract_tryValue fits entered rfl
    have htaken := balances_retract fits entered rfl
    exact ((balances_tryValue fits.1 entered).trans htaken).trans (ih (fits.of_store_eq hback))
  | failed _ entered below _ ihBelow ih =>
    intro fits
    have hsame := (below.framed trivial).unchanged rfl
    have hback := store_retract_tryValue fits entered hsame
    have hbelow := (balances_tryValue fits.1 entered).trans (ihBelow trivial)
    have htaken := balances_retract fits entered hsame
    exact (hbelow.trans htaken).trans (ih (fits.of_store_eq hback))
  | settled _ entered _ _ ih =>
    intro fits
    exact (balances_tryValue fits.1 entered).trans (ih trivial)

omit [DecidableEq V] in
/-- A node counts itself; the values left at one count only the nodes below them. -/
def Task.entries : Task V n → Nat
  | .node => 1
  | .values .. => 0

theorem assignments_tryValue {plan : Plan} {net : Network V n} {r t : Run V n} {v : Fin n} {x : V}
    {propagation : Propagation n} (entered : plan.tryValue net r v x = (t, propagation)) :
    t.stats.assignments = r.stats.assignments + 1 :=
  (counts_infer (infer_of_tryValue entered)).1

/-- Every node but the first is entered with an assignment. -/
theorem Explores.nodes_le_assignments {plan : Plan} {net : Network V n} {token : Token}
    {task : Task V n} {r r' : Run V n} {verdict : Verdict}
    (h : Explores plan net token task r verdict r') :
    r'.stats.nodesVisited + r.stats.assignments ≤
      r.stats.nodesVisited + r'.stats.assignments + task.entries := by
  -- by the rules of the search: a node below a value counts itself, but the value that leads to it
  -- is one more assignment
  induction h with
  | cancelled => exact Nat.le_add_right ..
  | complete | emptied =>
    simp only [visit, Task.entries]
    omega
  | branch _ _ _ _ ih =>
    simp only [visit, Task.entries] at ih ⊢
    omega
  | exhausted => exact Nat.le_refl _
  | illegal _ _ ih => exact ih
  | wiped _ entered _ ih =>
    have hnodes := nodes_tryValue entered
    have hassignments := assignments_tryValue entered
    simp only [retract, Task.entries] at ih ⊢
    omega
  | failed _ entered _ _ ihBelow ih =>
    have hnodes := nodes_tryValue entered
    have hassignments := assignments_tryValue entered
    simp only [retract, Task.entries] at ihBelow ih ⊢
    omega
  | settled _ entered _ _ ih =>
    have hnodes := nodes_tryValue entered
    have hassignments := assignments_tryValue entered
    simp only [Task.entries] at ih ⊢
    omega

/-- Where nothing is inferred after an assignment, every value that is taken back has had a node
below it. -/
theorem Explores.nodes_eq_backtracks {plan : Plan} {net : Network V n} {token : Token}
    {task : Task V n} {r r' : Run V n} {verdict : Verdict}
    (h : Explores plan net token task r verdict r')
    (bare : plan.inference.runsPerAssignment = false) :
    verdict = .ok false →
      r'.stats.nodesVisited + r.stats.backtracks =
        r.stats.nodesVisited + r'.stats.backtracks + task.entries := by
  induction h with
  | cancelled | complete | emptied => exact fun e => (by cases e)
  | branch _ _ _ _ ih =>
    intro e
    have htried := ih e
    simp only [visit, Task.entries] at htried ⊢
    omega
  | exhausted => exact fun _ => rfl
  | illegal _ _ ih => exact ih
  -- without inference no value is wiped out before its node is entered
  | wiped _ entered =>
    have hinfer := infer_of_tryValue entered
    unfold infer at hinfer
    rw [if_neg (Bool.eq_false_iff.mp bare)] at hinfer
    cases hinfer
  | failed _ entered _ _ ihBelow ih =>
    intro e
    have hbelow := ihBelow rfl
    have hleft := ih e
    have hnodes := nodes_tryValue entered
    have hbacktracks := congrArg Prod.snd (tree_tryValue entered)
    simp only [Run.tree] at hbacktracks
    simp only [retract, Task.entries] at hbelow hleft ⊢
    omega
  | settled _ _ _ ends => exact fun e => absurd e ends

omit [DecidableEq V] in
theorem counts_preprocess (plan : Plan) (net : Network V n) (r : Run V n) :
    (plan.preprocess net r).1.stats.assignments = r.stats.assignments ∧
      (plan.preprocess net r).1.stats.inferenceCalls =
        r.stats.inferenceCalls + if plan.inference.preprocesses then 1 else 0 := by
  unfold preprocess
  cases plan.inference.preprocesses with
  | false | true => exact ⟨rfl, rfl⟩

/-- A search that goes on after its first check balances from the pruned store to its end. -/
theorem Ends.balances {plan : Plan} {net : Network V n} {token : Token} {r r' : Run V n}
    {result : Except Error (Outcome V)} (h : Ends plan net token r result r')
    (agreeing : net.conflictingSingletons r.store = none) :
    plan.Balances (plan.preprocess net r).1 r' := by
  cases h with
  | conflicting conflict =>
    rw [agreeing] at conflict
    cases conflict
  | emptied => exact plan.balances_refl _
  | contradicted _ forces => exact forces.balances
  | stopped opens search | exhausted opens search | rejected opens search | solved opens search =>
    exact opens.forces.balances.trans (search.balances trivial)

omit [DecidableEq V] in
theorem Forces.eq_assignForcedFrom {plan : Plan} {net : Network V n} {l : List (Fin n)}
    {r r' : Run V n} {ok : Bool} (h : Forces plan net l r ok r') :
    plan.assignForcedFrom net l r = (ok, r') := by
  have isFree {s : Store V n} {v : Fin n} (free : s.value? v = none) : s.isAssigned v = false := by
    rw [Store.isAssigned_eq, free]
    rfl
  induction h with
  | done => rfl
  | passed unforced _ ih =>
    -- a variable is passed over because it has a value or because several are left to it
    rcases unforced with hassigned | hopen
    · rw [assignForcedFrom, if_pos hassigned]
      exact ih
    · rw [assignForcedFrom, hopen, ite_self]
      exact ih
  | illegal free only conflict =>
    simp only [assignForcedFrom, isFree free, only, conflict, Bool.false_eq_true, if_false]
  | wiped free only legal entered =>
    simp only [assignForcedFrom, isFree free, only, legal, entered, Bool.false_eq_true, if_false,
      if_true]
  | forced free only legal entered _ ih =>
    simp only [assignForcedFrom, isFree free, only, legal, entered, Bool.false_eq_true, if_false,
      if_true]
    exact ih

omit [DecidableEq V] in
theorem Opens.unique {plan : Plan} {net : Network V n} {r t u : Run V n}
    (ht : Opens plan net r t) (hu : Opens plan net r u) : t = u := by
  have hsame := ht.forces.eq_assignForcedFrom.symm.trans hu.forces.eq_assignForcedFrom
  exact congrArg Prod.snd hsame

/-- If branching begins, a search that finds no solution has exhausted the tree from there. -/
theorem Ends.explores {plan : Plan} {net : Network V n} {token : Token} {r t r' : Run V n}
    (h : Ends plan net token r (.ok .unsatisfiable) r') (opens : Opens plan net r t) :
    Explores plan net token .node t (.ok false) r' := by
  cases h with
  | conflicting conflict =>
    rw [opens.agreeing] at conflict
    cases conflict
  | emptied wipeout =>
    rw [opens.consistent] at wipeout
    cases wipeout
  | contradicted _ forces =>
    have hsame := forces.eq_assignForcedFrom.symm.trans opens.forces.eq_assignForcedFrom
    cases congrArg Prod.fst hsame
  | exhausted opens' search =>
    rw [opens.unique opens']
    exact search

/-- The statistics of a search from `s` that ends with the outcome account for what it did: for the
values that it holds, for the tree that it went through, and for the inferences that it made. -/
structure Accounts (plan : Plan) (net : Network V n) (s : Store V n) (outcome : Outcome V)
    (stats : Statistics) : Prop where
  solved : ∀ a, outcome = .solved a →
    stats.assignments + s.assignment.size = stats.backtracks + n
  unopened : outcome = .unsatisfiable → (∀ t, ¬ Opens plan net (plan.start s) t) →
    stats.nodesVisited = 0 ∧ stats.backtracks = 0
  exhausted : outcome = .unsatisfiable → ∀ t, Opens plan net (plan.start s) t →
    stats.assignments = stats.backtracks + t.stats.assignments ∧
      t.stats.assignments = (s.gained t.store).length
  bare : outcome = .unsatisfiable → ∀ t, Opens plan net (plan.start s) t →
    plan.inference = .none ∨ plan.inference = .ac3Pre →
      stats.nodesVisited = stats.backtracks + 1
  inferred : net.conflictingSingletons s = none →
    stats.inferenceCalls =
      (if plan.inference.preprocesses then 1 else 0) +
        if plan.inference.runsPerAssignment then stats.assignments else 0
  visited : net.conflictingSingletons s = none → stats.nodesVisited ≤ stats.assignments + 1

omit [DecidableEq V] in
theorem level_preprocess (plan : Plan) (net : Network V n) (s : Store V n) :
    (plan.preprocess net (plan.start s)).1.level = s.unassigned.length := by
  have hassignments : (plan.preprocess net (plan.start s)).1.stats.assignments = 0 :=
    (plan.counts_preprocess net (plan.start s)).1
  have hbacktracks : (plan.preprocess net (plan.start s)).1.stats.backtracks = 0 :=
    congrArg Prod.snd (plan.tree_preprocess net (plan.start s))
  have hopen : (plan.preprocess net (plan.start s)).1.store.unassigned = s.unassigned :=
    Store.unassigned_congr (plan.infers_preprocess net (plan.start s)).assignment_eq
  rw [Run.level, hassignments, hbacktracks, hopen]
  omega

omit [DecidableEq V] in
/-- Where branching begins, nothing has been taken back. -/
theorem Opens.level_eq {plan : Plan} {net : Network V n} {s : Store V n} {t : Run V n}
    (opens : Opens plan net (plan.start s) t) :
    t.stats.assignments + t.store.unassigned.length = s.unassigned.length := by
  have hlevel := opens.forces.balances.level.trans (plan.level_preprocess net s)
  have hbacktracks : t.stats.backtracks = 0 := congrArg Prod.snd opens.tree
  rw [Run.level] at hlevel
  omega

/-- A search that goes on after its first check has assigned and not taken back as many values as
it has closed variables. -/
theorem Ends.level_eq {plan : Plan} {net : Network V n} {token : Token} {s : Store V n}
    {r' : Run V n} {result : Except Error (Outcome V)}
    (h : Ends plan net token (plan.start s) result r')
    (agreeing : net.conflictingSingletons s = none) :
    r'.stats.assignments + r'.store.unassigned.length =
      r'.stats.backtracks + s.unassigned.length := by
  have hlevel := (h.balances agreeing).level
  rw [level_preprocess, Run.level] at hlevel
  omega

/-- A search that goes on after its first check has made one inference before it branches, if its
plan has that, and one after each assignment, if its plan has those. -/
theorem Ends.inferenceCalls_eq {plan : Plan} {net : Network V n} {token : Token} {s : Store V n}
    {r' : Run V n} {result : Except Error (Outcome V)}
    (h : Ends plan net token (plan.start s) result r')
    (agreeing : net.conflictingSingletons s = none) :
    r'.stats.inferenceCalls =
      (if plan.inference.preprocesses then 1 else 0) +
        if plan.inference.runsPerAssignment then r'.stats.assignments else 0 := by
  -- what was due at the start is the one inference before the search
  have hdue := (h.balances agreeing).due
  obtain ⟨hassignments, hcalls⟩ := plan.counts_preprocess net (plan.start s)
  have hnone : (plan.start s).stats.assignments = 0 := rfl
  have hmade : (plan.start s).stats.inferenceCalls = 0 := rfl
  unfold Run.due at hdue
  rw [hassignments, hcalls, hnone, hmade] at hdue
  cases hafter : plan.inference.runsPerAssignment with
  | false =>
    simp only [hafter, Bool.false_eq_true, if_false] at hdue ⊢
    omega
  | true =>
    simp only [hafter, if_true] at hdue ⊢
    omega

theorem Ends.accounts {plan : Plan} {net : Network V n} {token : Token} {s : Store V n}
    {outcome : Outcome V} {r' : Run V n} (h : Ends plan net token (plan.start s) (.ok outcome) r')
    (named : ∀ id ∈ s.assignment, id < n) : Accounts plan net s outcome r'.stats where
  solved a e := by
    subst e
    have hsize := Store.size_assignment named
    cases h with
    | solved opens search =>
      have hends : Ends plan net token (plan.start s) (.ok (.solved r'.store.assignment)) r' :=
        .solved opens search ‹_›
      -- no variable is open at the end, so the level is what was assigned and kept
      have hlevel := hends.level_eq opens.agreeing
      rw [(search.framed trivial).whole rfl, List.length_nil] at hlevel
      omega
  unopened e unopened := by
    subst e
    have hpre := plan.tree_preprocess net (plan.start s)
    have hnone (htree : r'.tree = (0, 0)) :
        r'.stats.nodesVisited = 0 ∧ r'.stats.backtracks = 0 := Prod.mk.inj htree
    cases h with
    | conflicting => exact ⟨rfl, rfl⟩
    | emptied => exact hnone hpre
    | contradicted _ forces => exact hnone (forces.tree.trans hpre)
    | exhausted opens => exact absurd opens (unopened _)
  exhausted e t opens := by
    subst e
    have hlevel := h.level_eq opens.agreeing
    have hforced := opens.level_eq
    -- a tree without a solution gives back the store from which branching began
    have hback := ((h.explores opens).framed trivial).unchanged rfl
    have hgained : (s.gained t.store).length + t.store.unassigned.length = s.unassigned.length :=
      Store.length_gained opens.advances.grows
    rw [hback] at hlevel
    constructor
    · omega
    · omega
  bare e t opens without := by
    subst e
    have hbare : plan.inference.runsPerAssignment = false := by
      rcases without with e | e
      · rw [e]
        rfl
      · rw [e]
        rfl
    have hnodes := (h.explores opens).nodes_eq_backtracks hbare rfl
    obtain ⟨hnone, hkept⟩ := Prod.mk.inj opens.tree
    simp only [Task.entries] at hnodes
    omega
  inferred := h.inferenceCalls_eq
  visited _ := by
    rcases h.searches with hnone | ⟨t, b, opens, search⟩
    · omega
    · have hnodes := search.nodes_le_assignments
      have hnone := (Prod.mk.inj opens.tree).1
      simp only [Task.entries] at hnodes
      omega

/-- From a well-posed store a search that nobody cancels ends with an outcome, and its statistics
balance. -/
theorem solve_accounts (plan : Plan) (net : Network V n) (s : Store V n) (well : net.WellPosed s) :
    ∃ outcome stats, (plan.solve net .never s).1 = .ok (outcome, stats) ∧
      Accounts plan net s outcome stats := by
  obtain ⟨outcome, r', hends, hsolve⟩ := plan.exists_ends net well
  exact ⟨outcome, r'.stats, hsolve, hends.accounts well.named⟩

end Plan

/-- Four variables in a row, with too few values between the two ends. -/
def jammed : Store UInt8 4 where
  domains := #v[.singleton 1, .ofList [1, 2], .ofList [1, 2], .singleton 1]

/-- The two ends are forced, and one value is tried in vain between them. -/
theorem Plan.solve_accounts_jammed :
    (Network.onPath 4).WellPosed jammed ∧
      (Plan.solve ⟨.static, .unordered, .none, 0⟩ (.onPath 4) .never jammed).1 =
          .ok (.unsatisfiable,
            { nodesVisited := 2, backtracks := 1, assignments := 3, domainChanges := 1 }) ∧
        Accounts ⟨.static, .unordered, .none, 0⟩ (.onPath 4) jammed .unsatisfiable
          { nodesVisited := 2, backtracks := 1, assignments := 3, domainChanges := 1 } := by
  have well : (Network.onPath 4).WellPosed jammed :=
    Network.wellPosed_of_fresh _ (by decide) rfl
  have answer : (Plan.solve ⟨.static, .unordered, .none, 0⟩ (.onPath 4) .never jammed).1 =
      .ok (.unsatisfiable,
        { nodesVisited := 2, backtracks := 1, assignments := 3, domainChanges := 1 }) := by rfl
  obtain ⟨outcome, stats, hsolve, accounts⟩ :=
    Plan.solve_accounts ⟨.static, .unordered, .none, 0⟩ (.onPath 4) jammed well
  rw [answer] at hsolve
  cases hsolve
  exact ⟨well, answer, accounts⟩

end ConstraintNet
