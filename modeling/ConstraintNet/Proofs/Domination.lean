import ConstraintNet.Proofs.Counts
import ConstraintNet.Proofs.FirstSolution
import ConstraintNet.Proofs.Refinement

/-!
While a stronger search is at a node, the weaker one is at a node with a coarser store, or about to
branch on a variable that the stronger one has assigned already.
-/

namespace ConstraintNet

variable {V : Type} [Value V] {n : Nat}

namespace Network

/-- With the least variable first, the stronger search branches where the weaker one does, unless it
has assigned that variable already. -/
theorem Refines.select?_static_eq {net : Network V n} {s w : Store V n} (h : net.Refines s w)
    {u v : Fin n} (hs : VariableOrder.static.select? net s = some u)
    (hw : VariableOrder.static.select? net w = some v) (free : s.value? v = none) : u = v := by
  -- a lesser variable is assigned where the greater one is selected
  rcases Nat.lt_trichotomy u.val v.val with hlt | heq | hgt
  · obtain ⟨y, hy⟩ := VariableOrder.assigned_of_lt_static hw hlt
    have hfree := VariableOrder.free_of_select? hs
    rw [h.value? hy] at hfree
    cases hfree
  · exact Fin.ext heq
  · obtain ⟨y, hy⟩ := VariableOrder.assigned_of_lt_static hs hgt
    rw [hy] at free
    cases free

/-- Of the values that the weaker search tries in ascending order, the stronger one tries those that
it has left, in the same order. -/
theorem Refines.filter_toList [DecidableEq V] {net : Network V n} {s w : Store V n}
    (h : net.Refines s w) (v : Fin n) :
    (w.domain v).toList.filter (· ∈ s.domain v) = (s.domain v).toList := by
  have hset : (w.domain v).filter (· ∈ s.domain v) = s.domain v := by
    apply SortedSet.ext
    intro x
    rw [SortedSet.mem_filter, decide_eq_true_iff]
    exact ⟨And.right, fun hx => ⟨h.fewer v hx, hx⟩⟩
  exact congrArg SortedSet.toList hset

end Network

namespace Plan

variable [DecidableEq V]

/-- What the stronger search has before it, in the store `s`, while the weaker one has the other
task before it: both are at a node; both try the values of a variable, and the stronger one tries
those that it has left; or the stronger one is at a node, and has assigned the variable whose values
the weaker one tries, with one of these. -/
inductive Task.Covers (s : Store V n) : Task V n → Task V n → Prop
  | nodes : Covers s .node .node
  | values {v : Fin n} {length : Nat} {left : List V} (free : s.value? v = none) :
      Covers s (.values v s.trail.length (left.filter (· ∈ s.domain v))) (.values v length left)
  | decided {v : Fin n} {x : V} {length : Nat} {left : List V} (given : s.value? v = some x)
      (offered : x ∈ left) : Covers s .node (.values v length left)

/-- How the stronger search deals with the value `x` of `v` that the weaker one tries, before the
values `left`: it passes over the value, which belongs to no completion; it comes to a node that has
the value and fails, and goes on to the values left; or it ends with a node that has the value. -/
inductive Deals (plan : Plan) (net : Network V n) (token : Token) (v : Fin n) (x : V)
    (length : Nat) (left : List V) (r : Run V n) (verdict : Verdict) (r' : Run V n) : Prop
  | passes {task : Task V n} {t : Run V n} (same : t.store = r.store)
      (count : t.stats.nodesVisited = r.stats.nodesVisited)
      (unused : ∀ a, net.Completes r.store a → Assignment.value? a v ≠ some x)
      (covers : Task.Covers t.store task (.values v length left))
      (rest : Explores plan net token task t verdict r')
  | fails {task : Task V n} {t t' u : Run V n}
      (entered : net.Entered plan.inference r.store t.store v x)
      (count : t.stats.nodesVisited = r.stats.nodesVisited)
      (below : Explores plan net token .node t (.ok false) t') (same : u.store = r.store)
      (later : u.stats.nodesVisited = t'.stats.nodesVisited)
      (covers : Task.Covers u.store task (.values v length left))
      (rest : Explores plan net token task u verdict r')
  | ends {t : Run V n} (entered : net.Entered plan.inference r.store t.store v x)
      (count : t.stats.nodesVisited = r.stats.nodesVisited)
      (below : Explores plan net token .node t verdict r')

section

variable {plan : Plan} {net : Network V n} {token : Token} {v : Fin n} {x : V} {length : Nat}
  {left : List V} {r r' : Run V n} {verdict : Verdict}

/-- At a node with a value for `v`, every other value is passed over. -/
theorem deals_of_given {y : V} (given : r.store.value? v = some y) (offered : y ∈ x :: left)
    (firm : net.Firm plan.inference r.store) (h : Explores plan net token .node r verdict r') :
    Deals plan net token v x length left r verdict r' := by
  by_cases hy : y = x
  · subst hy
    exact .ends (firm.entered_self given) rfl h
  · have hlater : y ∈ left := (List.mem_cons.mp offered).resolve_left hy
    refine .passes rfl rfl (fun a ha hx => hy ?_) (.decided given hlater) h
    have hgrows : Assignment.value? a v = some y := ha.grows v y given
    exact Option.some.inj (hgrows.symm.trans hx)

/-- A value that the stronger search has left too is passed over if it conflicts or leads to a
wipeout, which no value of a completion does. -/
theorem deals_of_mem (free : r.store.value? v = none) (hx : x ∈ r.store.domain v)
    (firm : net.Firm plan.inference r.store)
    (h : Explores plan net token (.values v r.store.trail.length
      (x :: left.filter (· ∈ r.store.domain v))) r verdict r') :
    Deals plan net token v x length left r verdict r' := by
  have fits : (Task.values v r.store.trail.length [x]).Fits r := ⟨free, rfl⟩
  have hcovers {t : Run V n} (same : t.store = r.store) :
      Task.Covers t.store (.values v r.store.trail.length (left.filter (· ∈ r.store.domain v)))
        (.values v length left) := by
    rw [same]
    exact .values free
  have hentered {t : Run V n} (legal : net.isLegal r.store.value? v x = true)
      (entered : plan.tryValue net r v x = (t, .consistent)) :
      net.Entered plan.inference r.store t.store v x :=
    firm.entered_step free hx legal (afterAssignment_of_tryValue entered)
  -- the stronger search may pass the value over or enter it; the weaker one has then either nothing
  -- to lose or a node to enter
  cases h with
  | illegal conflict rest =>
    refine .passes rfl rfl (fun a ha hvalue => ?_) (hcovers rfl) rest
    rw [ha.legal hvalue] at conflict
    cases conflict
  | wiped _ entered rest =>
    have hback := store_retract_tryValue fits entered rfl
    have hcount := nodes_tryValue entered
    refine .passes hback hcount (fun a ha hvalue => ?_) (hcovers hback) rest
    cases (completes_tryValue ha hvalue entered).1
  | failed legal entered below rest =>
    have hback := store_retract_tryValue fits entered ((below.framed trivial).unchanged rfl)
    have hcount := nodes_tryValue entered
    exact .fails (hentered legal entered) hcount below hback rfl (hcovers hback) rest
  | settled legal entered below _ =>
    exact .ends (hentered legal entered) (nodes_tryValue entered) below

theorem deals_of_covers {task : Task V n}
    (covers : Task.Covers r.store task (.values v length (x :: left)))
    (firm : net.Firm plan.inference r.store) (h : Explores plan net token task r verdict r') :
    Deals plan net token v x length left r verdict r' := by
  cases covers with
  | decided given offered => exact deals_of_given given offered firm h
  | values free =>
    by_cases hx : x ∈ r.store.domain v
    · rw [List.filter_cons_of_pos (by simpa using hx)] at h
      exact deals_of_mem free hx firm h
    -- a value that the stronger search has lost belongs to no completion
    · rw [List.filter_cons_of_neg (by simpa using hx)] at h
      exact .passes rfl rfl (fun a ha hvalue => hx (ha.solution.within v x hvalue)) (.values free) h

end

/-- Where the stronger search and the weaker one are at the same time. -/
structure Abreast (strong : Inference) (net : Network V n) (task' : Task V n) (r : Run V n)
    (task : Task V n) (q : Run V n) : Prop where
  covers : Task.Covers r.store task' task
  sound : Sound net task q
  firm : net.Firm strong r.store
  refines : net.Refines r.store q.store

/-- When the weaker search branches, the stronger one branches on the same variable, or it waits at
its node, which has a value for the variable, or it ends there. -/
theorem Abreast.branch {strong : Inference} {seed : UInt64} {net : Network V n} {token : Token}
    {task' : Task V n} {r r' q : Run V n} {v : Fin n} {verdict : Verdict}
    (h : Abreast strong net task' r .node q)
    (selected : VariableOrder.static.select? net q.store = some v)
    (search : Explores ⟨.static, .unordered, strong, seed⟩ net token task' r verdict r') :
    r'.stats.nodesVisited ≤ r.stats.nodesVisited + 1 ∨
      ∃ task'' t,
        Abreast strong net task'' t (.values v q.store.trail.length (q.store.domain v).toList)
          (visit q) ∧
        t.stats.nodesVisited ≤ r.stats.nodesVisited + 1 ∧
          Explores ⟨.static, .unordered, strong, seed⟩ net token task'' t verdict r' := by
  obtain ⟨covers, sound, firm, refines⟩ := h
  cases covers
  have htried : Sound net (.values v q.store.trail.length (q.store.domain v).toList) (visit q) :=
    ⟨⟨VariableOrder.free_of_select? selected, rfl⟩, fun _ hx => hx, sound.live, sound.coherent⟩
  cases hvalue : r.store.value? v with
  -- its node stays open until the weaker search comes to this value, which is among those it tries
  | some x =>
    have hx : x ∈ q.store.domain v := refines.fewer v (firm.mem hvalue)
    exact Or.inr ⟨_, r, ⟨.decided hvalue hx, htried, firm, refines⟩, Nat.le_succ _, search⟩
  | none =>
    cases search with
    | cancelled => exact Or.inl (Nat.le_succ _)
    | complete | emptied => exact Or.inl (Nat.le_refl _)
    | @branch _ _ u _ _ hselected _ search =>
      obtain rfl := refines.select?_static_eq hselected selected hvalue
      have hcovers : Task.Covers r.store
          (.values u r.store.trail.length (r.store.domain u).toList)
          (.values u q.store.trail.length (q.store.domain u).toList) := by
        rw [← refines.filter_toList u]
        exact .values hvalue
      exact Or.inr ⟨_, visit r, ⟨hcovers, htried, firm, refines⟩, Nat.le_refl _, search⟩

/-- They stay abreast when the weaker search is done with a value. -/
theorem Abreast.next {strong : Inference} {net : Network V n} {task' task'' : Task V n}
    {r t q u : Run V n} {v : Fin n} {x : V} {length : Nat} {left : List V}
    (h : Abreast strong net task' r (.values v length (x :: left)) q) (here : t.store = r.store)
    (there : u.store = q.store) (covers : Task.Covers t.store task'' (.values v length left)) :
    Abreast strong net task'' t (.values v length left) u where
  covers := covers
  sound := h.sound.next there
  firm := here ▸ h.firm
  refines := by
    rw [here, there]
    exact h.refines

section

variable {strong : Inference} {net : Network V n} {task' : Task V n} {r q : Run V n} {v : Fin n}
  {x : V} {length : Nat} {left : List V}

/-- A value with which the stronger search comes to a node is legal in the weaker one. -/
theorem Abreast.legal (h : Abreast strong net task' r (.values v length (x :: left)) q)
    {t : Store V n} (here : net.Entered strong r.store t v x) :
    net.isLegal q.store.value? v x = true := by
  have hfix := here.refines q.store h.sound.fits.1 h.refines
  have hgrows := hfix.grows.trans (Store.advances_fix h.sound.fits.1 x).grows
  exact here.firm.isLegal hgrows here.given

/-- It also brings the weaker one to a node, with a coarser store. -/
theorem Abreast.enter {plan : Plan} {u : Run V n} {propagation : Propagation n}
    (h : Abreast strong net task' r (.values v length (x :: left)) q)
    (dominates : strong.Dominates plan.inference) {t : Run V n}
    (here : net.Entered strong r.store t.store v x)
    (there : plan.tryValue net q v x = (u, propagation)) :
    propagation = .consistent ∧ Abreast strong net .node t .node u := by
  have hfix := here.refines q.store h.sound.fits.1 h.refines
  have hended := afterAssignment_of_tryValue there
  obtain ⟨rfl, hrefines⟩ :=
    hfix.afterAssignment here.firm dominates (q.store.value?_fix_self v x) hended
  exact ⟨rfl, .nodes, h.sound.enter (h.legal here) there, here.firm, hrefines⟩

/-- What the weaker search passes over, the stronger one passes over. -/
theorem Abreast.passes {plan : Plan} {token : Token} {r' : Run V n} {verdict : Verdict}
    (h : Abreast plan.inference net task' r (.values v length (x :: left)) q)
    (search : Explores plan net token task' r verdict r')
    (alone : ∀ t : Run V n, ¬ net.Entered plan.inference r.store t.store v x) :
    ∃ task'' t, t.store = r.store ∧ t.stats.nodesVisited = r.stats.nodesVisited ∧
      Task.Covers t.store task'' (.values v length left) ∧
        Explores plan net token task'' t verdict r' := by
  cases deals_of_covers h.covers h.firm search with
  | passes same count _ covers rest => exact ⟨_, _, same, count, covers, rest⟩
  | fails entered | ends entered => exact absurd entered (alone _)

/-- With the value with which the weaker search ends in an answer, the stronger one ends too. -/
theorem Abreast.ends {plan weaker : Plan} {token token' : Token} {r' u q' : Run V n}
    {verdict : Verdict}
    (h : Abreast plan.inference net task' r (.values v length (x :: left)) q)
    (dominates : plan.inference.Dominates weaker.inference)
    (search : Explores plan net token task' r verdict r')
    (legal : net.isLegal q.store.value? v x = true)
    (entered : weaker.tryValue net q v x = (u, .consistent))
    (below : Explores weaker net token' .node u (.ok true) q') :
    ∃ t : Run V n, net.Entered plan.inference r.store t.store v x ∧
      t.stats.nodesVisited = r.stats.nodesVisited ∧
        Explores plan net token .node t verdict r' := by
  -- the answer is a completion with the value `x`, so the stronger search has not ruled `x` out
  have hcompletes := below.completes (h.sound.enter legal entered)
  have hx := (below.framed trivial).advances.grows v x (value?_tryValue entered)
  cases deals_of_covers h.covers h.firm search with
  | passes _ _ unused =>
    have hbefore := hcompletes.of_advances (advances_tryValue h.sound.fits.1 entered)
    exact absurd hx (unused _ (h.refines.keeps _ hbefore))
  | fails here _ below' =>
    have hinner := (h.enter dominates here entered).2.refines
    exact absurd (hinner.keeps _ hcompletes) (below'.exhaustive trivial rfl trivial)
  | ends here count below' => exact ⟨_, here, count, below'⟩

end

/-- While the weaker search goes through its task, the stronger one visits no more nodes. -/
theorem Explores.visits_le {strong weak : Inference} {seed seed' : UInt64} {net : Network V n}
    {token token' : Token} {task : Task V n} {q q' : Run V n} {verdict : Verdict}
    (h : Explores ⟨.static, .unordered, weak, seed⟩ net token task q verdict q')
    (dominates : strong.Dominates weak) {task' : Task V n} {r r' : Run V n} {verdict' : Verdict} :
    (∃ b, verdict = .ok b) →
      Explores ⟨.static, .unordered, strong, seed'⟩ net token' task' r verdict' r' →
        Abreast strong net task' r task q →
          r'.stats.nodesVisited + q.stats.nodesVisited ≤
            q'.stats.nodesVisited + r.stats.nodesVisited := by
  -- the induction is on the weaker search; the stronger one answers to each of its rules
  induction h generalizing task' r r' verdict' with
  | cancelled | emptied => rintro ⟨b, e⟩; cases e
  | complete _ whole =>
    rintro _ search ⟨covers, -, -, refines⟩
    cases covers
    have hcount := search.nodes_le_succ (refines.unassigned_eq_nil whole)
    simp only [visit]
    omega
  | branch _ selected _ tried ih =>
    intro answers search abreast
    have hvisit := tried.nodes_le
    simp only [visit] at hvisit
    rcases abreast.branch selected search with hcount | ⟨task'', t, habreast, hcount, hsearch⟩
    · omega
    · have hinner := ih answers hsearch habreast
      simp only [visit] at hinner
      omega
  | exhausted =>
    rintro _ search ⟨covers, -, -, -⟩
    cases covers with
    | values =>
      cases search
      exact Nat.le_of_eq (Nat.add_comm ..)
    | decided _ offered => cases offered
  | illegal conflict _ ih =>
    intro answers search abreast
    obtain ⟨task'', t, hsame, hnodes, hcovers, hrest⟩ := abreast.passes search fun t hentered => by
      rw [abreast.legal hentered] at conflict
      cases conflict
    have hcount := ih answers hrest (abreast.next hsame rfl hcovers)
    omega
  | wiped _ entered _ ih =>
    intro answers search abreast
    obtain ⟨task'', t, hsame, hnodes, hcovers, hrest⟩ := abreast.passes search fun t hentered => by
      cases (abreast.enter dominates hentered entered).1
    have hback := store_retract_tryValue abreast.sound.fits entered rfl
    have hcount := ih answers hrest (abreast.next hsame hback hcovers)
    have hentered := nodes_tryValue entered
    simp only [retract] at hcount
    omega
  | failed _ entered below rest ihBelow ih =>
    intro answers search abreast
    have hback :=
      store_retract_tryValue abreast.sound.fits entered ((below.framed trivial).unchanged rfl)
    have hnodes := nodes_tryValue entered
    have hbelow := below.nodes_le
    have hrest := rest.nodes_le
    simp only [retract] at hrest
    -- the nodes below `x` pay for what the stronger search does with `x`, and the values left for
    -- what it does with them
    cases deals_of_covers abreast.covers abreast.firm search with
    | passes same count _ covers rest =>
      have hcount := ih answers rest (abreast.next same hback covers)
      simp only [retract] at hcount
      omega
    | fails here count below same later covers rest =>
      have hinner := ihBelow ⟨false, rfl⟩ below (abreast.enter dominates here entered).2
      have hcount := ih answers rest (abreast.next same hback covers)
      simp only [retract] at hcount
      omega
    | ends here count below =>
      have hinner := ihBelow ⟨false, rfl⟩ below (abreast.enter dominates here entered).2
      omega
  | @settled _ _ _ _ _ _ _ verdict legal entered below ends ih =>
    rintro ⟨b, rfl⟩ search abreast
    obtain rfl : b = true := by
      cases b with
      | false => exact absurd rfl ends
      | true => rfl
    have hnodes := nodes_tryValue entered
    obtain ⟨t, here, hcount, hbelow⟩ := abreast.ends dominates search legal entered below
    have hinner := ih ⟨true, rfl⟩ hbelow (abreast.enter dominates here entered).2
    omega

/-- Of two whole searches, the stronger one visits no more nodes. -/
theorem Ends.visits_le {strong weak : Inference} {seed seed' : UInt64} {net : Network V n}
    {token token' : Token} {s : Store V n} {outcome outcome' : Outcome V} {q' r' : Run V n}
    (h : Ends ⟨.static, .unordered, weak, seed⟩ net token
      (Plan.start ⟨.static, .unordered, weak, seed⟩ s) (.ok outcome) q')
    (other : Ends ⟨.static, .unordered, strong, seed'⟩ net token'
      (Plan.start ⟨.static, .unordered, strong, seed'⟩ s) (.ok outcome') r')
    (dominates : strong.Dominates weak) (live : s.Live) (fresh : s.assignment = ∅) :
    r'.stats.nodesVisited ≤ q'.stats.nodesVisited := by
  rcases other.searches with hnone | ⟨t, b, opens, search⟩
  · rw [hnone]
    exact Nat.zero_le _
  · obtain ⟨u, b', hopens, hsearch, hfirm, hrefines⟩ := opens.refines dominates live fresh h
    have hsound := hopens.sound (net.wellPosed_of_fresh live fresh).start
    have hcount := hsearch.visits_le dominates ⟨b', rfl⟩ search ⟨.nodes, hsound, hfirm, hrefines⟩
    have hopen : t.stats.nodesVisited = 0 := congrArg Prod.fst opens.tree
    omega

/-- From a store with nothing assigned, searches that branch on the least variable and try its
values in ascending order end with an outcome unless they are cancelled, and how many nodes they
have visited then depends on the inference alone. Inferring more never makes it more: maintaining
arc consistency visits at most as many nodes as forward checking, and as arc consistency before the
search only, and each of these at most as many as no inference. -/
theorem stronger_inference_visits_no_more (net : Network V n) (s : Store V n) (live : s.Live)
    (fresh : s.assignment = ∅) :
    ∃ nodes : Inference → Nat,
      (∀ inference seed, ∃ outcome stats,
        (Plan.solve ⟨.static, .unordered, inference, seed⟩ net .never s).1 =
          .ok (outcome, stats)) ∧
      (∀ inference seed token outcome stats,
        (Plan.solve ⟨.static, .unordered, inference, seed⟩ net token s).1 = .ok (outcome, stats) →
          stats.nodesVisited = nodes inference) ∧
      (nodes .mac ≤ nodes .forwardChecking ∧ nodes .forwardChecking ≤ nodes .none) ∧
      nodes .mac ≤ nodes .ac3Pre ∧ nodes .ac3Pre ≤ nodes .none := by
  have hsolve (inference : Inference) (seed : UInt64) : ∃ outcome stats,
      (Plan.solve ⟨.static, .unordered, inference, seed⟩ net .never s).1 = .ok (outcome, stats) := by
    obtain ⟨outcome, stats, hsolve, -⟩ :=
      exists_verdict ⟨.static, .unordered, inference, seed⟩ net live fresh
    exact ⟨outcome, stats, hsolve⟩
  have hle {strong weak : Inference} {seed seed' : UInt64} {token token' : Token}
      {o o' : Outcome V} {stats stats' : Statistics} (dominates : strong.Dominates weak)
      (hw : (Plan.solve ⟨.static, .unordered, weak, seed⟩ net token s).1 = .ok (o, stats))
      (hs : (Plan.solve ⟨.static, .unordered, strong, seed'⟩ net token' s).1 = .ok (o', stats')) :
      stats'.nodesVisited ≤ stats.nodesVisited := by
    obtain ⟨q', hends, rfl⟩ := ends_of_solve_with hw
    obtain ⟨r', hends', rfl⟩ := ends_of_solve_with hs
    exact hends.visits_le hends' dominates live fresh
  -- any two runs with one inference visit the same number of nodes, so one of them may stand for
  -- all
  choose outcome stats hall using fun inference => hsolve inference 0
  refine ⟨fun inference => (stats inference).nodesVisited, hsolve, ?_, ⟨?_, ?_⟩, ?_, ?_⟩
  · intro inference seed token o st answer
    exact Nat.le_antisymm (hle inference.dominates_refl (hall inference) answer)
      (hle inference.dominates_refl answer (hall inference))
  · exact hle ⟨by decide, by decide⟩ (hall .forwardChecking) (hall .mac)
  · exact hle ⟨by decide, by decide⟩ (hall .none) (hall .forwardChecking)
  · exact hle ⟨by decide, by decide⟩ (hall .ac3Pre) (hall .mac)
  · exact hle ⟨by decide, by decide⟩ (hall .none) (hall .ac3Pre)

end Plan

/-- The first value of the row is the wrong one. Without inference the search sees so at the next
node, with forward checking before it, and with arc consistency it has no choice to make. -/
theorem Plan.stronger_inference_visits_no_more_fixedEnd :
    fixedEnd.Live ∧ fixedEnd.assignment = ∅ ∧
      ∃ nodes : Inference → Nat,
        (∀ inference seed token outcome stats,
          (Plan.solve ⟨.static, .unordered, inference, seed⟩ (.onPath 3) token fixedEnd).1 =
            .ok (outcome, stats) → stats.nodesVisited = nodes inference) ∧
          nodes .none = 4 ∧ nodes .forwardChecking = 3 ∧ nodes .ac3Pre = 1 ∧ nodes .mac ≤ 1 := by
  have live : fixedEnd.Live := by decide
  obtain ⟨nodes, hsolve, hnodes, -, hmac, -⟩ :=
    Plan.stronger_inference_visits_no_more (.onPath 3) fixedEnd live rfl
  have hcount (inference : Inference) (count : Nat)
      (h : (Plan.solve ⟨.static, .unordered, inference, 0⟩ (.onPath 3) .never fixedEnd).1.map
        (fun o => o.2.nodesVisited) = .ok count) : nodes inference = count := by
    obtain ⟨outcome, stats, answer⟩ := hsolve inference 0
    rw [answer] at h
    rw [← hnodes inference 0 .never outcome stats answer]
    exact Except.ok.inj h
  have hnone := hcount .none 4 (by decide +kernel)
  have hforward := hcount .forwardChecking 3 (by decide +kernel)
  have hpre := hcount .ac3Pre 1 (by decide +kernel)
  exact ⟨live, rfl, nodes, hnodes, hnone, hforward, hpre, hpre ▸ hmac⟩

end ConstraintNet
