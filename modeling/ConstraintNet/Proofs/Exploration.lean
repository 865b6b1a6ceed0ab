import ConstraintNet.Proofs.Choices
import ConstraintNet.Proofs.Inference
import ConstraintNet.Search

/-!
`Explores` has one rule for each way in which a part of the search comes to its end, so that facts
about the search are inductions over its tree (`explores_search`).
-/

namespace ConstraintNet

variable {V : Type} [Value V] [DecidableEq V] {n : Nat}

namespace Plan

/-- What lies before a search: a node of the tree, or the values of `v` left to try, for each of
which the trail is undone down to `length`. -/
inductive Task (V : Type) (n : Nat)
  | node
  | values (v : Fin n) (length : Nat) (left : List V)

omit [DecidableEq V] in
/-- Enters a node. -/
def visit (r : Run V n) : Run V n :=
  { r with
    polls := r.polls + 1
    stats := { r.stats with nodesVisited := r.stats.nodesVisited + 1 } }

/-- `Explores plan net token task r verdict r'`: the task, begun in the run `r`, ends with the
verdict in the run `r'`. -/
inductive Explores (plan : Plan) (net : Network V n) (token : Token) :
    Task V n → Run V n → Verdict → Run V n → Prop
  | cancelled {r : Run V n} (told : token r.polls = true) :
      Explores plan net token .node r (.error .cancelled) { r with polls := r.polls + 1 }
  | complete {r : Run V n} (quiet : token r.polls = false) (whole : r.store.unassigned = []) :
      Explores plan net token .node r (.ok true) (visit r)
  | emptied {r : Run V n} {v : Fin n} (quiet : token r.polls = false)
      (selected : plan.variableOrder.select? net r.store = some v)
      (empty : (r.store.domain v).isEmpty = true) :
      Explores plan net token .node r (.error (.invariantViolation (.emptyDomainSelected v)))
        (visit r)
  | branch {r r' : Run V n} {v : Fin n} {verdict : Verdict} (quiet : token r.polls = false)
      (selected : plan.variableOrder.select? net r.store = some v)
      (nonempty : (r.store.domain v).isEmpty = false)
      (tried : Explores plan net token
        (.values v r.store.trail.length (plan.valueOrder.arrange net r.store v r.rng).1)
        { visit r with rng := (plan.valueOrder.arrange net r.store v r.rng).2 } verdict r') :
      Explores plan net token .node r verdict r'
  | exhausted {r : Run V n} {v : Fin n} {length : Nat} :
      Explores plan net token (.values v length []) r (.ok false) r
  | illegal {r r' : Run V n} {v : Fin n} {length : Nat} {x : V} {left : List V} {verdict : Verdict}
      (conflict : net.isLegal r.store.value? v x = false)
      (rest : Explores plan net token (.values v length left) r verdict r') :
      Explores plan net token (.values v length (x :: left)) r verdict r'
  | wiped {r t r' : Run V n} {v w : Fin n} {length : Nat} {x : V} {left : List V}
      {verdict : Verdict} (legal : net.isLegal r.store.value? v x = true)
      (entered : plan.tryValue net r v x = (t, .wipeout w))
      (rest : Explores plan net token (.values v length left) (retract t v length) verdict r') :
      Explores plan net token (.values v length (x :: left)) r verdict r'
  | failed {r t t' r' : Run V n} {v : Fin n} {length : Nat} {x : V} {left : List V}
      {verdict : Verdict} (legal : net.isLegal r.store.value? v x = true)
      (entered : plan.tryValue net r v x = (t, .consistent))
      (below : Explores plan net token .node t (.ok false) t')
      (rest : Explores plan net token (.values v length left) (retract t' v length) verdict r') :
      Explores plan net token (.values v length (x :: left)) r verdict r'
  | settled {r t r' : Run V n} {v : Fin n} {length : Nat} {x : V} {left : List V}
      {verdict : Verdict} (legal : net.isLegal r.store.value? v x = true)
      (entered : plan.tryValue net r v x = (t, .consistent))
      (below : Explores plan net token .node t verdict r') (ends : verdict ≠ .ok false) :
      Explores plan net token (.values v length (x :: left)) r verdict r'

omit [DecidableEq V] in
theorem infers_infer {plan : Plan} {net : Network V n} {r t : Run V n} {v : Fin n}
    {propagation : Propagation n} (inferred : plan.infer net r v = (t, propagation)) :
    net.Infers r.store t.store := by
  have hinfers : net.Infers r.store (plan.infer net r v).1.store := by
    unfold infer
    split
    · exact net.infers_afterAssignment plan.inference r.store v
    · exact .refl
  rw [inferred] at hinfers
  exact hinfers

omit [DecidableEq V] in
theorem reports_infer {plan : Plan} {net : Network V n} {r t : Run V n} {v : Fin n}
    {propagation : Propagation n} (inferred : plan.infer net r v = (t, propagation))
    (live : r.store.Live) : Network.Reports (t.store, propagation) := by
  have hreports : Network.Reports ((plan.infer net r v).1.store, (plan.infer net r v).2) := by
    unfold infer
    split
    · exact net.reports_afterAssignment plan.inference live v
    · exact live
  rw [inferred] at hreports
  exact hreports

section

variable {plan : Plan} {net : Network V n} {r t : Run V n} {v : Fin n} {x : V}
  {propagation : Propagation n}

/-- Trying a value assigns it and narrows the variable to it before it infers. -/
theorem infer_of_tryValue (entered : plan.tryValue net r v x = (t, propagation)) :
    plan.infer net (record (enter r v x) ((r.store.assign v x).narrow v x)) v =
      (t, propagation) := entered

theorem infers_tryValue (entered : plan.tryValue net r v x = (t, propagation)) :
    net.Infers ((r.store.assign v x).narrow v x) t.store := infers_infer (infer_of_tryValue entered)

theorem advances_tryValue (free : r.store.value? v = none)
    (entered : plan.tryValue net r v x = (t, propagation)) : r.store.Advances t.store := by
  have hassign := Store.advances_assign free x
  have hnarrow : (r.store.assign v x).Advances ((r.store.assign v x).narrow v x) :=
    Store.advances_prune ..
  exact (hassign.trans hnarrow).trans (infers_tryValue entered).advances

theorem assignment_tryValue (entered : plan.tryValue net r v x = (t, propagation)) :
    t.store.assignment = r.store.assignment.insert v.val x :=
  (infers_tryValue entered).assignment_eq

theorem value?_tryValue (entered : plan.tryValue net r v x = (t, propagation)) :
    t.store.value? v = some x := by
  rw [Store.value?, assignment_tryValue entered, Assignment.value?_insert, if_pos rfl]

end

omit [DecidableEq V] in
theorem store_retract {s : Store V n} {t : Run V n} {v : Fin n} {x : V}
    (free : s.value? v = none) (descends : s.Descends t.store)
    (assigned : t.store.assignment = s.assignment.insert v.val x) :
    (retract t v s.trail.length).store = s := by
  have herase : (t.store.assignment).erase v.val = s.assignment := by
    rw [assigned]
    exact Assignment.erase_insert x (Store.not_mem_assignment free)
  calc
    (retract t v s.trail.length).store
      = (t.store.restore s.trail.length).unassign v := rfl
    _ = { s with assignment := t.store.assignment.erase v.val } := by
      rw [descends.restore_eq]
      rfl
    _ = s := by rw [herase]

omit [DecidableEq V] in
/-- The values of a variable are tried while it has no value, from the trail as it then is. -/
def Task.Fits (task : Task V n) (r : Run V n) : Prop :=
  match task with
  | .node => True
  | .values v length _ => r.store.value? v = none ∧ length = r.store.trail.length

omit [DecidableEq V] in
theorem Task.Fits.of_store_eq {v : Fin n} {length : Nat} {left more : List V} {r t : Run V n}
    (h : (Task.values v length more).Fits r) (same : t.store = r.store) :
    (Task.values v length left).Fits t := by
  change t.store.value? v = none ∧ length = t.store.trail.length
  rw [same]
  exact h

/-- How the store in which a task ends lies to the one in which it began. -/
structure Framed (s : Store V n) (verdict : Verdict) (t : Store V n) : Prop where
  advances : s.Advances t
  unchanged : verdict = .ok false → t = s
  whole : verdict = .ok true → t.unassigned = []

omit [DecidableEq V] in
theorem framed_of_eq {s t : Store V n} {verdict : Verdict} (same : t = s)
    (incomplete : verdict ≠ .ok true) : Framed s verdict t where
  advances := same ▸ s.advances_refl
  unchanged _ := same
  whole h := absurd h incomplete

theorem store_retract_tryValue {plan : Plan} {net : Network V n} {r t t' : Run V n} {v : Fin n}
    {length : Nat} {x : V} {left : List V} {propagation : Propagation n}
    (fits : (Task.values v length left).Fits r)
    (entered : plan.tryValue net r v x = (t, propagation)) (same : t'.store = t.store) :
    (retract t' v length).store = r.store := by
  obtain ⟨free, rfl⟩ := fits
  have hdescends := (advances_tryValue free entered).descends
  have hassigned := assignment_tryValue entered
  rw [← same] at hdescends hassigned
  exact store_retract free hdescends hassigned

theorem Explores.framed {plan : Plan} {net : Network V n} {token : Token} {task : Task V n}
    {r r' : Run V n} {verdict : Verdict} (h : Explores plan net token task r verdict r') :
    task.Fits r → Framed r.store verdict r'.store := by
  -- a value that fails is retracted to the store in which it was tried, so the values left are
  -- tried from that same store
  induction h with
  | cancelled => exact fun _ => framed_of_eq rfl (by simp)
  | complete _ whole =>
    intro _
    refine ⟨Store.advances_refl _, ?_, fun _ => whole⟩
    intro h
    cases h
  | emptied => exact fun _ => framed_of_eq rfl (by simp)
  | branch _ selected _ _ ih =>
    intro _
    exact ih ⟨VariableOrder.free_of_select? selected, rfl⟩
  | exhausted => exact fun _ => framed_of_eq rfl (by simp)
  | illegal _ _ ih => exact ih
  | wiped _ entered _ ih =>
    intro fits
    have hback := store_retract_tryValue fits entered rfl
    rw [← hback]
    exact ih (fits.of_store_eq hback)
  | failed _ entered _ _ ihBelow ih =>
    intro fits
    have hback := store_retract_tryValue fits entered ((ihBelow trivial).unchanged rfl)
    rw [← hback]
    exact ih (fits.of_store_eq hback)
  | settled _ entered _ ends ih =>
    rintro ⟨free, rfl⟩
    have hbelow := ih trivial
    have hadvances := (advances_tryValue free entered).trans hbelow.advances
    exact ⟨hadvances, fun h => absurd h ends, hbelow.whole⟩

theorem explores_tryEach {plan : Plan} {net : Network V n} {token : Token}
    {descend : Run V n → Verdict × Run V n} {s : Store V n} {v : Fin n}
    (free : s.value? v = none)
    (below : ∀ t, t.store.unassigned = s.unassigned.erase v →
      Explores plan net token .node t (descend t).1 (descend t).2)
    (values : List V) {r : Run V n} (here : r.store = s) :
    Explores plan net token (.values v s.trail.length values) r
      (plan.tryEach net descend v s.trail.length values r).1
      (plan.tryEach net descend v s.trail.length values r).2 := by
  have fits (left : List V) (r : Run V n) (here : r.store = s) :
      (Task.values v s.trail.length left).Fits r := by
    subst here
    exact ⟨free, rfl⟩
  -- every value is tried from the store `s`, whatever the run has counted by then
  induction values generalizing r with
  | nil => exact .exhausted
  | cons x rest ih =>
    subst here
    unfold tryEach
    by_cases legal : net.isLegal r.store.value? v x = true
    · rw [if_pos legal]
      cases entered : plan.tryValue net r v x with
      | mk t propagation =>
        have hpending : t.store.unassigned = r.store.unassigned.erase v := by
          rw [← Store.unassigned_assign r.store v x]
          exact Store.unassigned_congr (assignment_tryValue entered)
        cases propagation with
        | wipeout w =>
          have hback := store_retract_tryValue (fits (x :: rest) r rfl) entered rfl
          exact .wiped legal entered (ih hback)
        | consistent =>
          have hbelow := below t hpending
          cases hdescend : descend t with
          | mk verdict t' =>
            rw [hdescend] at hbelow
            dsimp only
            rw [hdescend]
            split
            · rename_i t'' heq
              cases heq
              have hsame := (hbelow.framed trivial).unchanged rfl
              have hback := store_retract_tryValue (fits (x :: rest) r rfl) entered hsame
              exact .failed legal entered hbelow (ih hback)
            · rename_i verdict' t'' ends heq
              cases heq
              exact .settled legal entered hbelow ends
    · rw [if_neg legal]
      exact .illegal (Bool.eq_false_iff.mpr legal) (ih rfl)

theorem explores_searchPending (plan : Plan) (net : Network V n) (token : Token) (depth : Nat)
    (pending : List (Fin n)) (count : pending.length = depth) (r : Run V n)
    (all : r.store.unassigned = pending) :
    Explores plan net token .node r (plan.searchPending net token depth pending count r).1
      (plan.searchPending net token depth pending count r).2 := by
  -- the depth is the number of pending variables, and these are the unassigned ones
  induction depth generalizing pending r with
  | zero =>
    unfold searchPending poll
    cases hpoll : token r.polls with
    | true => exact .cancelled hpoll
    | false => exact .complete hpoll (all.trans (List.length_eq_zero_iff.mp count))
  | succ depth ih =>
    unfold searchPending poll
    cases hpoll : token r.polls with
    | true => exact .cancelled hpoll
    | false =>
      cases pending with
      | nil => cases count
      | cons first others =>
        have selected : plan.variableOrder.select? net r.store =
            some (plan.variableOrder.selectFrom net r.store first others) := by
          unfold VariableOrder.select?
          rw [all]
        by_cases hempty :
            (r.store.domain (plan.variableOrder.selectFrom net r.store first others)).isEmpty = true
        · simp only [hempty, if_true]
          exact .emptied hpoll selected hempty
        · simp only [hempty]
          refine .branch hpoll selected (Bool.eq_false_iff.mpr hempty) ?_
          apply explores_tryEach
          · exact VariableOrder.free_of_select? selected
          · intro t ht
            rw [all] at ht
            exact ih _ _ t ht
          · rfl

/-- The search is an exploration from the node at which it starts. -/
theorem explores_search (plan : Plan) (net : Network V n) (token : Token) (r : Run V n) :
    Explores plan net token .node r (plan.search net token r).1 (plan.search net token r).2 :=
  plan.explores_searchPending net token _ _ rfl r rfl

/-- A search that fails, from whatever run, leaves domains, assignment and trail as they were. One
that succeeds has given every variable a value, keeping those that were assigned, and has only added
to the trail. -/
theorem search_leaves_no_trace (plan : Plan) (net : Network V n) (token : Token) (r : Run V n) :
    ∃ verdict t, plan.search net token r = (verdict, t) ∧
      (verdict = .ok false → t.store = r.store) ∧
        (verdict = .ok true →
          Assignment.Extends t.store.assignment r.store.assignment ∧
            (∀ v, ∃ x, t.store.value? v = some x) ∧ r.store.trail <:+ t.store.trail) := by
  have hframed := (plan.explores_search net token r).framed trivial
  refine ⟨_, _, rfl, hframed.unchanged, fun succeeds => ⟨hframed.advances.grows, fun v => ?_, ?_⟩⟩
  · have hassigned : v ∉ (plan.search net token r).2.store.unassigned := by
      rw [hframed.whole succeeds]
      exact List.not_mem_nil
    exact Option.ne_none_iff_exists'.mp fun free => hassigned (Store.mem_unassigned.mpr free)
  · obtain ⟨gone, hremoved⟩ := hframed.advances.descends
    exact ⟨gone, hremoved.trail.symm⟩

/-- Four variables in a row, the first of which has a value. -/
def begun (last : Domain UInt8) : Run UInt8 4 where
  store := {
    domains := #v[.singleton 1, .ofList [1, 2], .ofList [1, 2], last]
    assignment := .ofPairs [(0, 1)]
    trail := [⟨3, 7⟩, ⟨9, 0⟩] }
  rng := .ofSeed 0

/-- Whether the row can be completed depends on the value at its other end. -/
theorem search_leaves_no_trace_begun :
    (∃ t, Plan.search ⟨.static, .unordered, .forwardChecking, 0⟩ (.onPath 4) .never
        (begun (.singleton 1)) = (.ok false, t) ∧ t.store = (begun (.singleton 1)).store) ∧
      ∃ t, Plan.search ⟨.static, .unordered, .forwardChecking, 0⟩ (.onPath 4) .never
        (begun (.singleton 2)) = (.ok true, t) ∧ ∀ v, ∃ x, t.store.value? v = some x := by
  let plan : Plan := ⟨.static, .unordered, .forwardChecking, 0⟩
  have hfails : (plan.search (.onPath 4) .never (begun (.singleton 1))).1.toOption =
      some false := by decide +kernel
  have hsucceeds : (plan.search (.onPath 4) .never (begun (.singleton 2))).1.toOption =
      some true := by decide +kernel
  have hverdict {verdict : Verdict} {b : Bool} (h : verdict.toOption = some b) :
      verdict = .ok b := by
    cases verdict with
    | error e => cases h
    | ok b' => exact congrArg Except.ok (Option.some.inj h)
  constructor
  · obtain ⟨verdict, t, hsearch, hunchanged, -⟩ :=
      plan.search_leaves_no_trace (.onPath 4) .never (begun (.singleton 1))
    rw [hsearch] at hfails
    obtain rfl := hverdict hfails
    exact ⟨t, hsearch, hunchanged rfl⟩
  · obtain ⟨verdict, t, hsearch, -, hextended⟩ :=
      plan.search_leaves_no_trace (.onPath 4) .never (begun (.singleton 2))
    rw [hsearch] at hsucceeds
    obtain rfl := hverdict hsucceeds
    exact ⟨t, hsearch, (hextended rfl).2.1⟩

/-- `Meets plan net token task₀ r₀ task r`: on its way from `task₀` in the run `r₀`, the search
comes to the task in the run `r`. -/
inductive Meets (plan : Plan) (net : Network V n) (token : Token) (task₀ : Task V n)
    (r₀ : Run V n) : Task V n → Run V n → Prop
  | start : Meets plan net token task₀ r₀ task₀ r₀
  | branch {r : Run V n} {v : Fin n} (met : Meets plan net token task₀ r₀ .node r)
      (quiet : token r.polls = false) (selected : plan.variableOrder.select? net r.store = some v)
      (nonempty : (r.store.domain v).isEmpty = false) :
      Meets plan net token task₀ r₀
        (.values v r.store.trail.length (plan.valueOrder.arrange net r.store v r.rng).1)
        { visit r with rng := (plan.valueOrder.arrange net r.store v r.rng).2 }
  | illegal {r : Run V n} {v : Fin n} {length : Nat} {x : V} {left : List V}
      (met : Meets plan net token task₀ r₀ (.values v length (x :: left)) r)
      (conflict : net.isLegal r.store.value? v x = false) :
      Meets plan net token task₀ r₀ (.values v length left) r
  | wiped {r t : Run V n} {v w : Fin n} {length : Nat} {x : V} {left : List V}
      (met : Meets plan net token task₀ r₀ (.values v length (x :: left)) r)
      (legal : net.isLegal r.store.value? v x = true)
      (entered : plan.tryValue net r v x = (t, .wipeout w)) :
      Meets plan net token task₀ r₀ (.values v length left) (retract t v length)
  | entered {r t : Run V n} {v : Fin n} {length : Nat} {x : V} {left : List V}
      (met : Meets plan net token task₀ r₀ (.values v length (x :: left)) r)
      (legal : net.isLegal r.store.value? v x = true)
      (entered : plan.tryValue net r v x = (t, .consistent)) :
      Meets plan net token task₀ r₀ .node t
  | failed {r t t' : Run V n} {v : Fin n} {length : Nat} {x : V} {left : List V}
      (met : Meets plan net token task₀ r₀ (.values v length (x :: left)) r)
      (legal : net.isLegal r.store.value? v x = true)
      (entered : plan.tryValue net r v x = (t, .consistent))
      (below : Explores plan net token .node t (.ok false) t') :
      Meets plan net token task₀ r₀ (.values v length left) (retract t' v length)

/-- The node at which a search that does not fail comes to its end: the token told it to stop, or
the variable to branch on has no value, or every variable has one. -/
def Final (plan : Plan) (net : Network V n) (token : Token) (r : Run V n) : Verdict → Prop
  | .ok false => False
  | .ok true => r.store.unassigned = []
  | .error e =>
    e = .cancelled ∧ token r.polls = true ∨
      ∃ v : Fin n, e = .invariantViolation (.emptyDomainSelected v) ∧
        plan.variableOrder.select? net r.store = some v ∧ ∀ x, x ∉ r.store.domain v

/-- A search that does not fail ends at a node to which it comes, in the store of that node. -/
theorem Explores.ends_at {plan : Plan} {net : Network V n} {token : Token} {task₀ task : Task V n}
    {r₀ r r' : Run V n} {verdict : Verdict} (h : Explores plan net token task r verdict r') :
    Meets plan net token task₀ r₀ task r → verdict ≠ .ok false →
      ∃ t, Meets plan net token task₀ r₀ .node t ∧ Final plan net token t verdict ∧
        r'.store = t.store := by
  induction h with
  | cancelled told => exact fun met _ => ⟨_, met, Or.inl ⟨rfl, told⟩, rfl⟩
  | complete _ whole => exact fun met _ => ⟨_, met, whole, rfl⟩
  | emptied _ selected empty =>
    intro met _
    exact ⟨_, met, Or.inr ⟨_, rfl, selected, SortedSet.not_mem_of_isEmpty empty⟩, rfl⟩
  | branch quiet selected nonempty _ ih => exact fun met => ih (met.branch quiet selected nonempty)
  | exhausted => exact fun _ goes => absurd rfl goes
  | illegal conflict _ ih => exact fun met => ih (met.illegal conflict)
  | wiped legal entered _ ih => exact fun met => ih (met.wiped legal entered)
  | failed legal entered below _ _ ih => exact fun met => ih (met.failed legal entered below)
  | settled legal entered _ _ ih => exact fun met => ih (met.entered legal entered)

omit [DecidableEq V] in
/-- `Undoes plan net token r₀ t length`: on its way from a node in the run `r₀`, the search undoes
the trail of `t` down to the length, after a wipeout or after the node below has failed. -/
inductive Undoes (plan : Plan) (net : Network V n) (token : Token) (r₀ : Run V n) :
    Run V n → Nat → Prop
  | wiped {r t : Run V n} {v w : Fin n} {length : Nat} {x : V} {left : List V}
      (met : Meets plan net token .node r₀ (.values v length (x :: left)) r)
      (entered : plan.tryValue net r v x = (t, .wipeout w)) : Undoes plan net token r₀ t length
  | failed {r t t' : Run V n} {v : Fin n} {length : Nat} {x : V} {left : List V}
      (met : Meets plan net token .node r₀ (.values v length (x :: left)) r)
      (entered : plan.tryValue net r v x = (t, .consistent))
      (below : Explores plan net token .node t (.ok false) t') :
      Undoes plan net token r₀ t' length

/-- Wherever a search comes, the task fits, and the store has advanced from the first one. -/
theorem Meets.framed {plan : Plan} {net : Network V n} {token : Token} {task₀ task : Task V n}
    {r₀ r : Run V n} (h : Meets plan net token task₀ r₀ task r) (fits : task₀.Fits r₀) :
    task.Fits r ∧ r₀.store.Advances r.store := by
  induction h with
  | start => exact ⟨fits, Store.advances_refl _⟩
  | branch _ _ selected _ ih => exact ⟨⟨VariableOrder.free_of_select? selected, rfl⟩, ih.2⟩
  | illegal _ _ ih => exact ih
  | wiped _ _ entered ih =>
    have hback := store_retract_tryValue ih.1 entered rfl
    exact ⟨ih.1.of_store_eq hback, hback ▸ ih.2⟩
  | entered _ _ entered ih => exact ⟨trivial, ih.2.trans (advances_tryValue ih.1.1 entered)⟩
  | failed _ _ entered below ih =>
    have hback := store_retract_tryValue ih.1 entered ((below.framed trivial).unchanged rfl)
    exact ⟨ih.1.of_store_eq hback, hback ▸ ih.2⟩

theorem Undoes.advances {plan : Plan} {net : Network V n} {token : Token} {r₀ t : Run V n}
    {length : Nat} (h : Undoes plan net token r₀ t length) : r₀.store.Advances t.store := by
  cases h with
  | wiped met entered =>
    obtain ⟨fits, hmet⟩ := met.framed trivial
    exact hmet.trans (advances_tryValue fits.1 entered)
  | failed met entered below =>
    obtain ⟨fits, hmet⟩ := met.framed trivial
    have hentered := hmet.trans (advances_tryValue fits.1 entered)
    exact hentered.trans (below.framed trivial).advances

end Plan

end ConstraintNet
