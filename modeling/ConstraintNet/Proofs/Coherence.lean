import ConstraintNet.Numbered
import ConstraintNet.Proofs.Solutions
import ConstraintNet.Proofs.Stages

/-!
Arc consistency may take the value of an assigned variable away. Some neighbour then has no value
left that goes with it and can never be assigned, so that the branch ends in no answer.
-/

namespace ConstraintNet

variable {V : Type} [Value V] {n : Nat}

namespace Network

/-- Some variable without a value has only values left that its neighbours' values rule out. -/
def Stuck (net : Network V n) (s : Store V n) : Prop :=
  ∃ w, s.value? w = none ∧ ∀ x ∈ s.domain w, net.isLegal s.value? w x = false

/-- What is assigned breaks no constraint, and lies in the domains unless the store is stuck. -/
structure Coherent (net : Network V n) (s : Store V n) : Prop where
  named : ∀ id ∈ s.assignment, id < n
  compatible : net.Compatible s.value?
  kept : (∀ v x, s.value? v = some x → x ∈ s.domain v) ∨ net.Stuck s

theorem Stuck.of_subset {net : Network V n} {s t : Store V n} (h : net.Stuck s)
    (same : t.assignment = s.assignment) (fewer : ∀ v x, x ∈ t.domain v → x ∈ s.domain v) :
    net.Stuck t := by
  obtain ⟨w, free, blocked⟩ := h
  rw [← Store.value?_congr same] at free blocked
  exact ⟨w, free, fun x hx => blocked x (fewer w x hx)⟩

/-- A stuck store stays stuck when a value is assigned that no neighbour rules out. -/
theorem Stuck.assign {net : Network V n} {s : Store V n} (h : net.Stuck s) {v : Fin n} {x : V}
    (free : s.value? v = none) (hx : x ∈ s.domain v) (legal : net.isLegal s.value? v x = true) :
    net.Stuck (s.assign v x) := by
  obtain ⟨w, hw, blocked⟩ := h
  -- the stuck variable is another one, as a legal value is left for `v`
  have hne : w ≠ v := by
    rintro rfl
    rw [blocked x hx] at legal
    cases legal
  refine ⟨w, ?_, ?_⟩
  · rw [Store.value?_assign, if_neg hne]
    exact hw
  · intro y hy
    apply Bool.eq_false_iff.mpr
    intro hlegal
    -- what is ruled out before is ruled out after, as every value is still assigned
    have hbefore : net.isLegal s.value? w y = true := by
      apply isLegal_iff.mpr
      intro u z adj hz
      have hu : u ≠ v := by
        rintro rfl
        rw [free] at hz
        cases hz
      apply isLegal_iff.mp hlegal u z adj
      rw [Store.value?_assign, if_neg hu]
      exact hz
    rw [blocked y hy] at hbefore
    cases hbefore

theorem Coherent.prune {net : Network V n} {s : Store V n} (h : net.Coherent s) {v : Fin n}
    {keep : V → Bool} (spared : ∀ x, s.value? v = some x → keep x = true) :
    net.Coherent (s.prune v keep) where
  named := h.named
  compatible := h.compatible
  kept := by
    rcases h.kept with hkept | hstuck
    · refine Or.inl fun w x hx => Store.mem_domain_prune.mpr ⟨hkept w x hx, ?_⟩
      exact fun e => spared x (e ▸ hx)
    · exact Or.inr (hstuck.of_subset rfl fun w x hx => (Store.mem_domain_prune.mp hx).1)

theorem Coherent.assign {net : Network V n} {s : Store V n} (h : net.Coherent s) {v : Fin n}
    {x : V} (free : s.value? v = none) (hx : x ∈ s.domain v)
    (legal : net.isLegal s.value? v x = true) : net.Coherent (s.assign v x) where
  named id hid := by
    rcases Std.ExtTreeMap.mem_insert.mp hid with e | hid
    · rw [← Std.LawfulEqCmp.eq_of_compare e]
      exact v.isLt
    · exact h.named id hid
  compatible := by
    apply compatible_of_consistent
    -- an edge at `v` is the legality of `x`, read from either end; any other edge was there before
    intro a b y z adj ha hb
    rw [Store.value?_assign] at ha hb
    by_cases hav : a = v
    · subst hav
      have hbv : b ≠ a := fun e => Graph.not_adj_self (e ▸ adj)
      rw [if_pos rfl] at ha
      rw [if_neg hbv] at hb
      cases ha
      exact isLegal_iff.mp legal b z adj hb
    · rw [if_neg hav] at ha
      by_cases hbv : b = v
      · subst hbv
        rw [if_pos rfl] at hb
        cases hb
        rw [consistent_comm]
        exact isLegal_iff.mp legal a y (Graph.adj_comm.mp adj) ha
      · rw [if_neg hbv] at hb
        exact h.compatible.consistent adj ha hb
  kept := by
    rcases h.kept with hkept | hstuck
    · refine Or.inl fun w y hy => ?_
      rw [Store.value?_assign] at hy
      by_cases hw : w = v
      · rw [if_pos hw] at hy
        cases hy
        exact hw ▸ hx
      · rw [if_neg hw] at hy
        exact hkept w y hy
    · exact Or.inr (hstuck.assign free hx legal)

theorem Coherent.narrow [DecidableEq V] {net : Network V n} {s : Store V n} (h : net.Coherent s)
    {v : Fin n} {x : V} (given : s.value? v = some x) : net.Coherent (s.narrow v x) := by
  apply h.prune
  intro y hy
  rw [given] at hy
  cases hy
  exact decide_eq_true rfl

/-- A variable with a value that nothing at a neighbour goes with leaves this neighbour stuck. -/
theorem Coherent.stuck {net : Network V n} {s : Store V n} (h : net.Coherent s) {a : Arc (Fin n)}
    (adj : net.graph.Adj a.tail a.head) {x : V} (hx : s.value? a.tail = some x)
    (unsupported : net.isSupported s a x = false) : net.Stuck s := by
  rcases h.kept with hkept | hstuck
  · have hruled (y : V) (hy : y ∈ s.domain a.head) : net.consistent a.tail x a.head y = false := by
      apply Bool.eq_false_iff.mpr
      intro hxy
      have hsupported : net.isSupported s a x = true := List.any_eq_true.mpr ⟨y, hy, hxy⟩
      rw [unsupported] at hsupported
      cases hsupported
    -- a value at the head would go with `x`, and would still be there to support it
    refine ⟨a.head, ?_, ?_⟩
    · cases hvalue : s.value? a.head with
      | none => rfl
      | some y =>
        have hxy := h.compatible.consistent adj hx hvalue
        rw [hruled y (hkept _ y hvalue)] at hxy
        cases hxy
    · intro y hy
      apply Bool.eq_false_iff.mpr
      intro hlegal
      have hxy := isLegal_iff.mp hlegal a.tail x (Graph.adj_comm.mp adj) hx
      rw [consistent_comm, hruled y hy] at hxy
      cases hxy
  · exact hstuck

theorem Coherent.reviseArc {net : Network V n} {s : Store V n} (h : net.Coherent s)
    {a : Arc (Fin n)} (adj : net.graph.Adj a.tail a.head) : net.Coherent (net.reviseArc s a) := by
  by_cases hspared : ∀ x, s.value? a.tail = some x → net.isSupported s a x = true
  · exact h.prune hspared
  · obtain ⟨x, hx, hlost⟩ : ∃ x, s.value? a.tail = some x ∧ net.isSupported s a x = false := by
      simpa using hspared
    have hstuck := h.stuck adj hx hlost
    refine ⟨h.named, h.compatible, Or.inr ?_⟩
    exact hstuck.of_subset rfl fun v y hy => (Store.mem_domain_prune.mp hy).1

theorem Coherent.deduces {net : Network V n} {s t : Store V n} (step : net.Deduces s t)
    (h : net.Coherent s) : net.Coherent t := by
  cases step with
  | byArc adj => exact h.reviseArc adj
  | byValue _ _ free =>
    apply h.prune
    intro y hy
    rw [free] at hy
    cases hy

theorem Coherent.infers {net : Network V n} {s t : Store V n} (h : net.Coherent s)
    (steps : net.Infers s t) : net.Coherent t :=
  steps.keeps (P := net.Coherent) (fun _ _ => Coherent.deduces) h

/-- A coherent store in which every variable has a value is not stuck, so it holds a solution. -/
theorem Coherent.isSolution {net : Network V n} {s : Store V n} (h : net.Coherent s)
    (all : s.unassigned = []) : net.IsSolution s s.assignment where
  whole id := by
    refine ⟨h.named id, fun hid => ?_⟩
    by_contra habsent
    have hfree : s.value? (⟨id, hid⟩ : Fin n) = none := Std.ExtTreeMap.getElem?_eq_none habsent
    rw [← Store.mem_unassigned, all] at hfree
    cases hfree
  within := by
    rcases h.kept with hkept | ⟨w, hfree, -⟩
    · exact hkept
    · rw [← Store.mem_unassigned, all] at hfree
      cases hfree
  compatible := h.compatible

/-- Every variable has a value left, and what is assigned lies in the domains and breaks no
constraint. -/
structure WellPosed (net : Network V n) (s : Store V n) : Prop where
  live : s.Live
  named : ∀ id ∈ s.assignment, id < n
  within : ∀ v x, s.value? v = some x → x ∈ s.domain v
  compatible : net.Compatible s.value?

theorem WellPosed.coherent {net : Network V n} {s : Store V n} (h : net.WellPosed s) :
    net.Coherent s := ⟨h.named, h.compatible, Or.inl h.within⟩

theorem wellPosed_of_fresh (net : Network V n) {s : Store V n} (live : s.Live)
    (fresh : s.assignment = ∅) : net.WellPosed s := by
  have hfree (v : Fin n) (x : V) : s.value? v ≠ some x := by
    intro hx
    rw [Store.value?_of_fresh fresh v] at hx
    cases hx
  refine ⟨live, ?_, fun v x hx => absurd hx (hfree v x),
    fun v w x y _ hx _ => absurd hx (hfree v x)⟩
  intro id hid
  rw [fresh] at hid
  exact absurd hid Std.ExtTreeMap.not_mem_empty

theorem WellPosed.start {net : Network V n} {s : Store V n} (h : net.WellPosed s)
    {plan : Plan} : net.WellPosed (plan.start s).store := ⟨h.live, h.named, h.within, h.compatible⟩

end Network

theorem Numbered.restore_of_descends {s t : Store V n} (fresh : s.trail = [])
    (h : s.Descends t) (length : Nat) : restore t length = .ok (t.restore length) := by
  apply restore_of_above h
  rw [fresh]
  exact Nat.zero_le length

variable [DecidableEq V]

namespace Plan

omit [DecidableEq V] in
/-- The values that the task has left are values of its variable. -/
def Task.Offered (task : Task V n) (s : Store V n) : Prop :=
  match task with
  | .node => True
  | .values v _ left => ∀ x ∈ left, x ∈ s.domain v

omit [DecidableEq V] in
/-- What holds wherever the search comes. -/
structure Sound (net : Network V n) (task : Task V n) (r : Run V n) : Prop where
  fits : task.Fits r
  offered : task.Offered r.store
  live : r.store.Live
  coherent : net.Coherent r.store

omit [DecidableEq V] in
/-- Passing over a value, or taking it back, leaves the next value to a sound task. -/
theorem Sound.next {net : Network V n} {v : Fin n} {length : Nat} {x : V} {left : List V}
    {r t : Run V n} (h : Sound net (.values v length (x :: left)) r) (same : t.store = r.store) :
    Sound net (.values v length left) t where
  fits := h.fits.of_store_eq same
  offered y hy := same ▸ h.offered y (List.mem_cons_of_mem x hy)
  live := same ▸ h.live
  coherent := same ▸ h.coherent

omit [DecidableEq V] in
/-- Selecting a variable leaves all its values to a sound task. -/
theorem Sound.branch {plan : Plan} {net : Network V n} {r : Run V n} (h : Sound net .node r)
    {v : Fin n} (selected : plan.variableOrder.select? net r.store = some v) :
    Sound net (.values v r.store.trail.length (plan.valueOrder.arrange net r.store v r.rng).1)
      { visit r with rng := (plan.valueOrder.arrange net r.store v r.rng).2 } where
  fits := ⟨VariableOrder.free_of_select? selected, rfl⟩
  offered _ hx := ValueOrder.mem_arrange.mp hx
  live := h.live
  coherent := h.coherent

theorem Sound.enter {plan : Plan} {net : Network V n} {v : Fin n} {length : Nat} {x : V}
    {left : List V} {r t : Run V n} (h : Sound net (.values v length (x :: left)) r)
    (legal : net.isLegal r.store.value? v x = true)
    (entered : plan.tryValue net r v x = (t, .consistent)) : Sound net .node t := by
  have hx : x ∈ r.store.domain v := h.offered x List.mem_cons_self
  let s := (r.store.assign v x).narrow v x
  have hlive : s.Live := by
    apply Store.live_prune h.live
    exact ⟨x, Store.mem_domain_prune.mpr ⟨hx, fun _ => decide_eq_true rfl⟩⟩
  have hcoherent : net.Coherent s :=
    (h.coherent.assign h.fits.1 hx legal).narrow ((r.store.value?_assign v v x).trans (if_pos rfl))
  have hreports := reports_infer (infer_of_tryValue entered) hlive
  exact ⟨trivial, trivial, hreports, hcoherent.infers (infers_tryValue entered)⟩

theorem Meets.sound {plan : Plan} {net : Network V n} {token : Token} {task₀ task : Task V n}
    {r₀ r : Run V n} (h : Meets plan net token task₀ r₀ task r) (sound : Sound net task₀ r₀) :
    Sound net task r := by
  induction h with
  | start => exact sound
  | branch _ _ selected _ ih => exact ih.branch selected
  | illegal _ _ ih => exact ih.next rfl
  | wiped _ _ entered ih => exact ih.next (store_retract_tryValue ih.fits entered rfl)
  | entered _ legal entered ih => exact ih.enter legal entered
  | failed _ _ entered below ih =>
    have hsame := (below.framed trivial).unchanged rfl
    exact ih.next (store_retract_tryValue ih.fits entered hsame)

omit [DecidableEq V] in
theorem Forces.coherent {plan : Plan} {net : Network V n} {l : List (Fin n)} {r r' : Run V n}
    {ok : Bool} (h : Forces plan net l r ok r') :
    ok = true → r.store.Live → net.Coherent r.store → r'.store.Live ∧ net.Coherent r'.store := by
  induction h with
  | done => exact fun _ hlive hcoherent => ⟨hlive, hcoherent⟩
  | passed _ _ ih => exact ih
  | illegal | wiped => intro e; cases e
  | @forced r t r' v x _ _ free only legal entered _ ih =>
    intro e hlive hcoherent
    have hx : x ∈ r.store.domain v := (SortedSet.mem_iff_of_only? only).mpr rfl
    have hentered := (hcoherent.assign free hx legal).infers (infers_infer entered)
    exact ih e (reports_infer entered hlive) hentered

omit [DecidableEq V] in
/-- The stages before the search lead from a well-posed store to a sound node. -/
theorem Opens.sound {plan : Plan} {net : Network V n} {r t : Run V n} (h : Opens plan net r t)
    (well : net.WellPosed r.store) : Sound net .node t := by
  have hreports := plan.reports_preprocess net well.live
  rw [h.consistent] at hreports
  have hpre := well.coherent.infers (plan.infers_preprocess net r)
  obtain ⟨hlive, hcoherent⟩ := h.forces.coherent rfl hreports hpre
  exact ⟨trivial, trivial, hlive, hcoherent⟩

theorem Sound.verify_eq_ok {net : Network V n} {r : Run V n} (h : Sound net .node r)
    (all : r.store.unassigned = []) : net.verify r.store r.store.assignment = .ok () :=
  Network.verify_eq_ok_iff.mpr (h.coherent.isSolution all)

/-- From a sound node, a search that does not fail was told to stop or assigns every variable. -/
theorem Explores.ends_well {plan : Plan} {net : Network V n} {token : Token} {r r' : Run V n}
    {verdict : Verdict} (h : Explores plan net token .node r verdict r')
    (sound : Sound net .node r) :
    (∀ e, verdict = .error e → e = .cancelled) ∧
      (verdict = .ok true → net.verify r'.store r'.store.assignment = .ok ()) := by
  -- the node at which the search ends is sound, like every node it comes to
  have hends (goes : verdict ≠ .ok false) :
      ∃ t, Sound net .node t ∧ Final plan net token t verdict ∧ r'.store = t.store := by
    obtain ⟨t, hmet, hfinal⟩ := h.ends_at .start goes
    exact ⟨t, hmet.sound sound, hfinal⟩
  constructor
  · rintro e rfl
    obtain ⟨t, hsound, hfinal, -⟩ := hends (by simp)
    rcases hfinal with ⟨he, -⟩ | ⟨v, -, -, hempty⟩
    · exact he
    · obtain ⟨x, hx⟩ := hsound.live v
      exact absurd hx (hempty x)
  · rintro rfl
    obtain ⟨t, hsound, hfinal, hsame⟩ := hends (by simp)
    rw [hsame]
    exact hsound.verify_eq_ok hfinal

/-- From a well-posed store a search is cancelled, finds that there is no solution, or solves. -/
theorem Ends.no_violation {plan : Plan} {net : Network V n} {token : Token} {r r' : Run V n}
    {result : Except Error (Outcome V)} (h : Ends plan net token r result r')
    (well : net.WellPosed r.store) :
    result = .error .cancelled ∨ result = .ok .unsatisfiable ∨ ∃ a, result = .ok (.solved a) := by
  cases h with
  | conflicting | emptied | contradicted => exact Or.inr (Or.inl rfl)
  | stopped opens search =>
    rw [(search.ends_well (opens.sound well)).1 _ rfl]
    exact Or.inl rfl
  | exhausted => exact Or.inr (Or.inl rfl)
  | rejected opens search rejects =>
    rw [(search.ends_well (opens.sound well)).2 rfl] at rejects
    cases rejects
  | solved => exact Or.inr (Or.inr ⟨_, rfl⟩)

/-- From a well-posed store no defensive check of a search fails, whatever the plan and the token.
It is cancelled, finds that there is no solution, or solves; a variable that it selects has a value
left; a complete assignment that it reaches passes the final check against the domains as they
then are; and wherever it undoes the trail, and when it gives the store back at the end, the
removals undone name variables that exist. -/
theorem solve_never_breaks (plan : Plan) (net : Network V n) (token : Token) (s : Store V n)
    (well : net.WellPosed s) :
    ((plan.solve net token s).1 = .error .cancelled ∨
        ∃ stats, (plan.solve net token s).1 = .ok (.unsatisfiable, stats) ∨
          ∃ a, (plan.solve net token s).1 = .ok (.solved a, stats)) ∧
      (∀ t, Opens plan net (plan.start s) t →
        (∀ r, Meets plan net token .node t .node r →
          (∀ v, plan.variableOrder.select? net r.store = some v → ∃ x, x ∈ r.store.domain v) ∧
            (r.store.unassigned = [] → net.verify r.store r.store.assignment = .ok ())) ∧
        ∀ u length, Undoes plan net token t u length →
          Numbered.restore u.store length = .ok (u.store.restore length)) ∧
      Numbered.restore (plan.run net token (plan.start s)).2.store 0 =
        .ok ((plan.run net token (plan.start s)).2.store.restore 0) := by
  have hends := plan.ends_run net token (plan.start s)
  have hwell : net.WellPosed (plan.start s).store :=
    ⟨well.live, well.named, well.within, well.compatible⟩
  refine ⟨?_, ?_, Numbered.restore_of_descends rfl hends.advances.descends 0⟩
  · simp only [solve]
    rcases hends.no_violation hwell with e | e | ⟨a, e⟩
    · rw [e]
      exact Or.inl rfl
    · rw [e]
      exact Or.inr ⟨_, Or.inl rfl⟩
    · rw [e]
      exact Or.inr ⟨_, Or.inr ⟨a, rfl⟩⟩
  · intro t hopens
    have hsound := hopens.sound hwell
    refine ⟨fun r hmet => ?_, fun u length hundoes => ?_⟩
    · have hmet := hmet.sound hsound
      exact ⟨fun v _ => hmet.live v, hmet.verify_eq_ok⟩
    · have hadvances := hopens.advances.trans hundoes.advances
      exact Numbered.restore_of_descends rfl hadvances.descends length

end Plan

/-- Three variables in a row, the first of which has a value and yet its whole domain. -/
def headstart : Store UInt8 3 where
  domains := #v[.ofList [1, 2], .ofList [1, 2], .ofList [1, 2]]
  assignment := .ofPairs [(0, 1)]

theorem headstart_wellPosed : (Network.onPath 3).WellPosed headstart := by
  have hvalue (v : Fin 3) (x : UInt8) (h : headstart.value? v = some x) : v = 0 ∧ x = 1 := by
    change Assignment.value? ((∅ : Assignment UInt8).insert (0 : Fin 3).val 1) v = some x at h
    rw [Assignment.value?_insert] at h
    split at h
    · rename_i hv
      exact ⟨hv, (Option.some.inj h).symm⟩
    · cases h
  refine ⟨by decide, ?_, ?_, ?_⟩
  · intro id hid
    rcases Std.ExtTreeMap.mem_insert.mp hid with e | hid
    · rw [← Std.LawfulEqCmp.eq_of_compare e]
      decide
    · exact absurd hid Std.ExtTreeMap.not_mem_empty
  · intro v x h
    obtain ⟨rfl, rfl⟩ := hvalue v x h
    decide
  · intro v w x y adj hx hy
    obtain ⟨rfl, rfl⟩ := hvalue v x hx
    obtain ⟨rfl, rfl⟩ := hvalue w y hy
    exact absurd adj Graph.not_adj_self

theorem Plan.solve_never_breaks_headstart :
    (Network.onPath 3).WellPosed headstart ∧
      ∃ stats a,
        (Plan.solve ⟨.mrvDegree, .unordered, .forwardChecking, 0⟩ (.onPath 3) .never headstart).1 =
          .ok (.solved a, stats) := by
  let plan : Plan := ⟨.mrvDegree, .unordered, .forwardChecking, 0⟩
  have hkind : ((plan.solve (.onPath 3) .never headstart).1.map fun o => o.1.kind) =
      .ok "solved" := by decide +kernel
  refine ⟨headstart_wellPosed, ?_⟩
  obtain ⟨e | ⟨stats, e | ⟨a, e⟩⟩, -⟩ :=
    plan.solve_never_breaks (.onPath 3) .never headstart headstart_wellPosed
  · rw [e] at hkind
    cases hkind
  · rw [e] at hkind
    have hname : "unsatisfiable" = "solved" := Except.ok.inj hkind
    exact absurd hname (by decide)
  · exact ⟨stats, a, e⟩

end ConstraintNet
