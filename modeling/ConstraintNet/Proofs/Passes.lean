import ConstraintNet.Branching
import ConstraintNet.Proofs.Histories

namespace ConstraintNet

variable {V : Type} [Value V] {n : Nat}

/-- A pass of inference over a store. -/
inductive Pass (n : Nat)
  | forwardCheck (v : Fin n)
  | ac3
  | mac (v : Fin n)
  deriving DecidableEq, Repr

/-- The store that the pass leaves, and its signal. -/
def Pass.run (net : Network V n) (s : Store V n) : Pass n → Store V n × Propagation n
  | forwardCheck v => net.forwardCheck s v
  | ac3 => net.ac3 s
  | mac v => net.mac s v

namespace Network

/-- The loop empties one domain at most. -/
theorem Settles.spares {net : Network V n} {k : Nat} {w : WorkList (Arc (Fin n))} {s : Store V n}
    {e : Store V n × Propagation n} (h : net.Settles k w s e) (live : s.Live) {v u : Fin n}
    (ended : e.2 = .wipeout v) (hne : u ≠ v) : ∃ x, x ∈ e.1.domain u := by
  induction h with
  | idle => cases ended
  | kept _ _ _ ih => exact ih live ended
  | emptied =>
    cases ended
    exact Store.exists_mem_prune_of_ne live hne _
  | shrunk _ _ left _ ih => exact ih (Store.live_prune live left) ended

theorem Sweeps.spares {net : Network V n} {v : Fin n} {x : V} {l : List (Fin n)} {s : Store V n}
    {e : Store V n × Propagation n} (h : net.Sweeps v x l s e) (live : s.Live) {w u : Fin n}
    (ended : e.2 = .wipeout w) (hne : u ≠ w) : ∃ y, y ∈ e.1.domain u := by
  induction h with
  | done => cases ended
  | passed _ _ ih => exact ih live ended
  | emptied =>
    cases ended
    exact Store.exists_mem_prune_of_ne live hne _
  | held _ left _ ih => exact ih (Store.live_prune live left) ended

end Network

namespace Pass

theorem infers_run (pass : Pass n) (net : Network V n) (s : Store V n) :
    net.Infers s (pass.run net s).1 := by
  cases pass with
  | forwardCheck v => exact net.infers_forwardCheck s v
  | ac3 => exact net.infers_ac3 s
  | mac v => exact net.infers_mac s v

theorem reports_run (pass : Pass n) (net : Network V n) {s : Store V n} (live : s.Live) :
    Network.Reports (pass.run net s) := by
  cases pass with
  | forwardCheck v => exact net.reports_forwardCheck live v
  | ac3 => exact net.reports_ac3 live
  | mac v => exact net.reports_mac live v

theorem spares_run (pass : Pass n) (net : Network V n) {s : Store V n} (live : s.Live)
    {w u : Fin n} (ended : (pass.run net s).2 = .wipeout w) (hne : u ≠ w) :
    ∃ x, x ∈ (pass.run net s).1.domain u := by
  have hpropagate (l : WorkList (Arc (Fin n))) (ended : (net.propagate l s).2 = .wipeout w) :
      ∃ x, x ∈ (net.propagate l s).1.domain u := by
    obtain ⟨k, -, hsettles⟩ := net.settles_propagate l s
    exact hsettles.spares live ended hne
  cases pass with
  | forwardCheck v =>
    change (net.forwardCheck s v).2 = .wipeout w at ended
    rcases net.forwardCheck_cases s v with ⟨-, hnone⟩ | ⟨x, -, hsweeps⟩
    · rw [hnone] at ended
      cases ended
    · exact hsweeps.spares live ended hne
  | ac3 | mac v => exact hpropagate _ ended

/-- Every pass over a store without empty domains ends with an exact signal: it is consistent exactly
if no domain is empty, and the variable of a wipeout is the only one whose domain is. No domain has
gained a value, nothing is assigned or unassigned, and the trail is as before but for as many entries
on top as values were lost. -/
theorem signals_exactly (pass : Pass n) (net : Network V n) (s : Store V n) (live : s.Live) :
    ∃ t signal, pass.run net s = (t, signal) ∧
      (signal = .consistent ↔ ∀ v, ∃ x, x ∈ t.domain v) ∧
      (∀ w, signal = .wipeout w → ∀ v, (∀ x, x ∉ t.domain v) ↔ v = w) ∧
      (∀ v, ∀ x ∈ t.domain v, x ∈ s.domain v) ∧
      t.assignment = s.assignment ∧
      ∃ since, t.trail = since ++ s.trail ∧
        since.length = ∑ v, ((s.domain v).size - (t.domain v).size) := by
  have hinfers := pass.infers_run net s
  have hreports := pass.reports_run net live
  have hspares (w u : Fin n) (ended : (pass.run net s).2 = .wipeout w) (hne : u ≠ w) :
      ∃ x, x ∈ (pass.run net s).1.domain u := pass.spares_run net live ended hne
  -- from here on the pass matters only by what it keeps, reports and spares
  generalize pass.run net s = e at hinfers hreports hspares ⊢
  obtain ⟨t, signal⟩ := e
  obtain ⟨since, hremoved⟩ := hinfers.advances.descends
  refine ⟨t, signal, rfl, ?_, ?_, fun v x hx => hinfers.advances.descends.mem hx,
    hinfers.assignment_eq, since, hremoved.trail, hremoved.length_eq⟩
  · cases signal with
    | consistent => exact ⟨fun _ => hreports, fun _ => rfl⟩
    | wipeout w =>
      constructor
      · intro hended
        cases hended
      · intro hlive
        obtain ⟨x, hx⟩ := hlive w
        exact absurd hx (hreports x)
  · rintro w rfl v
    constructor
    · intro hempty
      by_contra hne
      obtain ⟨x, hx⟩ := hspares w v rfl hne
      exact hempty x hx
    · rintro rfl
      exact hreports

end Pass

/-- The first of a row has a value that leaves the second one value, the only one of the third. -/
def dominoes : Store UInt8 3 where
  domains := #v[.singleton 1, .ofList [1, 3], .singleton 3]
  assignment := .ofPairs [(0, 1)]
  trail := [⟨2, 1⟩]

theorem Pass.signals_exactly_dominoes :
    dominoes.Live ∧ ∃ t since, Pass.run (.onPath 3) dominoes (.mac 0) = (t, .wipeout 2) ∧
      (∀ v, (∀ x, x ∉ t.domain v) ↔ v = 2) ∧ t.trail = since ++ dominoes.trail ∧
        since.length = 2 := by
  have live : dominoes.Live := by decide
  have hwipeout : (Pass.run (.onPath 3) dominoes (.mac 0)).2 = .wipeout 2 := by decide +kernel
  have hlost : ∑ v, ((dominoes.domain v).size -
      ((Pass.run (.onPath 3) dominoes (.mac 0)).1.domain v).size) = 2 := by
    decide +kernel
  obtain ⟨t, signal, hrun, -, honly, -, -, since, htrail, hlength⟩ :=
    Pass.signals_exactly (.mac 0) (.onPath 3) dominoes live
  rw [hrun] at hwipeout hlost
  exact ⟨live, t, since, hrun.trans (congrArg (Prod.mk t) hwipeout), honly 2 hwipeout, htrail,
    hlength.trans hlost⟩

namespace Network

/-- The values of `u` that `v = x` rules out. -/
def ruledOut (net : Network V n) (s : Store V n) (v : Fin n) (x : V) (u : Fin n) : List V :=
  (s.domain u).toList.filter fun y => !net.consistent v x u y

/-- The values of the free variables among those listed that `v = x` rules out. -/
def ruledOutAmong (net : Network V n) (s : Store V n) (v : Fin n) (x : V) (l : List (Fin n)) :
    List V :=
  (l.filter fun u => !s.isAssigned u).flatMap (net.ruledOut s v x)

theorem eliminatedChoices_eq (net : Network V n) (s : Store V n) (v : Fin n) (x : V) :
    net.eliminatedChoices s v x = (net.ruledOutAmong s v x (net.neighbors v)).length := rfl

theorem ruledOutAmong_append (net : Network V n) (s : Store V n) (v : Fin n) (x : V)
    (l m : List (Fin n)) :
    net.ruledOutAmong s v x (l ++ m) = net.ruledOutAmong s v x l ++ net.ruledOutAmong s v x m := by
  simp only [ruledOutAmong, List.filter_append, List.flatMap_append]

theorem ruledOutAmong_cons_of_assigned {net : Network V n} {s : Store V n} {v u : Fin n} {x : V}
    {l : List (Fin n)} (assigned : s.isAssigned u = true) :
    net.ruledOutAmong s v x (u :: l) = net.ruledOutAmong s v x l := by
  simp [ruledOutAmong, assigned]

theorem ruledOutAmong_cons_of_free {net : Network V n} {s : Store V n} {v u : Fin n} {x : V}
    {l : List (Fin n)} (free : s.value? u = none) :
    net.ruledOutAmong s v x (u :: l) = net.ruledOut s v x u ++ net.ruledOutAmong s v x l := by
  simp [ruledOutAmong, Store.isAssigned_eq, free]

/-- What is ruled out depends on the domains of the listed variables, and on which are free. -/
theorem ruledOutAmong_congr {net : Network V n} {s t : Store V n} {v : Fin n} {x : V}
    {l : List (Fin n)} (domains : ∀ u ∈ l, t.domain u = s.domain u)
    (assigned : ∀ u ∈ l, t.isAssigned u = s.isAssigned u) :
    net.ruledOutAmong t v x l = net.ruledOutAmong s v x l := by
  have hfilter : l.filter (fun u => !t.isAssigned u) = l.filter fun u => !s.isAssigned u :=
    List.filter_congr fun u hu => congrArg not (assigned u hu)
  rw [ruledOutAmong, hfilter]
  apply List.flatMap_congr
  intro u hu
  rw [ruledOut, domains u (List.mem_filter.mp hu).1]
  rfl

/-- Holding `u` against `v = x` records the values of `u` that `x` rules out. -/
theorem length_trail_revise (net : Network V n) (s : Store V n) (v : Fin n) (x : V) (u : Fin n) :
    (net.revise s u v x).trail.length = s.trail.length + (net.ruledOut s v x u).length := by
  have hcut : (s.cut u fun y => net.consistent u y v x).length = (net.ruledOut s v x u).length := by
    simp only [Store.cut, List.length_reverse, List.length_map, ruledOut, net.consistent_comm v x]
  rw [revise, Store.trail_prune, List.length_append, hcut, Nat.add_comm]

/-- Forward checking records what the value rules out among the variables that it comes to, and it
comes to all of them unless it wipes out a domain. -/
theorem Sweeps.length_trail {net : Network V n} {v : Fin n} {x : V} {l : List (Fin n)}
    {s : Store V n} {e : Store V n × Propagation n} (h : net.Sweeps v x l s e) (nodup : l.Nodup) :
    ∃ seen left, l = seen ++ left ∧ (e.2 = .consistent → left = []) ∧
      e.1.trail.length = s.trail.length + (net.ruledOutAmong s v x seen).length := by
  induction h with
  | done => exact ⟨[], [], rfl, fun _ => rfl, rfl⟩
  | @passed u rest s e assigned _ ih =>
    obtain ⟨seen, left, hrest, hleft, hlength⟩ := ih (List.nodup_cons.mp nodup).2
    refine ⟨u :: seen, left, congrArg (u :: ·) hrest, hleft, ?_⟩
    rw [hlength, ruledOutAmong_cons_of_assigned assigned]
  | @emptied u rest s free =>
    refine ⟨[u], rest, rfl, ?_, ?_⟩
    · intro ended
      cases ended
    · rw [net.length_trail_revise s v x u, ruledOutAmong_cons_of_free free, List.length_append]
      rfl
  | @held u rest s e free _ _ ih =>
    obtain ⟨hu, hnodup⟩ := List.nodup_cons.mp nodup
    obtain ⟨seen, left, hrest, hleft, hlength⟩ := ih hnodup
    -- the variables to come are others than `u`, so revising `u` changes nothing for them
    have hsame : net.ruledOutAmong (net.revise s u v x) v x seen = net.ruledOutAmong s v x seen := by
      refine ruledOutAmong_congr (fun w hw => ?_) fun _ _ => rfl
      have hne : w ≠ u := by
        rintro rfl
        exact hu (hrest ▸ List.mem_append_left left hw)
      rw [revise, Store.domain_prune, if_neg hne]
    refine ⟨u :: seen, left, congrArg (u :: ·) hrest, hleft, ?_⟩
    calc
      e.1.trail.length
        = s.trail.length + (net.ruledOut s v x u).length +
            (net.ruledOutAmong s v x seen).length := by
          rw [hlength, hsame, net.length_trail_revise s v x u]
      _ = s.trail.length + (net.ruledOutAmong s v x (u :: seen)).length := by
          rw [ruledOutAmong_cons_of_free free, List.length_append, Nat.add_assoc]

/-- The score of a value is what forward checking would take away. If `v` is given the value `x`,
whatever it had before, and its neighbours are then held against it, no more values are removed than
the score of `x` counts, and exactly so many if no domain is wiped out. -/
theorem forwardCheck_removes_eliminatedChoices (net : Network V n) (s : Store V n) (v : Fin n)
    (x : V) :
    ∃ t signal since, net.forwardCheck (s.assign v x) v = (t, signal) ∧
      t.trail = since ++ s.trail ∧ since.length ≤ net.eliminatedChoices s v x ∧
        (signal = .consistent → since.length = net.eliminatedChoices s v x) := by
  have hgiven : (s.assign v x).value? v = some x := (s.value?_assign v v x).trans (if_pos rfl)
  have hsweeps := net.sweeps_forwardCheck hgiven
  obtain ⟨since, hremoved⟩ := hsweeps.descends
  have htrail : (net.forwardCheck (s.assign v x) v).1.trail = since ++ s.trail := hremoved.trail
  -- the score is read before the assignment, which changes nothing at the neighbours of `v`
  have hscore : (net.ruledOutAmong (s.assign v x) v x (net.neighbors v)).length =
      net.eliminatedChoices s v x := by
    rw [eliminatedChoices_eq]
    refine congrArg List.length (ruledOutAmong_congr (fun _ _ => rfl) fun u adj => ?_)
    have hne : u ≠ v := by
      rintro rfl
      exact Graph.not_adj_self adj
    rw [Store.isAssigned_eq, Store.isAssigned_eq, Store.value?_assign, if_neg hne]
  obtain ⟨seen, left, hneighbors, hleft, hlength⟩ :=
    hsweeps.length_trail (net.graph.nodup_neighbors v)
  have hsince : since.length = (net.ruledOutAmong (s.assign v x) v x seen).length := by
    have hgrown : since.length + s.trail.length =
        s.trail.length + (net.ruledOutAmong (s.assign v x) v x seen).length := by
      rw [← List.length_append, ← htrail]
      exact hlength
    omega
  rw [← hscore, hneighbors, ruledOutAmong_append, List.length_append]
  refine ⟨_, _, since, rfl, htrail, by omega, fun ended => ?_⟩
  rw [hsince, hleft ended]
  rfl

end Network

end ConstraintNet
