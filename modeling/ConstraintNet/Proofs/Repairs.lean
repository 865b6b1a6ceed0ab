import ConstraintNet.Proofs.Completeness
import ConstraintNet.Repair

namespace ConstraintNet

namespace Random.Stream

variable {α : Type}

theorem exists_choose (s : Stream) {l : List α} (ne : l ≠ []) :
    ∃ x ∈ l, (s.choose l).1 = some x := by
  have hlen : 0 < l.length := List.length_pos_iff.mpr ne
  unfold choose
  rw [dif_pos hlen]
  exact ⟨_, List.getElem_mem _, rfl⟩

theorem mem_of_choose {s : Stream} {l : List α} {x : α} (h : (s.choose l).1 = some x) : x ∈ l := by
  have hne : l ≠ [] := by
    rintro rfl
    cases h
  obtain ⟨y, hy, hchoose⟩ := s.exists_choose hne
  rw [hchoose] at h
  cases h
  exact hy

theorem eq_nil_of_choose {s : Stream} {l : List α} (h : (s.choose l).1 = none) : l = [] := by
  by_contra hne
  obtain ⟨x, -, hchoose⟩ := s.exists_choose hne
  rw [hchoose] at h
  cases h

end Random.Stream

variable {α : Type}

theorem mem_scoring {scored : List (α × Nat)} {best : Option Nat} {a : α} :
    a ∈ (scored.filter fun c => some c.2 = best).map Prod.fst ↔
      ∃ k, (a, k) ∈ scored ∧ some k = best := by
  simp

theorem mem_highest {scored : List (α × Nat)} {a : α} :
    a ∈ highest scored ↔ ∃ k, (a, k) ∈ scored ∧ ∀ c ∈ scored, c.2 ≤ k := by
  rw [highest, mem_scoring]
  refine exists_congr fun k => and_congr_right fun hmem => ?_
  have hk : k ∈ scored.map Prod.snd := List.mem_map.mpr ⟨(a, k), hmem, rfl⟩
  rw [eq_comm, List.max?_eq_some_iff, and_iff_right hk, List.forall_mem_map]

theorem mem_lowest {scored : List (α × Nat)} {a : α} :
    a ∈ lowest scored ↔ ∃ k, (a, k) ∈ scored ∧ ∀ c ∈ scored, k ≤ c.2 := by
  rw [lowest, mem_scoring]
  refine exists_congr fun k => and_congr_right fun hmem => ?_
  have hk : k ∈ scored.map Prod.snd := List.mem_map.mpr ⟨(a, k), hmem, rfl⟩
  rw [eq_comm, List.min?_eq_some_iff, and_iff_right hk, List.forall_mem_map]

/-- If no entry scores best, there are none. -/
theorem eq_nil_of_scoring {scored : List (α × Nat)} {best : Option Nat}
    (h : (scored.filter fun c => some c.2 = best).map Prod.fst = [])
    (attained : scored ≠ [] → ∃ k, best = some k ∧ k ∈ scored.map Prod.snd) : scored = [] := by
  by_contra hne
  obtain ⟨k, rfl, hk⟩ := attained hne
  obtain ⟨⟨a, _⟩, hmem, rfl⟩ := List.mem_map.mp hk
  have ha := mem_scoring.mpr ⟨_, hmem, rfl⟩
  rw [h] at ha
  cases ha

theorem eq_nil_of_highest {scored : List (α × Nat)} (h : highest scored = []) : scored = [] := by
  apply eq_nil_of_scoring h
  intro hne
  have hsome : (scored.map Prod.snd).max?.isSome := by
    rw [List.isSome_max?_iff]
    simpa using hne
  obtain ⟨k, hk⟩ := Option.isSome_iff_exists.mp hsome
  exact ⟨k, hk, (List.max?_eq_some_iff.mp hk).1⟩

theorem eq_nil_of_lowest {scored : List (α × Nat)} (h : lowest scored = []) : scored = [] := by
  apply eq_nil_of_scoring h
  intro hne
  have hsome : (scored.map Prod.snd).min?.isSome := by
    rw [List.isSome_min?_iff]
    simpa using hne
  obtain ⟨k, hk⟩ := Option.isSome_iff_exists.mp hsome
  exact ⟨k, hk, (List.min?_eq_some_iff.mp hk).1⟩

namespace Repair

variable {V : Type} [Value V] [DecidableEq V] {n : Nat}

omit [DecidableEq V] in
/-- Every variable has a value of its domain. -/
def Within (s : Store V n) (values : Vector V n) : Prop := ∀ v, values.get v ∈ s.domain v

omit [Value V] [DecidableEq V] in
theorem conflicts_pos_iff {net : Network V n} {values : Vector V n} {v : Fin n} {x : V} :
    0 < conflicts net values v x ↔
      ∃ u, net.graph.Adj v u ∧ net.consistent v x u (values.get u) = false := by
  simp [conflicts, Network.conflictCount, Network.neighbors, Graph.Adj, List.countP_pos_iff]

omit [Value V] [DecidableEq V] in
theorem mem_conflicted {net : Network V n} {values : Vector V n} {v : Fin n} {k : Nat} :
    (v, k) ∈ conflicted net values ↔ conflicts net values v (values.get v) = k ∧ 0 < k := by
  simp [conflicted]

omit [Value V] [DecidableEq V] in
/-- Both ends of a broken constraint are in conflict. -/
theorem exists_conflicted {net : Network V n} {values : Vector V n} (ne : conflicted net values ≠ []) :
    ∃ v u, net.graph.Adj v u ∧ net.consistent v (values.get v) u (values.get u) = false ∧
      (∃ k, (v, k) ∈ conflicted net values) ∧ ∃ k, (u, k) ∈ conflicted net values := by
  obtain ⟨⟨v, k⟩, hv⟩ := List.exists_mem_of_ne_nil _ ne
  obtain ⟨rfl, hpos⟩ := mem_conflicted.mp hv
  obtain ⟨u, adj, hbroken⟩ := conflicts_pos_iff.mp hpos
  have hother : 0 < conflicts net values u (values.get u) := by
    apply conflicts_pos_iff.mpr
    refine ⟨v, Graph.adj_comm.mp adj, ?_⟩
    rw [Network.consistent_comm]
    exact hbroken
  exact ⟨v, u, adj, hbroken, ⟨_, hv⟩, ⟨_, mem_conflicted.mpr ⟨rfl, hother⟩⟩⟩

omit [DecidableEq V] in
theorem isSolution_of_unconflicted {net : Network V n} {s : Store V n} {values : Vector V n}
    (within : Within s values) (none : conflicted net values = []) :
    net.IsSolution s (Assignment.ofVector values) where
  whole id := Assignment.mem_ofVector
  within v x hx := by
    rw [Assignment.value?_ofVector] at hx
    cases hx
    exact within v
  compatible := by
    apply Network.compatible_of_consistent
    intro v w x y adj hx hy
    rw [Assignment.value?_ofVector] at hx hy
    cases hx
    cases hy
    -- a broken edge is a conflict at either of its ends
    by_contra hbroken
    have hpos : 0 < conflicts net values v (values.get v) :=
      conflicts_pos_iff.mpr ⟨w, adj, Bool.eq_false_iff.mpr hbroken⟩
    have hmem := mem_conflicted.mpr ⟨rfl, hpos⟩
    rw [none] at hmem
    cases hmem

omit [DecidableEq V] in
/-- If all that is in conflict is fixed, then two fixed variables rule each other out. -/
theorem conflictingSingletons_of_fixed {net : Network V n} {s : Store V n} {values : Vector V n}
    (within : Within s values) (ne : conflicted net values ≠ [])
    (fixed : ∀ c ∈ conflicted net values, (s.domain c.1).size = 1) :
    (net.conflictingSingletons s).isSome = true := by
  have honly (v : Fin n) (h : ∃ k, (v, k) ∈ conflicted net values) :
      (s.domain v).only? = some (values.get v) := by
    obtain ⟨k, hk⟩ := h
    obtain ⟨x, hx⟩ := List.length_eq_one_iff.mp (fixed _ hk)
    have hmem : values.get v ∈ (s.domain v).toList := within v
    rw [hx, List.mem_singleton] at hmem
    rw [SortedSet.only?_eq_some_iff, hx, hmem]
  obtain ⟨v, u, adj, hbroken, hv, hu⟩ := exists_conflicted ne
  have hclash : net.Clash s v u := ⟨adj, _, _, honly v hv, honly u hu, hbroken⟩
  rw [Option.isSome_iff_ne_none]
  intro hnone
  exact Network.conflictingSingletons_eq_none_iff.mp hnone v u hclash

omit [Value V] [DecidableEq V] in
/-- The run once the token has been asked and every variable's conflicts have been counted. -/
def surveyed (r : RepairRun V n) : RepairRun V n :=
  { r with
    polls := r.polls + 1
    stats := { r.stats with nodesVisited := r.stats.nodesVisited + n } }

/-- The variables that the next step may move. -/
def movable (net : Network V n) (s : Store V n) (values : Vector V n) : List (Fin n) :=
  highest ((conflicted net values).filter fun c => (s.domain c.1).size ≠ 1)

/-- `Reaches net token s left r left' t`: steps of a repair lead from the run `r` with `left` more
steps allowed to the run `t` with `left'` more. -/
inductive Reaches (net : Network V n) (token : Token) (s : Store V n) :
    Nat → RepairRun V n → Nat → RepairRun V n → Prop
  | here {left : Nat} {r : RepairRun V n} : Reaches net token s left r left r
  | step {left left' : Nat} {r t : RepairRun V n} {v : Fin n} {rng : Random.Stream}
      (quiet : token r.polls = false)
      (chosen : r.rng.choose (movable net s r.values) = (some v, rng))
      (rest : Reaches net token s left (move net s { surveyed r with rng := rng } v) left' t) :
      Reaches net token s (left + 1) r left' t

/-- `Halts net token s left r result t`: the repair ends in the run `r`, with `left` more steps
allowed, and hands back `t`. -/
inductive Halts (net : Network V n) (token : Token) (s : Store V n) :
    Nat → RepairRun V n → Except Error (Outcome V) → RepairRun V n → Prop
  | told {left : Nat} {r : RepairRun V n} (yes : token r.polls = true) :
      Halts net token s left r (.error .cancelled) { r with polls := r.polls + 1 }
  | repaired {left : Nat} {r : RepairRun V n} (quiet : token r.polls = false)
      (none : conflicted net r.values = []) :
      Halts net token s left r
        ((net.verify s (.ofVector r.values)).map fun _ => .solved (.ofVector r.values)) (surveyed r)
  | spent {r : RepairRun V n} (quiet : token r.polls = false)
      (some : conflicted net r.values ≠ []) :
      Halts net token s 0 r (.ok .stepBudgetExhausted) (surveyed r)
  | stalled {left : Nat} {r : RepairRun V n} (quiet : token r.polls = false)
      (some : conflicted net r.values ≠ [])
      (fixed : ∀ c ∈ conflicted net r.values, (s.domain c.1).size = 1) :
      Halts net token s (left + 1) r (.ok .stepBudgetExhausted) (surveyed r)

omit [DecidableEq V] in
theorem fixed_of_movable_eq_nil {net : Network V n} {s : Store V n} {values : Vector V n}
    (h : movable net s values = []) : ∀ c ∈ conflicted net values, (s.domain c.1).size = 1 := by
  intro c hc
  have hnone := List.filter_eq_nil_iff.mp (eq_nil_of_highest h) c hc
  simpa using hnone

theorem halts_repairFor (net : Network V n) (token : Token) (s : Store V n) (left : Nat)
    (r : RepairRun V n) :
    ∃ left' t, Reaches net token s left r left' t ∧
      Halts net token s left' t (repairFor net token s left r).1 (repairFor net token s left r).2 := by
  -- on the steps left: each either halts the repair or makes one move and goes on
  induction left generalizing r with
  | zero =>
    refine ⟨0, r, .here, ?_⟩
    unfold repairFor
    cases told : token r.polls with
    | true => exact .told told
    | false =>
      by_cases hnone : conflicted net r.values = []
      · simp only [hnone, List.isEmpty_nil, if_true]
        exact .repaired told hnone
      · have hsome : (conflicted net r.values).isEmpty = false := by simpa using hnone
        simp only [hsome]
        exact .spent told hnone
  | succ left ih =>
    unfold repairFor
    cases told : token r.polls with
    | true => exact ⟨left + 1, r, .here, .told told⟩
    | false =>
      by_cases hnone : conflicted net r.values = []
      · simp only [hnone, List.isEmpty_nil, if_true]
        exact ⟨left + 1, r, .here, .repaired told hnone⟩
      · have hsome : (conflicted net r.values).isEmpty = false := by simpa using hnone
        simp only [hsome]
        cases chosen : r.rng.choose (movable net s r.values) with
        | mk v? rng =>
          have chosen' := chosen
          unfold movable at chosen'
          simp only [chosen']
          cases v? with
          | none =>
            have hempty := Random.Stream.eq_nil_of_choose (congrArg Prod.fst chosen)
            exact ⟨left + 1, r, .here, .stalled told hnone (fixed_of_movable_eq_nil hempty)⟩
          | some v =>
            obtain ⟨left', t, hreaches, hhalts⟩ := ih (move net s { surveyed r with rng := rng } v)
            exact ⟨left', t, .step told chosen hreaches, hhalts⟩

omit [DecidableEq V] in
/-- With so many steps allowed in all, `left` of which are left: the values are within the domains,
and each value drawn at first and each step has been counted as an assignment. -/
structure Orderly (s : Store V n) (allowed left : Nat) (r : RepairRun V n) : Prop where
  within : Within s r.values
  counted : r.stats.assignments = n + r.stats.steps
  budget : r.stats.steps + left = allowed

omit [DecidableEq V] in
theorem Within.set {s : Store V n} {values : Vector V n} (within : Within s values) {v : Fin n}
    {x : V} (hx : x ∈ s.domain v) : Within s (values.set v.val x v.isLt) := by
  intro w
  rw [Family.get_set]
  by_cases hw : w = v
  · subst hw
    rw [if_pos rfl]
    exact hx
  · rw [if_neg hw]
    exact within w

omit [DecidableEq V] in
/-- A variable is moved to a value of its domain that no other one there beats. -/
theorem exists_value_move (net : Network V n) {s : Store V n} {r : RepairRun V n}
    (within : Within s r.values) (v : Fin n) :
    ∃ x ∈ s.domain v, (move net s r v).values = r.values.set v.val x v.isLt ∧
      ∀ y ∈ s.domain v, conflicts net r.values v x ≤ conflicts net r.values v y := by
  have hne : (s.domain v).toList ≠ [] := List.ne_nil_of_mem (within v)
  let scored := (s.domain v).toList.map fun x => (x, conflicts net r.values v x)
  have hlowest : lowest scored ≠ [] := fun h => hne (List.map_eq_nil_iff.mp (eq_nil_of_lowest h))
  obtain ⟨x, hx, hchosen⟩ := r.rng.exists_choose hlowest
  obtain ⟨k, hk, hleast⟩ := mem_lowest.mp hx
  obtain ⟨y, hy, heq⟩ := List.mem_map.mp hk
  cases heq
  refine ⟨x, hy, ?_, fun z hz => hleast _ (List.mem_map_of_mem hz)⟩
  simp only [move]
  rw [hchosen]
  rfl

omit [DecidableEq V] in
theorem within_move {net : Network V n} {s : Store V n} {r : RepairRun V n}
    (within : Within s r.values) (v : Fin n) : Within s (move net s r v).values := by
  obtain ⟨x, hx, hvalues, -⟩ := exists_value_move net within v
  rw [hvalues]
  exact within.set hx

omit [DecidableEq V] in
theorem Orderly.move {net : Network V n} {s : Store V n} {allowed left : Nat} {r : RepairRun V n}
    (h : Orderly s allowed (left + 1) r) (v : Fin n) (rng : Random.Stream) :
    Orderly s allowed left (move net s { surveyed r with rng := rng } v) where
  within := within_move (r := { surveyed r with rng := rng }) h.within v
  counted := by
    have hcounted := h.counted
    simp only [Repair.move, surveyed]
    omega
  budget := by
    have hbudget := h.budget
    simp only [Repair.move, surveyed]
    omega

omit [DecidableEq V] in
theorem Reaches.orderly {net : Network V n} {token : Token} {s : Store V n} {allowed : Nat}
    {left left' : Nat} {r t : RepairRun V n} (h : Reaches net token s left r left' t)
    (orderly : Orderly s allowed left r) : Orderly s allowed left' t := by
  induction h with
  | here => exact orderly
  | step _ _ _ ih => exact ih (orderly.move _ _)

omit [DecidableEq V] in
theorem exists_drawFirst {s : Store V n} (live : s.Live) (k : Nat) (h : k ≤ n)
    (rng : Random.Stream) :
    ∃ values rng', drawFirst s k h rng = .ok (values, rng') ∧
      ∀ (i : Nat) (hi : i < k), values[i] ∈ s.domain ⟨i, Nat.lt_of_lt_of_le hi h⟩ := by
  -- variable by variable; a domain that is not empty always yields a member
  induction k with
  | zero => exact ⟨#v[], rng, rfl, fun i hi => absurd hi (Nat.not_lt_zero i)⟩
  | succ k ih =>
    obtain ⟨values, rng', hdrawn, hvalues⟩ := ih (Nat.le_of_succ_le h)
    obtain ⟨y, hy⟩ := live ⟨k, h⟩
    obtain ⟨x, hx, hchoose⟩ := rng'.exists_choose (List.ne_nil_of_mem hy)
    cases chosen : rng'.choose (s.domain ⟨k, h⟩).toList with
    | mk x? rng'' =>
      rw [chosen] at hchoose
      cases hchoose
      refine ⟨values.push x, rng'', by simp only [drawFirst, hdrawn, chosen], ?_⟩
      intro i hi
      rw [Vector.getElem_push]
      split
      · rename_i hlt
        exact hvalues i hlt
      · rename_i hge
        obtain rfl : i = k := by omega
        exact hx

omit [DecidableEq V] in
theorem exists_start (repair : Repair) {s : Store V n} (live : s.Live) :
    ∃ r, repair.start s = .ok r ∧ Orderly s repair.maxSteps repair.maxSteps r := by
  obtain ⟨values, rng, hdrawn, hvalues⟩ := exists_drawFirst live n (Nat.le_refl n) (.ofSeed repair.seed)
  refine ⟨{ values := values, rng := rng, stats := { assignments := n } }, ?_, ?_⟩
  · simp only [start, hdrawn]
  · exact ⟨fun v => hvalues v.val v.isLt, rfl, Nat.zero_add _⟩

/-- An orderly repair that the token does not stop ends in a solution, or gives up with all steps
made or for a conflict between fixed variables. -/
theorem Halts.outcome {net : Network V n} {s : Store V n} {left : Nat} {r t : RepairRun V n}
    {result : Except Error (Outcome V)} (h : Halts net .never s left r result t)
    (within : Within s r.values) :
    ∃ outcome, result = .ok outcome ∧
      ((∃ a, outcome = .solved a ∧ net.IsSolution s a) ∨
        outcome = .stepBudgetExhausted ∧
          (left = 0 ∨ (net.conflictingSingletons s).isSome = true)) := by
  cases h with
  | told yes => cases yes
  | repaired _ none =>
    have hsolution := isSolution_of_unconflicted within none
    rw [Network.verify_eq_ok_iff.mpr hsolution]
    exact ⟨_, rfl, Or.inl ⟨_, rfl, hsolution⟩⟩
  | spent => exact ⟨_, rfl, Or.inr ⟨rfl, Or.inl rfl⟩⟩
  | stalled _ some fixed =>
    exact ⟨_, rfl, Or.inr ⟨rfl, Or.inr (conflictingSingletons_of_fixed within some fixed)⟩⟩

theorem Halts.stats_eq {net : Network V n} {token : Token} {s : Store V n}
    {left : Nat} {r t : RepairRun V n} {result : Except Error (Outcome V)}
    (h : Halts net token s left r result t) :
    t.stats.steps = r.stats.steps ∧ t.stats.assignments = r.stats.assignments := by
  cases h with
  | told | repaired | spent | stalled => exact ⟨rfl, rfl⟩

/-- From a store with a value left for every variable, whatever it has assigned, a repair that is
not told to stop makes no more than the allowed steps, counts an assignment for each variable and
each step, and ends. It ends in a solution, or it gives up; it gives up with steps left only if two
fixed variables rule each other out, and then there is no solution. -/
theorem solve_settles (repair : Repair) (net : Network V n) (s : Store V n) (live : s.Live) :
    ∃ outcome stats, repair.solve net .never s = .ok (outcome, stats) ∧
      stats.steps ≤ repair.maxSteps ∧ stats.assignments = n + stats.steps ∧
      ((∃ a, outcome = .solved a ∧ net.IsSolution s a) ∨
        outcome = .stepBudgetExhausted ∧
          (stats.steps = repair.maxSteps ∨
            (net.conflictingSingletons s).isSome = true ∧ ∀ a, ¬ net.IsSolution s a)) := by
  obtain ⟨r, hstart, hfirst⟩ := repair.exists_start live
  obtain ⟨left, t, hreaches, hhalts⟩ := halts_repairFor net .never s repair.maxSteps r
  have hlast := hreaches.orderly hfirst
  obtain ⟨outcome, hresult, hcases⟩ := hhalts.outcome hlast.within
  obtain ⟨hsteps, hassignments⟩ := hhalts.stats_eq
  have hbudget := hlast.budget
  have hcounted := hlast.counted
  have hsolve : repair.solve net .never s =
      .ok (outcome, (repairFor net .never s repair.maxSteps r).2.stats) := by
    simp only [solve, hstart, hresult, Except.map]
  refine ⟨outcome, _, hsolve, by omega, by omega, hcases.imp_right ?_⟩
  rintro ⟨hgaveUp, hspent | hfixed⟩
  · exact ⟨hgaveUp, Or.inl (by omega)⟩
  · refine ⟨hgaveUp, Or.inr ⟨hfixed, fun a ha => ?_⟩⟩
    rw [ha.no_conflict] at hfixed
    cases hfixed

end Repair

/-- Three variables in a row, the first two of them fixed to the same value. -/
def deadlocked : Store UInt8 3 where
  domains := #v[.singleton 4, .singleton 4, .ofList [1, 2, 3]]
  assignment := .ofPairs [(0, 7)]

theorem Repair.solve_settles_deadlocked :
    deadlocked.Live ∧
      ∃ stats,
        Repair.solve ⟨1000, 0⟩ (.onPath 3) .never deadlocked = .ok (.stepBudgetExhausted, stats) ∧
          stats.steps = 0 ∧ ∀ a, ¬ (Network.onPath 3).IsSolution deadlocked a := by
  have live : deadlocked.Live := by decide
  have hreport : ((Repair.solve ⟨1000, 0⟩ (.onPath 3) .never deadlocked).map
      fun o => (o.1.kind, o.2.steps)) = .ok ("step_budget_exhausted", 0) := by decide +kernel
  obtain ⟨outcome, stats, hsolve, -, -, hcases⟩ :=
    Repair.solve_settles ⟨1000, 0⟩ (.onPath 3) deadlocked live
  rw [hsolve] at hreport
  obtain ⟨hkind, hsteps⟩ := Prod.mk.inj (Except.ok.inj hreport)
  rcases hcases with ⟨a, rfl, -⟩ | ⟨rfl, hspent | ⟨-, hnone⟩⟩
  · have hname : "solved" = "step_budget_exhausted" := hkind
    exact absurd hname (by decide)
  · rw [hspent] at hsteps
    cases hsteps
  · exact ⟨live, stats, hsolve, hsteps, hnone⟩

end ConstraintNet
