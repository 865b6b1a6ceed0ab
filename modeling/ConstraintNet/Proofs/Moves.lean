import ConstraintNet.Proofs.Repairs
import Mathlib.Combinatorics.SimpleGraph.DeleteEdges

namespace ConstraintNet

namespace Repair

variable {V : Type} {n : Nat}

/-- The pairs of neighbours whose values rule each other out. -/
def broken (net : Network V n) (values : Vector V n) : SimpleGraph (Fin n) where
  Adj v w := net.graph.Adj v w ∧ net.consistent v (values.get v) w (values.get w) = false
  symm := ⟨fun _ _ h => ⟨Graph.adj_comm.mp h.1, net.consistent_comm .. ▸ h.2⟩⟩
  loopless := ⟨fun _ h => Graph.not_adj_self h.1⟩

instance (net : Network V n) (values : Vector V n) : DecidableRel (broken net values).Adj :=
  fun v w => inferInstanceAs (Decidable (net.graph.Adj v w ∧ _ = _))

/-- How many pairs of neighbours have values that rule each other out. -/
def brokenCount (net : Network V n) (values : Vector V n) : Nat :=
  (broken net values).edgeFinset.card

/-- The constraints broken at a variable are its conflicts. -/
theorem degree_broken (net : Network V n) (values : Vector V n) (v : Fin n) :
    (broken net values).degree v = conflicts net values v (values.get v) := by
  let rivals := (net.neighbors v).filter fun (u : Fin n) =>
    !net.consistent v (values.get v) u (values.get u)
  have hset : (broken net values).neighborFinset v = rivals.toFinset := by
    ext u
    rw [SimpleGraph.mem_neighborFinset, List.mem_toFinset, List.mem_filter, Bool.not_eq_true']
    rfl
  have hnodup : rivals.Nodup := (net.graph.nodup_neighbors v).filter _
  calc
    (broken net values).degree v = rivals.toFinset.card := by
      rw [← SimpleGraph.card_neighborFinset_eq_degree, hset]
    _ = rivals.length := List.toFinset_card_of_nodup hnodup
    _ = conflicts net values v (values.get v) := by
      rw [conflicts, Network.conflictCount, List.countP_eq_length_filter]
      rfl

/-- What conflicts with a value of `v` does not depend on the value that `v` has. -/
theorem conflicts_set_self (net : Network V n) (values : Vector V n) (v : Fin n) (x y : V) :
    conflicts net (values.set v.val x v.isLt) v y = conflicts net values v y := by
  apply List.countP_congr
  intro u adj
  have hne : u ≠ v := by
    rintro rfl
    exact Graph.not_adj_self adj
  have hget : (values.set v.val x v.isLt).get u = values.get u := by
    rw [Family.get_set, if_neg hne]
  simp only [hget]

/-- Away from `v` the same constraints are broken, whatever value `v` is given. -/
theorem deleteIncidenceSet_broken_set (net : Network V n) (values : Vector V n) (v : Fin n)
    (x : V) :
    (broken net (values.set v.val x v.isLt)).deleteIncidenceSet v =
      (broken net values).deleteIncidenceSet v := by
  ext u w
  simp only [SimpleGraph.deleteIncidenceSet_adj]
  refine and_congr_left fun ⟨hu, hw⟩ => ?_
  simp only [broken, Family.get_set, if_neg hu, if_neg hw]

theorem brokenCount_eq (net : Network V n) (values : Vector V n) (v : Fin n) :
    brokenCount net values = conflicts net values v (values.get v) +
      ((broken net values).deleteIncidenceSet v).edgeFinset.card := by
  have hle := (broken net values).degree_le_card_edgeFinset v
  have hcard := (broken net values).card_edgeFinset_deleteIncidenceSet v
  rw [← degree_broken, brokenCount]
  omega

/-- Giving `v` another value changes the number of broken constraints by as much as the number of
its conflicts. -/
theorem brokenCount_set (net : Network V n) (values : Vector V n) (v : Fin n) (x : V) :
    brokenCount net (values.set v.val x v.isLt) + conflicts net values v (values.get v) =
      brokenCount net values + conflicts net values v x := by
  have hbefore := brokenCount_eq net values v
  have hafter := brokenCount_eq net (values.set v.val x v.isLt) v
  rw [Family.get_set, if_pos rfl, conflicts_set_self] at hafter
  -- what is broken away from `v` is in both sums, and cancels
  have hrest : ((broken net (values.set v.val x v.isLt)).deleteIncidenceSet v).edgeFinset.card =
      ((broken net values).deleteIncidenceSet v).edgeFinset.card := by
    congr! 2
    exact deleteIncidenceSet_broken_set net values v x
  omega

variable [Value V]

/-- `next` comes of `values` by one move: a variable with a choice left, of which none has more
conflicts, takes a value of its domain, of which none has fewer. -/
structure MovesTo (net : Network V n) (s : Store V n) (values : Vector V n) (v : Fin n) (x : V)
    (next : Vector V n) : Prop where
  next_eq : next = values.set v.val x v.isLt
  choice : 2 ≤ (s.domain v).size
  worst : ∀ w, 2 ≤ (s.domain w).size →
    conflicts net values w (values.get w) ≤ conflicts net values v (values.get v)
  mem : x ∈ s.domain v
  best : ∀ y ∈ s.domain v, conflicts net values v x ≤ conflicts net values v y

theorem MovesTo.within {net : Network V n} {s : Store V n} {values next : Vector V n} {v : Fin n}
    {x : V} (h : MovesTo net s values v x next) (within : Within s values) : Within s next := by
  rw [h.next_eq]
  exact within.set h.mem

theorem MovesTo.brokenCount_le {net : Network V n} {s : Store V n} {values next : Vector V n}
    {v : Fin n} {x : V} (h : MovesTo net s values v x next) (within : Within s values) :
    brokenCount net next ≤ brokenCount net values := by
  have hcount := brokenCount_set net values v x
  have hbest := h.best _ (within v)
  rw [h.next_eq]
  omega

theorem size_eq_one_or_two_le {s : Store V n} {values : Vector V n} (within : Within s values)
    (v : Fin n) : (s.domain v).size = 1 ∨ 2 ≤ (s.domain v).size := by
  have hpos : 0 < (s.domain v).toList.length := List.length_pos_of_mem (within v)
  unfold SortedSet.size
  omega

theorem worst_of_mem_movable {net : Network V n} {s : Store V n} {values : Vector V n} {v : Fin n}
    (h : v ∈ movable net s values) :
    (s.domain v).size ≠ 1 ∧ conflicted net values ≠ [] ∧ ∀ w, (s.domain w).size ≠ 1 →
      conflicts net values w (values.get w) ≤ conflicts net values v (values.get v) := by
  obtain ⟨k, hk, hmost⟩ := mem_highest.mp h
  obtain ⟨hmem, hfree⟩ := List.mem_filter.mp hk
  obtain ⟨rfl, -⟩ := mem_conflicted.mp hmem
  refine ⟨by simpa using hfree, List.ne_nil_of_mem hmem, fun w hw => ?_⟩
  by_cases hnone : conflicts net values w (values.get w) = 0
  · omega
  -- a variable in conflict has been compared
  · have hconflicted := mem_conflicted.mpr ⟨rfl, Nat.pos_of_ne_zero hnone⟩
    exact hmost _ (List.mem_filter.mpr ⟨hconflicted, by simpa using hw⟩)

theorem movesTo_move {net : Network V n} {s : Store V n} {r : RepairRun V n} {v : Fin n}
    {rng : Random.Stream} (within : Within s r.values)
    (chosen : r.rng.choose (movable net s r.values) = (some v, rng)) :
    ∃ x, MovesTo net s r.values v x (move net s { surveyed r with rng := rng } v).values := by
  obtain ⟨hfree, -, hworst⟩ := worst_of_mem_movable
    (Random.Stream.mem_of_choose (congrArg Prod.fst chosen))
  obtain ⟨x, hx, hvalues, hbest⟩ :=
    exists_value_move net (r := { surveyed r with rng := rng }) within v
  have htwo {w : Fin n} (hw : 2 ≤ (s.domain w).size) : (s.domain w).size ≠ 1 := by omega
  exact ⟨x, hvalues, (size_eq_one_or_two_le within v).resolve_left hfree,
    fun w hw => hworst w (htwo hw), hx, hbest⟩

theorem Reaches.within {net : Network V n} {token : Token} {s : Store V n} {left left' : Nat}
    {r t : RepairRun V n} (h : Reaches net token s left r left' t) (within : Within s r.values) :
    Within s t.values := by
  induction h with
  | here => exact within
  | step _ chosen _ ih =>
    obtain ⟨x, hmoves⟩ := movesTo_move within chosen
    exact ih (hmoves.within within)

/-- No repair, however long, leaves more constraints broken than it found. -/
theorem Reaches.brokenCount_le {net : Network V n} {token : Token} {s : Store V n}
    {left left' : Nat} {r t : RepairRun V n} (h : Reaches net token s left r left' t)
    (within : Within s r.values) : brokenCount net t.values ≤ brokenCount net r.values := by
  induction h with
  | here => exact Nat.le_refl _
  | step _ chosen _ ih =>
    obtain ⟨x, hmoves⟩ := movesTo_move within chosen
    exact (ih (hmoves.within within)).trans (hmoves.brokenCount_le within)

theorem Reaches.left_le {net : Network V n} {token : Token} {s : Store V n} {left left' : Nat}
    {r t : RepairRun V n} (h : Reaches net token s left r left' t) : left' ≤ left := by
  induction h with
  | here => exact Nat.le_refl _
  | step _ _ _ ih => exact Nat.le_succ_of_le ih

/-- A run with one step fewer left is one move further. -/
theorem Reaches.moves {net : Network V n} {token : Token} {s : Store V n} {left : Nat}
    {r t : RepairRun V n} (h : Reaches net token s (left + 1) r left t)
    (within : Within s r.values) : ∃ v x, MovesTo net s r.values v x t.values := by
  cases h with
  | step _ chosen rest =>
    obtain ⟨x, hmoves⟩ := movesTo_move within chosen
    cases rest with
    | here => exact ⟨_, x, hmoves⟩
    | step _ _ rest => exact absurd rest.left_le (by omega)

variable [DecidableEq V]

/-- The loop goes on from every run that it reaches. -/
theorem Reaches.repairFor_eq {net : Network V n} {token : Token} {s : Store V n}
    {left left' : Nat} {r t : RepairRun V n} (h : Reaches net token s left r left' t) :
    repairFor net token s left r = repairFor net token s left' t := by
  induction h with
  | here => rfl
  | @step left _ r _ v rng quiet chosen _ ih =>
    rw [← ih]
    -- a variable was chosen, so some conflict was left and the loop did not end here
    obtain ⟨-, hsome, -⟩ := worst_of_mem_movable
      (Random.Stream.mem_of_choose (congrArg Prod.fst chosen))
    have hfound : (conflicted net r.values).isEmpty = false := by simpa using hsome
    unfold movable at chosen
    rw [repairFor]
    simp only [quiet, hfound, chosen]
    rfl

/-- A repair draws a value for every variable and then goes on from run to run until it halts. In
every run on the way the values lie within the domains, and a variable with one value left has it.
The next run comes of one move: a variable with a choice left that has most conflicts among these is
given a value with fewest. The number of broken constraints never rises, whatever the seed, the
bound and the token, and however the ties are broken. -/
theorem steps_never_worsen (repair : Repair) (net : Network V n) (token : Token) (s : Store V n)
    (live : s.Live) :
    ∃ first, repair.start s = .ok first ∧
      (∃ left last, Reaches net token s repair.maxSteps first left last ∧
        Halts net token s left last (repairFor net token s repair.maxSteps first).1
          (repairFor net token s repair.maxSteps first).2) ∧
      ∀ left r, Reaches net token s repair.maxSteps first left r →
        repairFor net token s repair.maxSteps first = repairFor net token s left r ∧
        (∀ v, r.values.get v ∈ s.domain v) ∧
        (∀ v x, (s.domain v).only? = some x → r.values.get v = x) ∧
        (∀ fewer next, left = fewer + 1 → Reaches net token s left r fewer next →
          ∃ v x, MovesTo net s r.values v x next.values) ∧
        ∀ fewer later, Reaches net token s left r fewer later →
          brokenCount net later.values ≤ brokenCount net r.values := by
  obtain ⟨first, hstart, hfirst⟩ := repair.exists_start live
  refine ⟨first, hstart, halts_repairFor net token s repair.maxSteps first, fun left r hr => ?_⟩
  have hwithin := hr.within hfirst.within
  refine ⟨hr.repairFor_eq, hwithin, fun v x only => ?_, ?_, fun fewer later hlater => ?_⟩
  · exact (SortedSet.mem_iff_of_only? only).mp (hwithin v)
  · rintro fewer next rfl hnext
    exact hnext.moves hwithin
  · exact hlater.brokenCount_le hwithin

end Repair

/-- Three variables in a row, the first of them fixed. -/
def halfOpen : Store UInt8 3 where
  domains := #v[.singleton 1, .ofList [1, 2], .ofList [1, 2]]

theorem Repair.steps_never_worsen_halfOpen :
    halfOpen.Live ∧ ∃ first next v x, Repair.start ⟨10, 1⟩ halfOpen = .ok first ∧
      Reaches (.onPath 3) .never halfOpen 10 first 9 next ∧ first.values.get 0 = 1 ∧
        MovesTo (.onPath 3) halfOpen first.values v x next.values ∧
          brokenCount (.onPath 3) next.values ≤ brokenCount (.onPath 3) first.values := by
  have live : halfOpen.Live := by decide
  have hpick : ((Repair.start ⟨10, 1⟩ halfOpen).map fun r =>
      (r.rng.choose (movable (.onPath 3) halfOpen r.values)).1) = .ok (some 1) := by decide +kernel
  obtain ⟨first, hstart, -, hsteps⟩ :=
    Repair.steps_never_worsen ⟨10, 1⟩ (.onPath 3) .never halfOpen live
  obtain ⟨-, -, hfixed, hmoves, hcount⟩ := hsteps 10 first .here
  rw [hstart] at hpick
  obtain ⟨rng, hchosen⟩ : ∃ rng,
      first.rng.choose (movable (.onPath 3) halfOpen first.values) = (some 1, rng) :=
    ⟨_, Prod.ext (Except.ok.inj hpick) rfl⟩
  have hnext : Reaches (.onPath 3) .never halfOpen 10 first 9
      (move (.onPath 3) halfOpen { surveyed first with rng := rng } 1) := .step rfl hchosen .here
  obtain ⟨v, x, hmove⟩ := hmoves 9 _ rfl hnext
  exact ⟨live, first, _, v, x, hstart, hnext, hfixed 0 1 (by decide), hmove, hcount 9 _ hnext⟩

end ConstraintNet
