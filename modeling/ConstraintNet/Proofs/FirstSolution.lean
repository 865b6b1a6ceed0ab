import ConstraintNet.Proofs.ArcConsistency
import ConstraintNet.Proofs.Verdicts

/-!
What inference forces belongs to every completion of a store and so decides between none of them.
Hence all inferences lead to the same answer, though they visit different nodes.
-/

namespace ConstraintNet

variable {V : Type} [Value V] {n : Nat}

namespace Assignment

/-- At the least variable at which they differ, `a` has the lesser value. -/
def Precedes (n : Nat) (a b : Assignment V) : Prop :=
  ∃ v : Fin n, (∀ u < v, value? a u = value? b u) ∧
    ∃ x y, value? a v = some x ∧ value? b v = some y ∧ compare x y = .lt

theorem Precedes.asymm {a b : Assignment V} (hab : Precedes n a b) : ¬ Precedes n b a := by
  rintro ⟨w, hbelow, y', x', hb', ha', hlt'⟩
  obtain ⟨v, habove, x, y, ha, hb, hlt⟩ := hab
  -- whichever of the two deciding variables is the lesser, the assignments agree there or differ
  -- both ways
  rcases Nat.lt_trichotomy v.val w.val with h | h | h
  · have hsame := hbelow v h
    rw [ha, hb] at hsame
    cases hsame
    rw [Std.ReflOrd.compare_self] at hlt
    cases hlt
  · obtain rfl := Fin.ext h
    rw [ha] at ha'
    rw [hb] at hb'
    cases ha'
    cases hb'
    rw [Std.OrientedCmp.gt_of_lt hlt] at hlt'
    cases hlt'
  · have hsame := habove w h
    rw [ha', hb'] at hsame
    cases hsame
    rw [Std.ReflOrd.compare_self] at hlt'
    cases hlt'

end Assignment

open Assignment (Precedes value?)

namespace Network

/-- The solution within the domains that precedes all others. -/
structure IsFirst (net : Network V n) (s : Store V n) (a : Assignment V) : Prop where
  solution : net.IsSolution s a
  first : ∀ b, net.IsSolution s b → b = a ∨ Precedes n a b

theorem IsFirst.unique {net : Network V n} {s : Store V n} {a b : Assignment V}
    (ha : net.IsFirst s a) (hb : net.IsFirst s b) : a = b := by
  rcases ha.first b hb.solution with e | hab
  · exact e.symm
  · rcases hb.first a ha.solution with e | hba
    · exact e
    · exact absurd hba hab.asymm

/-- The outcome is the first solution, or says that there is none. -/
inductive Decides (net : Network V n) (s : Store V n) : Outcome V → Prop
  | solved {a : Assignment V} (first : net.IsFirst s a) : Decides net s (.solved a)
  | unsatisfiable (none : ∀ a, ¬ net.IsSolution s a) : Decides net s .unsatisfiable

theorem Decides.unique {net : Network V n} {s : Store V n} {o p : Outcome V}
    (ho : net.Decides s o) (hp : net.Decides s p) : o = p := by
  cases ho with
  | solved ha =>
    cases hp with
    | solved hb => rw [ha.unique hb]
    | unsatisfiable none => exact absurd ha.solution (none _)
  | unsatisfiable none =>
    cases hp with
    | solved hb => exact absurd hb.solution (none _)
    | unsatisfiable => rfl

/-- The only completion of a store in which every variable has a value is what it has assigned. -/
theorem Completes.eq_assignment {net : Network V n} {s : Store V n} {a : Assignment V}
    (h : net.Completes s a) (all : s.unassigned = []) : a = s.assignment := by
  apply Std.ExtTreeMap.ext_getElem?
  intro id
  by_cases hid : id < n
  · cases hvalue : s.value? ⟨id, hid⟩ with
    | some x => exact (h.grows id x hvalue).trans hvalue.symm
    | none =>
      rw [← Store.mem_unassigned, all] at hvalue
      cases hvalue
  · have habsent : id ∉ a := fun hmem => hid ((h.solution.whole id).mp hmem)
    rw [Std.ExtTreeMap.getElem?_eq_none habsent]
    cases hvalue : s.assignment[id]? with
    | none => rfl
    | some x =>
      rw [← h.grows id x hvalue]
      exact (Std.ExtTreeMap.getElem?_eq_none habsent).symm

end Network

theorem firstLeastFrom_eq_self {α : Type} {rank : α → Rank} {best : α} {least : Rank}
    {l : List α} (none : ∀ a ∈ l, ¬ rank a < least) : firstLeastFrom rank best least l = best := by
  induction l with
  | nil => rfl
  | cons a l ih =>
    unfold firstLeastFrom
    rw [if_neg (none a List.mem_cons_self)]
    exact ih fun b hb => none b (List.mem_cons_of_mem a hb)

theorem VariableOrder.selectFrom_static (net : Network V n) (s : Store V n) (v : Fin n)
    (rest : List (Fin n)) : VariableOrder.static.selectFrom net s v rest = v := by
  have htie : ¬ (⟨0, 0⟩ : Rank) < ⟨0, 0⟩ := by decide
  exact firstLeastFrom_eq_self fun _ _ => htie

/-- Branching on the least variable leaves no variable below it without a value. -/
theorem VariableOrder.assigned_of_lt_static {net : Network V n} {s : Store V n} {u v : Fin n}
    (selected : VariableOrder.static.select? net s = some v) (below : u < v) :
    ∃ y, s.value? u = some y := by
  unfold select? at selected
  split at selected
  · cases selected
  · rename_i first others hall
    rw [selectFrom_static] at selected
    cases selected
    have hascending : (v :: others).Pairwise (· < ·) := by
      rw [← hall]
      exact (List.pairwise_lt_finRange n).filter _
    cases hvalue : s.value? u with
    | some y => exact ⟨y, rfl⟩
    | none =>
      rw [← Store.mem_unassigned, hall] at hvalue
      rcases List.mem_cons.mp hvalue with rfl | hlater
      · exact absurd below (Nat.lt_irrefl u.val)
      · exact absurd below (Nat.lt_asymm ((List.pairwise_cons.mp hascending).1 u hlater))

variable [DecidableEq V]

namespace Plan

open Network (Completes)

omit [DecidableEq V] in
/-- All variables below the one whose values are tried have a value, and the values left to try are
in ascending order. -/
def Task.Ascends (task : Task V n) (s : Store V n) : Prop :=
  match task with
  | .node => True
  | .values v _ left =>
    (∀ u < v, ∃ y, s.value? u = some y) ∧ left.Pairwise fun x y => compare x y = .lt

omit [DecidableEq V] in
theorem Task.Ascends.next {v : Fin n} {length : Nat} {x : V} {left : List V} {s : Store V n}
    (h : (Task.values v length (x :: left)).Ascends s) : (Task.values v length left).Ascends s :=
  ⟨h.1, (List.pairwise_cons.mp h.2).2⟩

/-- A part of a search with these orders that succeeds comes to the first of the completions that
it can still reach. -/
theorem Explores.comes_first {inference : Inference} {seed : UInt64} {net : Network V n}
    {token : Token} {task : Task V n} {r r' : Run V n} {verdict : Verdict}
    (h : Explores ⟨.static, .unordered, inference, seed⟩ net token task r verdict r')
    {a : Assignment V} :
    task.Fits r → task.Ascends r.store → verdict = .ok true → task.Includes a →
      net.Completes r.store a → a = r'.store.assignment ∨ Precedes n r'.store.assignment a := by
  induction h with
  | cancelled | emptied | exhausted => intro _ _ succeeds; cases succeeds
  | complete _ whole =>
    intro _ _ _ _ hcompletes
    exact Or.inl (hcompletes.eq_assignment whole)
  | @branch r r' v _ _ selected _ _ ih =>
    intro _ _ succeeds _ hcompletes
    obtain ⟨x, hx, hmem⟩ := hcompletes.exists_value v
    have hbelow : ∀ u < v, ∃ y, r.store.value? u = some y :=
      fun u hu => VariableOrder.assigned_of_lt_static selected hu
    exact ih ⟨VariableOrder.free_of_select? selected, rfl⟩
      ⟨hbelow, (r.store.domain v).ascending⟩ succeeds ⟨x, hmem, hx⟩ hcompletes
  | @illegal r r' v _ x _ _ conflict _ ih =>
    intro fits ascends succeeds includes hcompletes
    refine ih fits ascends.next succeeds (Task.includes_of_ne includes ?_) hcompletes
    intro hx
    rw [hcompletes.legal hx] at conflict
    cases conflict
  | @wiped r t r' v w _ x _ _ _ entered _ ih =>
    intro fits ascends succeeds includes hcompletes
    have hback := store_retract_tryValue fits entered rfl
    rw [hback] at ih
    refine ih (fits.of_store_eq hback) ascends.next succeeds (Task.includes_of_ne includes ?_)
      hcompletes
    intro hx
    cases (completes_tryValue hcompletes hx entered).1
  | @failed r t t' r' v _ x _ _ _ entered below _ _ ih =>
    intro fits ascends succeeds includes hcompletes
    have hback := store_retract_tryValue fits entered ((below.framed trivial).unchanged rfl)
    rw [hback] at ih
    refine ih (fits.of_store_eq hback) ascends.next succeeds (Task.includes_of_ne includes ?_)
      hcompletes
    intro hx
    exact below.exhaustive trivial rfl trivial (completes_tryValue hcompletes hx entered).2
  | @settled r t r' v _ x left _ _ entered below _ ih =>
    intro fits ascends succeeds includes hcompletes
    by_cases hx : value? a v = some x
    · exact ih trivial trivial succeeds trivial (completes_tryValue hcompletes hx entered).2
    -- a completion with a later value at `v` agrees with the answer below `v`
    · obtain ⟨y, hy, ha⟩ := Task.includes_of_ne includes hx
      have hgrows := (below.framed trivial).advances.grows
      have hat : value? r'.store.assignment v = some x := hgrows v x (value?_tryValue entered)
      refine Or.inr ⟨v, ?_, x, y, hat, ha, (List.pairwise_cons.mp ascends.2).1 y hy⟩
      intro u hu
      obtain ⟨z, hz⟩ := ascends.1 u hu
      have hentered := (advances_tryValue fits.1 entered).grows
      exact (hgrows u.val z (hentered u.val z hz)).trans (hcompletes.grows u.val z hz).symm

theorem Ends.comes_first {inference : Inference} {seed : UInt64} {net : Network V n}
    {token : Token} {r r' : Run V n} {a b : Assignment V}
    (h : Ends ⟨.static, .unordered, inference, seed⟩ net token r (.ok (.solved a)) r')
    (hb : net.Completes r.store b) : b = a ∨ Precedes n a b := by
  cases h with
  | solved opens search =>
    exact search.comes_first trivial trivial rfl trivial (opens.keeps_completion hb)

/-- A search without a token, begun with nothing assigned, finds the first solution if it branches
on the least variable and tries values in ascending order. -/
theorem decides_solve (inference : Inference) (seed : UInt64) (net : Network V n) {s : Store V n}
    (live : s.Live) (fresh : s.assignment = ∅) :
    ∃ outcome stats, net.Decides s outcome ∧
      (Plan.solve ⟨.static, .unordered, inference, seed⟩ net .never s).1 =
        .ok (outcome, stats) := by
  let plan : Plan := ⟨.static, .unordered, inference, seed⟩
  obtain ⟨outcome, r', hends, hsolve⟩ := plan.exists_ends net (net.wellPosed_of_fresh live fresh)
  have hcompletes (a : Assignment V) : net.Completes (plan.start s).store a ↔ net.IsSolution s a :=
    completes_start.trans (Network.completes_iff_of_fresh fresh)
  rcases hends.answers with rfl | ⟨a, rfl⟩
  · refine ⟨.unsatisfiable, r'.stats, .unsatisfiable fun a ha => ?_, hsolve⟩
    exact hends.exhaustive a ((hcompletes a).mpr ha)
  · have hfirst : net.IsFirst s a :=
      ⟨(hcompletes a).mp hends.completes, fun b hb => hends.comes_first ((hcompletes b).mpr hb)⟩
    exact ⟨.solved a, r'.stats, .solved hfirst, hsolve⟩

/-- From a store with nothing assigned, a search that branches on the least variable and tries its
values in ascending order ends in the same outcome under every inference and with every seed: the
first solution, compared variable by variable, or that there is none. -/
theorem solve_finds_first (net : Network V n) (s : Store V n) (live : s.Live)
    (fresh : s.assignment = ∅) :
    ∃ outcome, net.Decides s outcome ∧
      ∀ inference seed, ∃ stats,
        (Plan.solve ⟨.static, .unordered, inference, seed⟩ net .never s).1 =
          .ok (outcome, stats) := by
  obtain ⟨outcome, -, hdecides, -⟩ := decides_solve .none 0 net live fresh
  refine ⟨outcome, hdecides, fun inference seed => ?_⟩
  obtain ⟨other, stats, hother, hsolve⟩ := decides_solve inference seed net live fresh
  rw [hother.unique hdecides] at hsolve
  exact ⟨stats, hsolve⟩

end Plan

theorem Plan.solve_finds_first_fixedEnd :
    fixedEnd.Live ∧ fixedEnd.assignment = ∅ ∧
      ∃ a, (Network.onPath 3).IsFirst fixedEnd a ∧
        ∀ inference seed, ∃ stats,
          (Plan.solve ⟨.static, .unordered, inference, seed⟩ (.onPath 3) .never fixedEnd).1 =
            .ok (.solved a, stats) := by
  have live : fixedEnd.Live := by decide
  have hkind : ((Plan.solve ⟨.static, .unordered, .none, 0⟩ (.onPath 3) .never fixedEnd).1.map
      fun o => o.1.kind) = .ok "solved" := by decide +kernel
  obtain ⟨outcome, hdecides, hall⟩ := Plan.solve_finds_first (.onPath 3) fixedEnd live rfl
  obtain ⟨stats, hnone⟩ := hall .none 0
  rw [hnone] at hkind
  cases hdecides with
  | solved first => exact ⟨live, rfl, _, first, hall⟩
  | unsatisfiable =>
    have hname : "unsatisfiable" = "solved" := Except.ok.inj hkind
    exact absurd hname (by decide)

end ConstraintNet
