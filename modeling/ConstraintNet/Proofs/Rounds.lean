import ConstraintNet.Proofs.Inference
import Mathlib.Algebra.BigOperators.Fin

/-!
A lost value brings back at most one arc from each neighbour of its variable, so the values at the
start pay for every arc that the loop takes off its list.
-/

namespace ConstraintNet.Network

variable {V : Type} [Value V] {n : Nat}

/-- How a loop ends, and after how many rounds, depends on where it begins alone. -/
theorem Settles.unique {net : Network V n} {k k' : Nat} {w : WorkList (Arc (Fin n))}
    {s : Store V n} {e e' : Store V n × Propagation n} (h : net.Settles k w s e)
    (h' : net.Settles k' w s e') : k' = k ∧ e' = e := by
  -- both runs take the same arc off the list, and what revising it does selects the rule
  induction h generalizing k' with
  | idle popped =>
    cases h' with
    | idle => exact ⟨rfl, rfl⟩
    | kept popped' | emptied popped' | shrunk popped' => simp [popped] at popped'
  | kept popped same _ ih =>
    cases h' with
    | idle popped' => simp [popped] at popped'
    | kept popped' _ next' =>
      cases popped.symm.trans popped'
      obtain ⟨rfl, rfl⟩ := ih next'
      exact ⟨rfl, rfl⟩
    | emptied popped' changed' | shrunk popped' changed' =>
      cases popped.symm.trans popped'
      exact absurd same changed'
  | emptied popped changed empty =>
    cases h' with
    | idle popped' => simp [popped] at popped'
    | kept popped' same' =>
      cases popped.symm.trans popped'
      exact absurd same' changed
    | emptied popped' =>
      cases popped.symm.trans popped'
      exact ⟨rfl, rfl⟩
    | shrunk popped' _ left' =>
      cases popped.symm.trans popped'
      obtain ⟨x, hx⟩ := left'
      exact absurd hx (empty x)
  | shrunk popped changed left _ ih =>
    cases h' with
    | idle popped' => simp [popped] at popped'
    | kept popped' same' =>
      cases popped.symm.trans popped'
      exact absurd same' changed
    | emptied popped' _ empty' =>
      cases popped.symm.trans popped'
      obtain ⟨x, hx⟩ := left
      exact absurd hx (empty' x)
    | shrunk popped' _ _ next' =>
      cases popped.symm.trans popped'
      obtain ⟨rfl, rfl⟩ := ih next'
      exact ⟨rfl, rfl⟩

theorem weight_eq_sum (net : Network V n) (s : Store V n) :
    net.weight s = ∑ v, (s.domain v).size * (net.neighbors v).length := by
  simp only [weight, List.length_flatMap, List.map_const', List.sum_replicate, smul_eq_mul]
  rw [Fin.sum_univ_def]
  rfl

/-- Whatever arcs wait, the loop ends, in what `propagate` computes and in nothing else, after a
definite number of rounds, each of which takes one arc off the list: no more than wait at the start,
and one for each value of a variable and each of its neighbours. -/
theorem propagate_pops_few (net : Network V n) (w : WorkList (Arc (Fin n))) (s : Store V n) :
    ∃ k ≤ w.size + ∑ v, (s.domain v).size * (net.neighbors v).length,
      net.Settles k w s (net.propagate w s) ∧
        ∀ k' e, net.Settles k' w s e → k' = k ∧ e = net.propagate w s := by
  obtain ⟨k, hk, hsettles⟩ := net.settles_propagate w s
  rw [weight_eq_sum] at hk
  exact ⟨k, hk, hsettles, fun _ _ h => hsettles.unique h⟩

end ConstraintNet.Network
