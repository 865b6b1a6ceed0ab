import ConstraintNet.Branching
import ConstraintNet.Proofs.Entries

namespace ConstraintNet

namespace Random.Stream

variable {α : Type}

theorem perm_swapIfInBounds (a : Array α) (i j : Nat) :
    (a.swapIfInBounds i j).toList.Perm a.toList := by
  rw [Array.swapIfInBounds_def]
  split
  · split
    · exact (Array.swap_perm _ _).toList
    · exact .refl _
  · exact .refl _

theorem perm_shuffleFrom (i : Nat) (a : Array α) (s : Stream) :
    (shuffleFrom i a s).1.toList.Perm a.toList := by
  induction i generalizing a s with
  | zero => exact .refl _
  | succ i ih =>
    apply (ih _ _).trans
    exact perm_swapIfInBounds ..

theorem perm_shuffle (s : Stream) (l : List α) : (s.shuffle l).1.Perm l :=
  perm_shuffleFrom (l.length - 1) l.toArray s

end Random.Stream

variable {V : Type} [Value V] {n : Nat}

theorem VariableOrder.mem_of_select? {order : VariableOrder} {net : Network V n} {s : Store V n}
    {v : Fin n} (h : order.select? net s = some v) : v ∈ s.unassigned := by
  unfold select? at h
  split at h
  · cases h
  · rename_i first others hu
    cases h
    rw [hu]
    exact order.selectFrom_mem ..

theorem VariableOrder.free_of_select? {order : VariableOrder} {net : Network V n} {s : Store V n}
    {v : Fin n} (h : order.select? net s = some v) : s.value? v = none :=
  Store.mem_unassigned.mp (mem_of_select? h)

theorem VariableOrder.select?_eq_none {order : VariableOrder} {net : Network V n} {s : Store V n}
    (all : s.unassigned = []) : order.select? net s = none := by
  unfold select?
  rw [all]

theorem ValueOrder.perm_arrange (order : ValueOrder) (net : Network V n) (s : Store V n)
    (v : Fin n) (rng : Random.Stream) :
    (order.arrange net s v rng).1.Perm (s.domain v).toList := by
  cases order with
  | unordered => exact .refl _
  | random => exact rng.perm_shuffle _
  | lcv =>
    have hsort := (List.mergeSort_perm
      ((s.domain v).toList.map fun x => (net.eliminatedChoices s v x, x))
      fun a b => a.1 ≤ b.1).map Prod.snd
    rw [List.map_map, Function.comp_def, List.map_id'] at hsort
    exact hsort

theorem ValueOrder.mem_arrange {order : ValueOrder} {net : Network V n} {s : Store V n} {v : Fin n}
    {rng : Random.Stream} {x : V} : x ∈ (order.arrange net s v rng).1 ↔ x ∈ s.domain v :=
  (order.perm_arrange net s v rng).mem_iff

/-- A sort by a score leaves entries of one score in the order in which it finds them. -/
theorem pairwise_mergeSort_score {α : Type} {R : α → α → Prop} (score : α → Nat) {l : List α}
    (ordered : l.Pairwise R) :
    (l.mergeSort fun a b => score a ≤ score b).Pairwise
      fun a b => score a < score b ∨ score a = score b ∧ R a b := by
  have trans (a b c : α) (hab : decide (score a ≤ score b) = true)
      (hbc : decide (score b ≤ score c) = true) : decide (score a ≤ score c) = true := by
    simp only [decide_eq_true_eq] at hab hbc ⊢
    omega
  have total (a b : α) : (decide (score a ≤ score b) || decide (score b ≤ score a)) = true := by
    simp only [Bool.or_eq_true, decide_eq_true_eq]
    omega
  induction l with
  | nil => simp
  | cons a l ih =>
    obtain ⟨hfirst, hrest⟩ := List.pairwise_cons.mp ordered
    -- the first entry comes to stand after the entries of lower score and before all others
    obtain ⟨lower, others, hsort, hold, hlower⟩ := List.mergeSort_cons trans total a l
    have hsorted := List.pairwise_mergeSort trans total (a :: l)
    have hpair := ih hrest
    have hmem (b : α) (hb : b ∈ lower ++ others) : b ∈ l := by
      rw [← hold] at hb
      exact List.mem_mergeSort.mp hb
    rw [hsort, List.pairwise_append, List.pairwise_cons] at hsorted
    obtain ⟨-, ⟨hothers, -⟩, -⟩ := hsorted
    rw [hold, List.pairwise_append] at hpair
    obtain ⟨hbefore, hafter, hacross⟩ := hpair
    rw [hsort, List.pairwise_append, List.pairwise_cons]
    refine ⟨hbefore, ⟨fun b hb => ?_, hafter⟩, fun b hb c hc => ?_⟩
    · have hle : score a ≤ score b := of_decide_eq_true (hothers b hb)
      have hR : R a b := hfirst b (hmem b (List.mem_append_right _ hb))
      rcases Nat.lt_or_eq_of_le hle with hlt | heq
      · exact Or.inl hlt
      · exact Or.inr ⟨heq, hR⟩
    · rcases List.mem_cons.mp hc with heq | hc
      · have hlt := hlower b hb
        simp only [Bool.not_eq_true', decide_eq_false_iff_not] at hlt
        rw [heq]
        exact Or.inl (by omega)
      · exact hacross b hb c hc

/-- The scores are taken once for each value; the order is that of a sort of the values alone. -/
theorem ValueOrder.arrange_lcv (net : Network V n) (s : Store V n) (v : Fin n)
    (rng : Random.Stream) :
    (lcv.arrange net s v rng).1 =
      (s.domain v).toList.mergeSort fun x y =>
        net.eliminatedChoices s v x ≤ net.eliminatedChoices s v y := by
  have hsort := List.map_mergeSort (l := (s.domain v).toList)
    (f := fun x => (net.eliminatedChoices s v x, x))
    (r := fun x y => net.eliminatedChoices s v x ≤ net.eliminatedChoices s v y)
    (s := fun a b => a.1 ≤ b.1) (fun _ _ _ _ => rfl)
  simp only [arrange, ← hsort, List.map_map, Function.comp_def, List.map_id']

/-- Every order tries each value of the variable's domain exactly once, in some permutation. Values
that are not ordered ascend. By the choices that they eliminate, values come in groups that do not
descend, and ascend within a group. Neither of these two orders draws from the stream. -/
theorem ValueOrder.arrange_orders (net : Network V n) (s : Store V n) (v : Fin n)
    (rng : Random.Stream) :
    (∀ order : ValueOrder, (order.arrange net s v rng).1.Nodup ∧
        (order.arrange net s v rng).1.Perm (s.domain v).toList ∧
        ∀ x, x ∈ (order.arrange net s v rng).1 ↔ x ∈ s.domain v) ∧
      ((unordered.arrange net s v rng).1.Pairwise (fun x y => compare x y = .lt) ∧
        (unordered.arrange net s v rng).2 = rng) ∧
      ((lcv.arrange net s v rng).1.Pairwise (fun x y =>
          net.eliminatedChoices s v x < net.eliminatedChoices s v y ∨
            net.eliminatedChoices s v x = net.eliminatedChoices s v y ∧ compare x y = .lt) ∧
        (lcv.arrange net s v rng).2 = rng) := by
  have ascending := (s.domain v).ascending
  refine ⟨fun order => ?_, ⟨ascending, rfl⟩, ?_, rfl⟩
  · have hperm := order.perm_arrange net s v rng
    exact ⟨hperm.nodup_iff.mpr (s.domain v).nodup, hperm, fun x => mem_arrange⟩
  · rw [arrange_lcv]
    exact pairwise_mergeSort_score (net.eliminatedChoices s v) ascending

end ConstraintNet
