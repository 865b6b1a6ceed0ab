import ConstraintNet.Proofs.Choices
import ConstraintNet.Proofs.Solutions
import Mathlib.Data.Prod.Lex
import Mathlib.Data.Set.Card

namespace ConstraintNet

variable {V : Type} [Value V] {n : Nat}

/-- The numbers of a rank, in lexicographic order. -/
def Rank.key (r : Rank) : ℤ ×ₗ ℤ := toLex (r.first, r.second)

theorem Rank.lt_iff {r t : Rank} : r < t ↔ r.key < t.key := by
  rw [key, key, Prod.Lex.toLex_lt_toLex]
  rfl

/-- Where an entry stands: by its rank, and among entries of one rank by itself. -/
def standing {α : Type} (rank : α → Rank) (a : α) : (ℤ ×ₗ ℤ) ×ₗ α := toLex ((rank a).key, a)

theorem standing_firstLeastFrom_le {α : Type} [LinearOrder α] (rank : α → Rank) {best : α}
    {l : List α} (ascending : (best :: l).Pairwise (· < ·)) {b : α} (hb : b ∈ best :: l) :
    standing rank (firstLeastFrom rank best (rank best) l) ≤ standing rank b := by
  -- whichever of the best entry and the next one is dropped stands behind the other
  induction l generalizing best b with
  | nil =>
    rw [List.mem_singleton.mp hb]
    exact le_refl _
  | cons a rest ih =>
    obtain ⟨hbest, hrest⟩ := List.pairwise_cons.mp ascending
    simp only [firstLeastFrom]
    split
    · rename_i hlower
      rcases List.mem_cons.mp hb with rfl | hb
      · have hbehind : standing rank a < standing rank b :=
          Prod.Lex.toLex_lt_toLex.mpr (Or.inl (Rank.lt_iff.mp hlower))
        exact (ih hrest List.mem_cons_self).trans hbehind.le
      · exact ih hrest hb
    · rename_i hlower
      have hothers : (best :: rest).Pairwise (· < ·) :=
        ascending.sublist (List.Sublist.cons_cons best (List.sublist_cons_self a rest))
      rcases List.mem_cons.mp hb with rfl | hb
      · exact ih hothers List.mem_cons_self
      · rcases List.mem_cons.mp hb with rfl | hb
        · have hkey : (rank best).key ≤ (rank b).key := not_lt.mp (mt Rank.lt_iff.mpr hlower)
          have hbehind : standing rank best ≤ standing rank b := by
            apply Prod.Lex.toLex_le_toLex.mpr
            rcases hkey.lt_or_eq with hlt | heq
            · exact Or.inl hlt
            · exact Or.inr ⟨heq, (hbest b List.mem_cons_self).le⟩
          exact (ih hothers List.mem_cons_self).trans hbehind
        · exact ih hothers (List.mem_cons_of_mem best hb)

namespace Network

/-- The values of `v` that go, in both directions, with the values that its neighbours have. -/
def fitting (net : Network V n) (s : Store V n) (v : Fin n) : Set V :=
  {x | x ∈ s.domain v ∧ ∀ u y, net.graph.Adj v u → s.value? u = some y →
    net.relation v x u y = true ∧ net.relation u y v x = true}

/-- The neighbours of `v` without a value. -/
def openNeighbors (net : Network V n) (s : Store V n) (v : Fin n) : Set (Fin n) :=
  {u | net.graph.Adj v u ∧ s.value? u = none}

end Network

/-- A list without repetitions is counted as the set of what passes the test. -/
theorem ncard_eq_countP {α : Type} {S : Set α} {l : List α} {p : α → Bool} (nodup : l.Nodup)
    (mem : ∀ a, a ∈ S ↔ a ∈ l ∧ p a = true) : S.ncard = l.countP p := by
  classical
  have hset : S = ((l.filter p).toFinset : Set α) := by
    ext a
    simp [mem]
  rw [hset, Set.ncard_coe_finset, List.toFinset_card_of_nodup (nodup.filter p),
    List.countP_eq_length_filter]

namespace Network

theorem remainingValues_eq (net : Network V n) (s : Store V n) (v : Fin n) :
    net.remainingValues s v = (net.fitting s v).ncard := by
  refine (ncard_eq_countP (s.domain v).nodup fun x => ?_).symm
  rw [isLegal_iff]
  simp only [consistent, Bool.and_eq_true]
  rfl

theorem unassignedDegree_eq (net : Network V n) (s : Store V n) (v : Fin n) :
    net.unassignedDegree s v = (net.openNeighbors s v).ncard := by
  refine (ncard_eq_countP (net.graph.nodup_neighbors v) fun u => ?_).symm
  rw [Store.isAssigned_eq]
  simp [openNeighbors, Graph.Adj]

end Network

namespace VariableOrder

/-- `order.Precedes net s v u`: the order puts `v` strictly before `u`. Fewer fitting values are
better, more open neighbours are, and the lesser number decides last. -/
def Precedes (order : VariableOrder) (net : Network V n) (s : Store V n) (v u : Fin n) : Prop :=
  let values (w : Fin n) := (net.fitting s w).ncard
  let free (w : Fin n) := OrderDual.toDual (net.openNeighbors s w).ncard
  match order with
  | static => v < u
  | mrv => toLex (values v, v) < toLex (values u, u)
  | degree => toLex (free v, v) < toLex (free u, u)
  | mrvDegree => toLex (values v, toLex (free v, v)) < toLex (values u, toLex (free u, u))

theorem precedes_iff {order : VariableOrder} {net : Network V n} {s : Store V n} {v u : Fin n} :
    order.Precedes net s v u ↔ standing (order.rank net s) v < standing (order.rank net s) u := by
  -- the counts are natural numbers, and in a rank the greater one is made the lesser by its sign
  simp only [Precedes, standing, Rank.key, rank, ← Network.remainingValues_eq,
    ← Network.unassignedDegree_eq]
  cases order with
  | static | mrv | degree => simp [Prod.Lex.toLex_lt_toLex]
  | mrvDegree =>
    simp only [Prod.Lex.toLex_lt_toLex, toLex_inj, Prod.mk.injEq, OrderDual.toDual_lt_toDual,
      OrderDual.toDual_inj]
    omega

theorem Precedes.asymm {order : VariableOrder} {net : Network V n} {s : Store V n} {v u : Fin n}
    (h : order.Precedes net s v u) : ¬ order.Precedes net s u v := by
  rw [precedes_iff] at h ⊢
  exact h.asymm

/-- Of variables listed in ascending order, the one selected precedes every other. -/
theorem precedes_selectFrom (order : VariableOrder) (net : Network V n) (s : Store V n)
    {v u : Fin n} {rest : List (Fin n)} (ascending : (v :: rest).Pairwise (· < ·))
    (hu : u ∈ v :: rest) (other : u ≠ order.selectFrom net s v rest) :
    order.Precedes net s (order.selectFrom net s v rest) u := by
  have hle := standing_firstLeastFrom_le (order.rank net s) ascending hu
  rw [precedes_iff]
  refine lt_of_le_of_ne hle fun same => other ?_
  exact (congrArg Prod.snd (toLex.injective same)).symm

theorem select?_eq_none_iff {order : VariableOrder} {net : Network V n} {s : Store V n} :
    order.select? net s = none ↔ ∀ v, s.value? v ≠ none := by
  constructor
  · intro h v free
    have hv := Store.mem_unassigned.mpr free
    unfold select? at h
    split at h
    · rename_i hnil
      rw [hnil] at hv
      cases hv
    · cases h
  · intro assigned
    apply select?_eq_none
    apply List.eq_nil_iff_forall_not_mem.mpr
    exact fun v hv => assigned v (Store.mem_unassigned.mp hv)

theorem precedes_of_select? {order : VariableOrder} {net : Network V n} {s : Store V n}
    {v u : Fin n} (selected : order.select? net s = some v) (free : s.value? u = none)
    (other : u ≠ v) : order.Precedes net s v u := by
  have ascending : s.unassigned.Pairwise (· < ·) := (List.pairwise_lt_finRange n).filter _
  have hu := Store.mem_unassigned.mpr free
  unfold select? at selected
  split at selected
  · cases selected
  · rename_i hopen
    cases selected
    rw [hopen] at ascending hu
    exact order.precedes_selectFrom net s ascending hu other

/-- The next variable is the best of those without a value, and there is none only if every variable
has one. One that is better than every other variable without a value is the one selected, so the
counts and the numbers of the variables leave no choice. -/
theorem select?_exact (order : VariableOrder) (net : Network V n) (s : Store V n) :
    (order.select? net s = none ↔ ∀ v, ∃ x, s.value? v = some x) ∧
      ∀ v, order.select? net s = some v ↔
        s.value? v = none ∧ ∀ u, s.value? u = none → u ≠ v → order.Precedes net s v u := by
  constructor
  · simp only [select?_eq_none_iff, Option.ne_none_iff_exists']
  · intro v
    constructor
    · intro selected
      exact ⟨free_of_select? selected, fun u free other => precedes_of_select? selected free other⟩
    · rintro ⟨free, best⟩
      cases hselect : order.select? net s with
      | none => exact absurd free (select?_eq_none_iff.mp hselect v)
      | some w =>
        by_contra hne
        have hvw : w ≠ v := fun e => hne (congrArg some e)
        have hbest := best w (free_of_select? hselect) hvw
        exact hbest.asymm (precedes_of_select? hselect free hvw.symm)

end VariableOrder

end ConstraintNet
