import ConstraintNet.Proofs.Descriptions
import ConstraintNet.Proofs.Inference
import ConstraintNet.Proofs.Solutions
import Mathlib.Data.List.Pairwise
import Mathlib.Tactic.TFAE

namespace ConstraintNet

variable {V : Type} {n : Nat}

namespace Network

theorem conflictCount_eq_zero_iff {net : Network V n} {value? : Fin n → Option V} {v : Fin n}
    {x : V} : net.conflictCount value? v x = 0 ↔ net.isLegal value? v x = true := by
  simp only [conflictCount, isLegal, List.countP_eq_zero, List.all_eq_true]
  refine forall₂_congr fun u _ => ?_
  cases value? u with
  | none | some y => simp

/-- No entry of a variable is ruled out by those of its neighbours. -/
theorem compatible_iff_isLegal {net : Network V n} {value? : Fin n → Option V} :
    net.Compatible value? ↔ ∀ v x, value? v = some x → net.isLegal value? v x = true := by
  constructor
  · intro h v x hx
    exact isLegal_iff.mpr fun u y adj hy => h.consistent adj hx hy
  · intro h
    apply compatible_of_consistent
    intro v w x y adj hx hy
    exact isLegal_iff.mp (h v x hx) w y adj hy

/-- If the entries are those of neighbours, their values go together. -/
def Agrees (net : Network V n) (e f : Nat × V) : Prop :=
  ∀ v w : Fin n, v.val = e.1 → w.val = f.1 → net.graph.Adj v w → net.consistent v e.2 w f.2 = true

theorem Agrees.symm {net : Network V n} {e f : Nat × V} (h : net.Agrees e f) : net.Agrees f e := by
  intro v w hv hw adj
  rw [consistent_comm]
  exact h w v hw hv (Graph.adj_comm.mp adj)

theorem pairwise_agrees_iff {net : Network V n} {a : Assignment V} :
    a.toList.Pairwise net.Agrees ↔ net.Compatible (Assignment.value? a) := by
  constructor
  · intro h
    have hsymm : Std.Symm net.Agrees := ⟨fun _ _ => Agrees.symm⟩
    apply compatible_of_consistent
    intro v w x y adj hx hy
    have hne : (v.val, x) ≠ (w.val, y) := by
      intro e
      obtain rfl : v = w := Fin.ext (congrArg Prod.fst e)
      exact Graph.not_adj_self adj
    exact h.forall (Assignment.mem_toList.mpr hx) (Assignment.mem_toList.mpr hy) hne v w rfl rfl adj
  · intro h
    apply List.pairwise_of_forall_mem_list
    rintro ⟨_, x⟩ hx ⟨_, y⟩ hy v w rfl rfl adj
    exact h.consistent adj (Assignment.mem_toList.mp hx) (Assignment.mem_toList.mp hy)

end Network

variable [Value V]

namespace Network

/-- The entries are assigned one after the other, and each is legal when its turn comes. -/
def AssignsLegally (net : Network V n) : Store V n → List (Nat × V) → Prop
  | _, [] => True
  | s, (id, x) :: rest =>
    (∃ h : id < n, net.isLegal s.value? ⟨id, h⟩ x = true) ∧ net.AssignsLegally (s.assign id x) rest

/-- A variable that is assigned for the first time adds one thing to be legal against. -/
theorem isLegal_assign {net : Network V n} {s : Store V n} {u v : Fin n} {x y : V}
    (free : s.value? u = none) :
    net.isLegal (s.assign u.val x).value? v y = true ↔
      net.isLegal s.value? v y = true ∧ (net.graph.Adj v u → net.consistent v y u x = true) := by
  simp only [isLegal_iff, Store.value?_assign]
  constructor
  · intro h
    refine ⟨fun w z adj hz => h w z adj ?_, fun adj => h u x adj (if_pos rfl)⟩
    rw [if_neg]
    · exact hz
    · rintro rfl
      rw [free] at hz
      cases hz
  · rintro ⟨h, hu⟩ w z adj hz
    split at hz
    · rename_i hw
      cases hz
      exact hw ▸ hu (hw ▸ adj)
    · exact h w z adj hz

/-- After `u = x`, entries are legal exactly if they were before and agree with that entry. -/
theorem legal_after_iff {net : Network V n} {s : Store V n} {u : Fin n} {x : V}
    {l : List (Nat × V)} (free : s.value? u = none) :
    (∀ v y, (Fin.val v, y) ∈ l → net.isLegal (s.assign u.val x).value? v y = true) ↔
      (∀ v y, (Fin.val v, y) ∈ l → net.isLegal s.value? v y = true) ∧
        ∀ e ∈ l, net.Agrees (u.val, x) e := by
  simp only [isLegal_assign free]
  constructor
  · intro h
    refine ⟨fun v y hy => (h v y hy).1, ?_⟩
    rintro ⟨_, y⟩ hy
    apply Agrees.symm
    rintro v w rfl hw adj
    obtain rfl : w = u := Fin.ext hw
    exact (h v y hy).2 adj
  · rintro ⟨hlegal, hagrees⟩ v y hy
    exact ⟨hlegal v y hy, fun adj => (hagrees (v.val, y) hy).symm v u rfl rfl adj⟩

/-- Whether entries for free variables can be assigned legally is a matter of pairs of entries. -/
theorem assignsLegally_iff {net : Network V n} {s : Store V n} {l : List (Nat × V)}
    (below : ∀ e ∈ l, e.1 < n) (distinct : (l.map Prod.fst).Nodup)
    (free : ∀ v : Fin n, v.val ∈ l.map Prod.fst → s.value? v = none) :
    net.AssignsLegally s l ↔
      (∀ v x, (Fin.val v, x) ∈ l → net.isLegal s.value? v x = true) ∧ l.Pairwise net.Agrees := by
  induction l generalizing s with
  | nil => simp [AssignsLegally]
  | cons e rest ih =>
    obtain ⟨id, x⟩ := e
    let u : Fin n := ⟨id, below (id, x) List.mem_cons_self⟩
    have hbelow : ∀ e ∈ rest, e.1 < n := fun e he => below e (List.mem_cons_of_mem _ he)
    rw [List.map_cons] at distinct free
    obtain ⟨hnew, hdistinct⟩ := List.nodup_cons.mp distinct
    have hfree : s.value? u = none := free u List.mem_cons_self
    -- no entry of `rest` is for `u`, so these variables are still free after `u = x`
    have hrest := ih (s := s.assign id x) hbelow hdistinct fun v hv => by
      have hne : v ≠ u := by
        rintro rfl
        exact hnew hv
      rw [Store.value?_assign s u v x, if_neg hne]
      exact free v (List.mem_cons_of_mem _ hv)
    rw [AssignsLegally, hrest, legal_after_iff (u := u) hfree, List.pairwise_cons]
    constructor
    · rintro ⟨⟨_, hlegal⟩, ⟨hbefore, hagrees⟩, hpairs⟩
      refine ⟨fun v y hy => ?_, hagrees, hpairs⟩
      rcases List.mem_cons.mp hy with heq | hy
      · cases heq
        exact hlegal
      · exact hbefore v y hy
    · rintro ⟨hlegal, hagrees, hpairs⟩
      refine ⟨⟨u.isLt, hlegal u x List.mem_cons_self⟩, ⟨fun v y hy => ?_, hagrees⟩, hpairs⟩
      exact hlegal v y (List.mem_cons_of_mem _ hy)

/-- Entered into a store without assignment, an assignment is legal in every order or in none. -/
theorem assignsLegally_iff_compatible {net : Network V n} {s : Store V n} {a : Assignment V}
    (fresh : s.assignment = ∅) (below : ∀ id ∈ a, id < n) {l : List (Nat × V)}
    (order : l.Perm a.toList) :
    net.AssignsLegally s l ↔ net.Compatible (Assignment.value? a) := by
  have hids : (l.map Prod.fst).Perm a.keys := by
    rw [← Std.ExtTreeMap.map_fst_toList_eq_keys]
    exact order.map Prod.fst
  have hbelow : ∀ e ∈ l, e.1 < n := fun e he =>
    below e.1 (Assignment.mem_of_mem_toList (order.mem_iff.mp he))
  -- there is nothing yet to be legal against, which leaves the pairs of entries
  have hlegal (v : Fin n) (x : V) : net.isLegal s.value? v x = true := by
    apply isLegal_iff.mpr
    intro u y _ hy
    rw [Store.value?_of_fresh fresh] at hy
    cases hy
  rw [assignsLegally_iff hbelow (hids.nodup_iff.mpr a.nodup_keys)
    fun v _ => Store.value?_of_fresh fresh v]
  rw [and_iff_right fun v x _ => hlegal v x, order.pairwise_iff Agrees.symm, pairwise_agrees_iff]

/-- `v` and `w` are neighbours whose only values rule each other out. -/
def Clash (net : Network V n) (s : Store V n) (v w : Fin n) : Prop :=
  net.graph.Adj v w ∧
    ∃ x y, (s.domain v).only? = some x ∧ (s.domain w).only? = some y ∧
      net.consistent v x w y = false

theorem Clash.symm {net : Network V n} {s : Store V n} {v w : Fin n} (h : net.Clash s v w) :
    net.Clash s w v := by
  obtain ⟨adj, x, y, hx, hy, hbroken⟩ := h
  refine ⟨Graph.adj_comm.mp adj, y, x, hy, hx, ?_⟩
  rw [consistent_comm]
  exact hbroken

/-- The arc leads upward, between neighbours whose only values rule each other out. -/
def clashesUpward (net : Network V n) (s : Store V n) (a : Arc (Fin n)) : Bool :=
  a.tail < a.head && (s.domain a.tail).only?.any fun x =>
    (s.domain a.head).only?.any fun y => !net.consistent a.tail x a.head y

theorem clashesUpward_iff {net : Network V n} {s : Store V n} {a : Arc (Fin n)}
    (adj : net.graph.Adj a.tail a.head) :
    net.clashesUpward s a = true ↔ a.tail < a.head ∧ net.Clash s a.tail a.head := by
  simp [clashesUpward, Clash, adj, Option.any_eq_true]

theorem conflictingSingletons_eq (net : Network V n) (s : Store V n) :
    net.conflictingSingletons s =
      (net.graph.arcs.find? (net.clashesUpward s)).map fun a => (a.tail, a.head) := by
  unfold conflictingSingletons Graph.arcs
  rw [List.find?_flatMap, List.map_findSome?]
  congr 1
  funext v
  rw [Function.comp_apply, List.find?_map, Option.map_map]
  have htest : (net.clashesUpward s ∘ fun w => (⟨v, w⟩ : Arc (Fin n))) = fun w =>
      v < w && (s.domain v).only?.any fun x =>
        (s.domain w).only?.any fun y => !net.consistent v x w y := rfl
  rw [htest]
  cases (s.domain v).only? with
  | none =>
    have hnone : (net.graph.neighbors v).find? (fun _ => false) = none :=
      List.find?_eq_none.mpr fun _ _ => Bool.false_ne_true
    simp [hnone]
  | some x => simp [Function.comp_def, neighbors]

theorem conflictingSingletons_eq_none_iff {net : Network V n} {s : Store V n} :
    net.conflictingSingletons s = none ↔ ∀ v w, ¬ net.Clash s v w := by
  rw [conflictingSingletons_eq, Option.map_eq_none_iff, List.find?_eq_none]
  constructor
  · intro h v w clash
    -- only upward arcs are tested, and a clash is one seen from its lower end
    have upward {v w : Fin n} (hlt : v < w) (clash : net.Clash s v w) : False :=
      h ⟨v, w⟩ (Graph.mem_arcs.mpr clash.1) ((clashesUpward_iff clash.1).mpr ⟨hlt, clash⟩)
    rcases lt_trichotomy v w with hlt | rfl | hgt
    · exact upward hlt clash
    · exact Graph.not_adj_self clash.1
    · exact upward hgt clash.symm
  · intro h a ha hclash
    exact h a.tail a.head ((clashesUpward_iff (Graph.mem_arcs.mp ha)).mp hclash).2

/-- The pair that is found leads upward, and comes before every other pair that clashes. -/
theorem first_of_conflictingSingletons {net : Network V n} {s : Store V n} {v w : Fin n}
    (found : net.conflictingSingletons s = some (v, w)) :
    v < w ∧ net.Clash s v w ∧ ∀ a b, net.Clash s a b → toLex (v, w) ≤ toLex (a, b) := by
  rw [conflictingSingletons_eq] at found
  obtain ⟨⟨a, b⟩, hfind, heq⟩ := Option.map_eq_some_iff.mp found
  obtain ⟨rfl, rfl⟩ : v = a ∧ w = b := Prod.mk.inj heq.symm
  have hmem : ⟨v, w⟩ ∈ net.graph.arcs := List.mem_of_find?_eq_some hfind
  obtain ⟨hlt, hclash⟩ :=
    (clashesUpward_iff (Graph.mem_arcs.mp hmem)).mp (List.find?_some hfind)
  -- an upward clash stands at or after the one found
  have upward {a b : Fin n} (hab : a < b) (clash : net.Clash s a b) :
      toLex (v, w) ≤ toLex (a, b) := by
    have harc : ⟨a, b⟩ ∈ net.graph.arcs := Graph.mem_arcs.mpr clash.1
    have htest : net.clashesUpward s ⟨a, b⟩ = true :=
      (clashesUpward_iff clash.1).mpr ⟨hab, clash⟩
    rcases first_of_find? net.graph.pairwise_arcs hfind harc htest with heq | hlater
    · cases heq
      exact le_refl _
    · exact hlater.le
  refine ⟨hlt, hclash, fun a b clash => ?_⟩
  rcases lt_trichotomy a b with hab | rfl | hba
  · exact upward hab clash
  · exact absurd clash.1 Graph.not_adj_self
  · exact (upward hba clash.symm).trans (Prod.Lex.toLex_lt_toLex.mpr (Or.inl hba)).le

end Network

/-- Gives each variable with one value left this value, and no other variable a value. -/
def Store.onlyValues (s : Store V n) : Assignment V :=
  .ofPairs ((List.finRange n).filterMap fun v => (s.domain v).only?.map fun x => (v.val, x))

omit [Value V] in
theorem Assignment.value?_foldl_filterMap {f : Fin n → Option V} {l : List (Fin n)}
    {a : Assignment V} {w : Fin n} :
    value? ((l.filterMap fun v => (f v).map fun x => (v.val, x)).foldl
        (fun a (id, x) => a.insert id x) a) w =
      if w ∈ l then (f w).or (value? a w) else value? a w := by
  induction l generalizing a with
  | nil => rfl
  | cons v l ih =>
    rw [List.filterMap_cons]
    cases hv : f v with
    | none =>
      simp only [Option.map_none]
      rw [ih]
      by_cases hw : w = v
      · subst hw
        simp [hv]
      · simp [hw]
    | some x =>
      simp only [Option.map_some, List.foldl_cons]
      rw [ih, value?_insert]
      by_cases hw : w = v
      · subst hw
        simp [hv]
      · simp [hw]

theorem Store.value?_onlyValues (s : Store V n) (v : Fin n) :
    Assignment.value? s.onlyValues v = (s.domain v).only? := by
  rw [onlyValues, Assignment.ofPairs, Assignment.value?_foldl_filterMap,
    if_pos (List.mem_finRange v)]
  have hempty : Assignment.value? (∅ : Assignment V) v = none := Std.ExtTreeMap.getElem?_empty
  rw [hempty, Option.or_none]

theorem Store.lt_of_mem_onlyValues {s : Store V n} {id : Nat} (h : id ∈ s.onlyValues) :
    id < n := by
  rw [onlyValues, Assignment.ofPairs, Assignment.mem_foldl_insert] at h
  rcases h with h | ⟨e, he, rfl⟩
  · exact absurd h Std.ExtTreeMap.not_mem_empty
  · obtain ⟨v, -, hv⟩ := List.mem_filterMap.mp he
    obtain ⟨x, -, rfl⟩ := Option.map_eq_some_iff.mp hv
    exact v.isLt

namespace Network

theorem compatible_onlyValues_iff {net : Network V n} {s : Store V n} :
    net.Compatible (Assignment.value? s.onlyValues) ↔ ∀ v w, ¬ net.Clash s v w := by
  constructor
  · rintro h v w ⟨adj, x, y, hx, hy, hbroken⟩
    rw [h.consistent adj ((s.value?_onlyValues v).trans hx) ((s.value?_onlyValues w).trans hy)]
      at hbroken
    cases hbroken
  · intro h
    apply compatible_of_consistent
    intro v w x y adj hx hy
    rw [s.value?_onlyValues] at hx hy
    by_contra hbroken
    exact h v w ⟨adj, x, y, hx, hy, Bool.eq_false_iff.mpr hbroken⟩

/-- For an assignment to variables of the network, the check of the whole, the count of conflicts
of each entry, and the test of each entry when it is assigned after others, in whatever order, come
to the same. No two fixed variables are found to conflict exactly if their values pass the check,
and two that are found are the first in the order of their numbers. -/
theorem checks_agree (net : Network V n) (s : Store V n) :
    (∀ a : Assignment V, (∀ id ∈ a, id < n) →
      (∃ answer, net.isConsistent a = .ok answer) ∧
        List.TFAE [
          net.isConsistent a = .ok true,
          ∀ (v : Fin n) (x : V), a.value? v = some x → net.conflictCount a.value? v x = 0,
          ∀ l : List (Nat × V), l.Perm a.toList →
            net.AssignsLegally { s with assignment := ∅ } l,
          ∃ l : List (Nat × V), l.Perm a.toList ∧
            net.AssignsLegally { s with assignment := ∅ } l]) ∧
      (net.conflictingSingletons s = none ↔ net.isConsistent s.onlyValues = .ok true) ∧
        ∀ v w, net.conflictingSingletons s = some (v, w) ↔
          v < w ∧ net.Clash s v w ∧ ∀ a b, net.Clash s a b → toLex (v, w) ≤ toLex (a, b) := by
  refine ⟨fun a below => ⟨net.exists_isConsistent below, ?_⟩, ?_, fun v w => ?_⟩
  · have hlegal {l : List (Nat × V)} (order : l.Perm a.toList) :
        net.AssignsLegally { s with assignment := ∅ } l ↔ net.isConsistent a = .ok true :=
      (assignsLegally_iff_compatible rfl below order).trans (isConsistent_iff below).symm
    tfae_have 1 ↔ 2 := by
      rw [isConsistent_iff below, compatible_iff_isLegal]
      simp only [conflictCount_eq_zero_iff]
    tfae_have 1 → 3 := fun h l order => (hlegal order).mpr h
    tfae_have 3 → 4 := fun h => ⟨a.toList, .refl _, h _ (.refl _)⟩
    tfae_have 4 → 1 := fun ⟨l, order, h⟩ => (hlegal order).mp h
    tfae_finish
  · calc
      net.conflictingSingletons s = none ↔ ∀ v w, ¬ net.Clash s v w :=
        conflictingSingletons_eq_none_iff
      _ ↔ net.Compatible (Assignment.value? s.onlyValues) := compatible_onlyValues_iff.symm
      _ ↔ net.isConsistent s.onlyValues = .ok true :=
        (isConsistent_iff fun _ => Store.lt_of_mem_onlyValues).symm
  · refine ⟨first_of_conflictingSingletons, fun ⟨_, hclash, hfirst⟩ => ?_⟩
    cases hfound : net.conflictingSingletons s with
    | none => exact absurd hclash (conflictingSingletons_eq_none_iff.mp hfound v w)
    | some pair =>
      obtain ⟨a, b⟩ := pair
      obtain ⟨-, hother, hleast⟩ := first_of_conflictingSingletons hfound
      -- two pairs that are both first are one pair
      have hsame := le_antisymm (hleast v w hclash) (hfirst a b hother)
      exact congrArg some (toLex.injective hsame)

end Network

/-- A row of three variables whose values are to ascend. -/
def climb : Network UInt8 3 := ⟨.path 3, .ascending⟩

/-- Each variable has one value left, and the last two do not ascend. -/
def summit : Store UInt8 3 where
  domains := #v[.singleton 2, .singleton 5, .singleton 4]

theorem Network.checks_agree_summit :
    (∀ id ∈ summit.onlyValues, id < 3) ∧ climb.conflictingSingletons summit = some (1, 2) ∧
      ∀ l : List (Nat × UInt8), l.Perm summit.onlyValues.toList →
        ¬ climb.AssignsLegally summit l := by
  obtain ⟨hagree, hnone, -⟩ := climb.checks_agree summit
  have below : ∀ id ∈ summit.onlyValues, id < 3 := fun _ => Store.lt_of_mem_onlyValues
  have hfound : climb.conflictingSingletons summit = some (1, 2) := by decide +kernel
  refine ⟨below, hfound, fun l order legal => ?_⟩
  have hsome : ∃ l : List (Nat × UInt8), l.Perm summit.onlyValues.toList ∧
      climb.AssignsLegally { summit with assignment := ∅ } l := ⟨l, order, legal⟩
  have hconsistent := ((hagree summit.onlyValues below).2.out 0 3).mpr hsome
  rw [hnone.mpr hconsistent] at hfound
  cases hfound

end ConstraintNet
