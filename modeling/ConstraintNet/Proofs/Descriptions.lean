import ConstraintNet.Graph.Build
import ConstraintNet.Numbered
import Mathlib.Data.List.Duplicate
import Mathlib.Data.Prod.Lex
import Mathlib.Order.Fin.Basic

namespace ConstraintNet.Graph

variable {n : Nat}

/-- The list of `a` names `b`. -/
def Lists (lists : Vector (List Nat) n) (a b : Nat) : Prop := ∃ h : a < n, b ∈ lists.get ⟨a, h⟩

/-- What a graph on `n` variables can be built from. -/
inductive Description (n : Nat)
  | neighbors (lists : Vector (List Nat) n)
  | edges (list : List (Nat × Nat))
  | groups (list : List (List Nat))

namespace Description

def build : Description n → Except GraphFault (Graph n)
  | neighbors lists => ofNeighbors lists
  | edges list => ofEdges n list
  | groups list => ofGroups n list

/-- The pairs of numbers that the description relates. -/
def Relates : Description n → Nat → Nat → Prop
  | neighbors lists, a, b => Lists lists a b
  | edges list, a, b => (a, b) ∈ list ∨ (b, a) ∈ list
  | groups list, a, b => a ≠ b ∧ ∃ group ∈ list, a ∈ group ∧ b ∈ group

/-- Lists are within the range of the variables, without loops and symmetric. The ends of an edge
are two variables, and so are any two entries of a group. -/
def WellFormed : Description n → Prop
  | neighbors lists => ∀ a b, Lists lists a b → b < n ∧ a ≠ b ∧ Lists lists b a
  | edges list => ∀ edge ∈ list, edge.1 < n ∧ edge.2 < n ∧ edge.1 ≠ edge.2
  | groups list => ∀ group ∈ list, 2 ≤ group.length → (∀ a ∈ group, a < n) ∧ group.Nodup

/-- The description has the fault. Only neighbour lists can be one-sided. -/
def Shows : Description n → GraphFault → Prop
  | neighbors lists, .neighborOutOfRange a b size => size = n ∧ Lists lists a b ∧ ¬ b < n
  | neighbors lists, .selfNeighbor a => Lists lists a a
  | neighbors lists, .oneSided a b => Lists lists a b ∧ ¬ Lists lists b a
  | edges list, .edgeOutOfRange a b size => size = n ∧ (a, b) ∈ list ∧ ¬ (a < n ∧ b < n)
  | edges list, .selfNeighbor a => (a, a) ∈ list
  | groups list, .edgeOutOfRange a b size =>
    size = n ∧ (∃ group ∈ list, [a, b].Sublist group) ∧ ¬ (a < n ∧ b < n)
  | groups list, .selfNeighbor a => ∃ group ∈ list, List.Duplicate a group
  | _, _ => False

/-- What comes of a description: the graph of what it relates, or a fault that it has. -/
inductive Yields (d : Description n) : Except GraphFault (Graph n) → Prop
  | built {g : Graph n} (wellFormed : d.WellFormed)
      (adj : ∀ v w : Fin n, g.Adj v w ↔ d.Relates v w) : Yields d (.ok g)
  | refused {fault : GraphFault} (shows : d.Shows fault) : Yields d (.error fault)

theorem mem_map_ofList {lists : Vector (List Nat) n} {v : Fin n} {u : Nat} :
    u ∈ (lists.map SortedSet.ofList).get v ↔ u ∈ lists.get v := by
  have hget : (lists.map SortedSet.ofList).get v = SortedSet.ofList (lists.get v) :=
    Vector.getElem_map ..
  rw [hget, SortedSet.mem_ofList]

theorem shows_of_firstFault? {lists : Vector (List Nat) n} {fault : GraphFault}
    (found : firstFault? (lists.map SortedSet.ofList) = some fault) :
    (neighbors lists).Shows fault := by
  obtain ⟨v, -, found⟩ := List.exists_of_findSome?_eq_some found
  obtain ⟨u, hu, found⟩ := List.exists_of_findSome?_eq_some found
  have listed : Lists lists v u := ⟨v.isLt, mem_map_ofList.mp hu⟩
  unfold fault? at found
  split at found
  · split at found
    · rename_i loop
      cases found
      exact loop ▸ listed
    · split at found
      · cases found
      · rename_i missing
        cases found
        exact ⟨listed, fun ⟨_, back⟩ => missing (mem_map_ofList.mpr back)⟩
  · rename_i outside
    cases found
    exact ⟨rfl, listed, outside⟩

theorem yields_neighbors (lists : Vector (List Nat) n) :
    (neighbors lists).Yields (ofNeighbors lists) := by
  unfold ofNeighbors ofSets
  split
  · rename_i fault found
    exact .refused (shows_of_firstFault? found)
  · rename_i faultless
    have good := firstFault?_eq_none_iff.mp faultless
    refine .built ?_ fun v w => ?_
    · rintro a b ⟨ha, hb⟩
      obtain ⟨hne, hlt, hback⟩ := good ⟨a, ha⟩ b (mem_map_ofList.mpr hb)
      exact ⟨hlt, hne.symm, hlt, mem_map_ofList.mp hback⟩
    · have hmem : (ofFaultless _ good).Adj v w ↔ w.val ∈ (lists.map SortedSet.ofList).get v := by
        simp only [Adj, Graph.neighbors, ofFaultless, Family.get_ofFn, SortedSet.mem_toList,
          mem_variablesOf]
      rw [hmem, mem_map_ofList]
      refine ⟨fun h => ⟨v.isLt, h⟩, ?_⟩
      rintro ⟨_, h⟩
      exact h

theorem lists_set {lists : Vector (List Nat) n} {v : Fin n} {u a b : Nat} :
    Lists (lists.set v.val (u :: lists.get v) v.isLt) a b ↔
      Lists lists a b ∨ a = v.val ∧ b = u := by
  unfold Lists
  simp only [Family.get_set lists v]
  by_cases ha : a = v.val
  · subst ha
    simp [or_comm]
  · have hne (h : a < n) : (⟨a, h⟩ : Fin n) ≠ v := fun e => ha (congrArg Fin.val e)
    simp [hne, ha]

theorem exists_enter (lists : Vector (List Nat) n) {edge : Nat × Nat}
    (ends : edge.1 < n ∧ edge.2 < n) :
    ∃ next, enter lists edge = .ok next ∧
      ∀ a b, Lists next a b ↔ Lists lists a b ∨ (a, b) = edge ∨ (b, a) = edge := by
  obtain ⟨c, d⟩ := edge
  obtain ⟨hc, hd⟩ := ends
  let once := lists.set c (d :: lists.get ⟨c, hc⟩) hc
  refine ⟨once.set d (c :: once.get ⟨d, hd⟩) hd, dif_pos ⟨hc, hd⟩, fun a b => ?_⟩
  have first : Lists once a b ↔ Lists lists a b ∨ a = c ∧ b = d := lists_set (v := ⟨c, hc⟩)
  have second : Lists (once.set d (c :: once.get ⟨d, hd⟩) hd) a b ↔
      Lists once a b ∨ a = d ∧ b = c := lists_set (v := ⟨d, hd⟩)
  rw [second, first, Prod.mk.injEq, Prod.mk.injEq, or_assoc, and_comm (a := b = c)]

/-- Either all edges are entered, or the first one with an end outside the range is reported. -/
theorem foldlM_enter (list : List (Nat × Nat)) (lists : Vector (List Nat) n) :
    (∃ all, list.foldlM enter lists = .ok all ∧ (∀ edge ∈ list, edge.1 < n ∧ edge.2 < n) ∧
        ∀ a b, Lists all a b ↔ Lists lists a b ∨ (a, b) ∈ list ∨ (b, a) ∈ list) ∨
      ∃ edge ∈ list, ¬ (edge.1 < n ∧ edge.2 < n) ∧
        list.foldlM enter lists = .error (.edgeOutOfRange edge.1 edge.2 n) := by
  -- over the edges, for any lists entered before: these stay, and the first refusal ends the fold
  induction list generalizing lists with
  | nil => exact Or.inl ⟨lists, rfl, by simp, by simp⟩
  | cons edge rest ih =>
    rw [List.foldlM_cons]
    by_cases ends : edge.1 < n ∧ edge.2 < n
    · obtain ⟨next, hnext, hlists⟩ := exists_enter lists ends
      rw [hnext]
      rcases ih next with ⟨all, hall, within, hrest⟩ | ⟨other, hother, outside, hall⟩
      · refine Or.inl ⟨all, hall, List.forall_mem_cons.mpr ⟨ends, within⟩, fun a b => ?_⟩
        rw [hrest, hlists, List.mem_cons, List.mem_cons]
        tauto
      · exact Or.inr ⟨other, List.mem_cons_of_mem edge hother, outside, hall⟩
    · refine Or.inr ⟨edge, List.mem_cons_self, ends, ?_⟩
      rw [enter, dif_neg ends]
      rfl

theorem not_lists_replicate {a b : Nat} : ¬ Lists (Vector.replicate n []) a b := by
  rintro ⟨ha, hb⟩
  have hget : (Vector.replicate n ([] : List Nat)).get ⟨a, ha⟩ = [] := Vector.getElem_replicate ..
  rw [hget] at hb
  cases hb

theorem yields_edges (list : List (Nat × Nat)) : (edges list).Yields (ofEdges n list) := by
  unfold ofEdges
  rcases foldlM_enter list (Vector.replicate n []) with
    ⟨all, hfold, within, hlists⟩ | ⟨edge, hedge, outside, hfold⟩
  · have relates (a b : Nat) : Lists all a b ↔ (a, b) ∈ list ∨ (b, a) ∈ list := by
      rw [hlists, or_iff_right not_lists_replicate]
    have hall := yields_neighbors all
    rw [hfold]
    change Yields _ (ofNeighbors all)
    generalize ofNeighbors all = result at hall
    cases hall with
    | built wellFormed adj =>
      refine .built (fun edge hedge => ?_) fun v w => (adj v w).trans (relates v w)
      obtain ⟨-, hne, -⟩ := wellFormed edge.1 edge.2 ((relates _ _).mpr (Or.inl hedge))
      exact ⟨(within edge hedge).1, (within edge hedge).2, hne⟩
    | @refused fault shows =>
      -- what was entered in both directions is neither out of range nor one-sided
      cases fault with
      | neighborOutOfRange a b size =>
        obtain ⟨-, listed, outside⟩ := shows
        rcases (relates a b).mp listed with h | h
        · exact absurd (within _ h).2 outside
        · exact absurd (within _ h).1 outside
      | selfNeighbor a => exact .refused (((relates a a).mp shows).elim id id)
      | oneSided a b =>
        obtain ⟨listed, missing⟩ := shows
        exact absurd ((relates b a).mpr ((relates a b).mp listed).symm) missing
      | edgeOutOfRange | described => cases shows
  · rw [hfold]
    exact .refused ⟨rfl, hedge, outside⟩

/-- A pair of entries is a pair of places in the list. -/
theorem mem_pairs {l : List Nat} {a b : Nat} : (a, b) ∈ pairs l ↔ [a, b].Sublist l := by
  induction l with
  | nil => simp [pairs]
  | cons c rest ih =>
    rw [pairs, List.mem_append, ih, List.sublist_cons_iff]
    simp [or_comm, and_comm, eq_comm]

theorem forall_pairs {l : List Nat} {r : Nat → Nat → Prop} :
    (∀ edge ∈ pairs l, r edge.1 edge.2) ↔ l.Pairwise r := by
  rw [List.pairwise_iff_forall_sublist]
  exact ⟨fun h a b hab => h (a, b) (mem_pairs.mpr hab), fun h edge he => h (mem_pairs.mp he)⟩

theorem mem_pairs_or {l : List Nat} {a b : Nat} (ne : a ≠ b) :
    (a, b) ∈ pairs l ∨ (b, a) ∈ pairs l ↔ a ∈ l ∧ b ∈ l := by
  induction l with
  | nil => simp [pairs]
  | cons c rest ih =>
    have hboth : ¬ (a = c ∧ b = c) := fun h => ne (h.1.trans h.2.symm)
    simp only [pairs, List.mem_append, List.mem_map, Prod.mk.injEq, List.mem_cons,
      exists_eq_right_right]
    tauto

/-- Any two entries of a group are an edge. -/
theorem wellFormed_groups_iff {list : List (List Nat)} :
    (groups list : Description n).WellFormed ↔
      (edges (list.flatMap pairs) : Description n).WellFormed := by
  have hgroup (group : List Nat) :
      (2 ≤ group.length → (∀ a ∈ group, a < n) ∧ group.Nodup) ↔
        ∀ edge ∈ pairs group, edge.1 < n ∧ edge.2 < n ∧ edge.1 ≠ edge.2 := by
    rw [forall_pairs (r := fun a b => a < n ∧ b < n ∧ a ≠ b)]
    match group with
    -- without a pair nothing is asked, not even that the one entry is a variable
    | [] => simp
    | [a] => simp
    | a :: b :: rest =>
      refine ⟨fun h => ?_, fun h _ => ⟨fun c hc => ?_, h.imp fun hr => hr.2.2⟩⟩
      · obtain ⟨hlt, hnodup⟩ := h (by simp)
        exact hnodup.imp_of_mem fun hx hy hne => ⟨hlt _ hx, hlt _ hy, hne⟩
      · have hfirst := (List.pairwise_cons.mp h).1
        rcases List.mem_cons.mp hc with rfl | hc
        · exact (hfirst b List.mem_cons_self).1
        · exact (hfirst c hc).2.1
  simp only [WellFormed, hgroup, List.mem_flatMap]
  exact ⟨fun h edge ⟨group, hg, he⟩ => h group hg edge he, fun h group hg edge he =>
    h edge ⟨group, hg, he⟩⟩

theorem relates_groups_iff {list : List (List Nat)} {a b : Nat}
    (wellFormed : (groups list : Description n).WellFormed) :
    (groups list : Description n).Relates a b ↔
      (edges (list.flatMap pairs) : Description n).Relates a b := by
  have hedges := wellFormed_groups_iff.mp wellFormed
  have hne (h : (edges (list.flatMap pairs) : Description n).Relates a b) : a ≠ b :=
    h.elim (fun h => (hedges _ h).2.2) fun h => (hedges _ h).2.2.symm
  have hsplit : (edges (list.flatMap pairs) : Description n).Relates a b ↔
      ∃ group ∈ list, (a, b) ∈ pairs group ∨ (b, a) ∈ pairs group := by
    simp only [Relates, List.mem_flatMap, ← exists_or, ← and_or_left]
  constructor
  · rintro ⟨ne, group, hg, hab⟩
    exact hsplit.mpr ⟨group, hg, (mem_pairs_or ne).mpr hab⟩
  · intro h
    obtain ⟨group, hg, hab⟩ := hsplit.mp h
    exact ⟨hne h, group, hg, (mem_pairs_or (hne h)).mp hab⟩

theorem shows_groups_iff {list : List (List Nat)} {fault : GraphFault} :
    (groups list : Description n).Shows fault ↔
      (edges (list.flatMap pairs) : Description n).Shows fault := by
  cases fault with
  | edgeOutOfRange a b size => simp only [Shows, List.mem_flatMap, mem_pairs]
  | selfNeighbor a => simp only [Shows, List.mem_flatMap, mem_pairs, List.duplicate_iff_sublist]
  | neighborOutOfRange | oneSided | described => rfl

theorem yields_groups (list : List (List Nat)) : (groups list).Yields (ofGroups n list) := by
  have hedges := yields_edges (n := n) (list.flatMap pairs)
  unfold ofGroups
  generalize ofEdges n (list.flatMap pairs) = result at hedges ⊢
  cases hedges with
  | built wellFormed adj =>
    have hgroups := wellFormed_groups_iff.mpr wellFormed
    exact .built hgroups fun v w => (adj v w).trans (relates_groups_iff hgroups).symm
  | refused shows => exact .refused (shows_groups_iff.mpr shows)

theorem yields_build (d : Description n) : d.Yields d.build := by
  cases d with
  | neighbors lists => exact yields_neighbors lists
  | edges list => exact yields_edges list
  | groups list => exact yields_groups list

/-- A fault is a breach of what makes a description well formed. -/
theorem not_wellFormed_of_shows {d : Description n} {fault : GraphFault} (shows : d.Shows fault) :
    ¬ d.WellFormed := by
  have hedges (list : List (Nat × Nat)) (shows : (edges list : Description n).Shows fault) :
      ¬ (edges list : Description n).WellFormed := by
    intro wellFormed
    cases fault with
    | edgeOutOfRange a b size =>
      obtain ⟨ha, hb, -⟩ := wellFormed (a, b) shows.2.1
      exact shows.2.2 ⟨ha, hb⟩
    | selfNeighbor a => exact (wellFormed (a, a) shows).2.2 rfl
    | neighborOutOfRange | oneSided | described => cases shows
  -- groups come down to the edges between their members
  cases d with
  | neighbors lists =>
    intro wellFormed
    cases fault with
    | neighborOutOfRange a b size => exact shows.2.2 (wellFormed a b shows.2.1).1
    | selfNeighbor a => exact (wellFormed a a shows).2.1 rfl
    | oneSided a b => exact shows.2 (wellFormed a b shows.1).2.2
    | edgeOutOfRange | described => cases shows
  | edges list => exact hedges list shows
  | groups list =>
    rw [wellFormed_groups_iff]
    exact hedges _ (shows_groups_iff.mp shows)

theorem WellFormed.lt_of_relates {d : Description n} (wellFormed : d.WellFormed) {a b : Nat}
    (h : d.Relates a b) : a < n ∧ b < n := by
  have hedges (list : List (Nat × Nat)) (wellFormed : (edges list : Description n).WellFormed)
      (h : (edges list : Description n).Relates a b) : a < n ∧ b < n := by
    rcases h with h | h
    · exact ⟨(wellFormed _ h).1, (wellFormed _ h).2.1⟩
    · exact ⟨(wellFormed _ h).2.1, (wellFormed _ h).1⟩
  cases d with
  | neighbors lists => exact ⟨h.1, (wellFormed a b h).1⟩
  | edges list => exact hedges list wellFormed h
  | groups list =>
    exact hedges _ (wellFormed_groups_iff.mp wellFormed) ((relates_groups_iff wellFormed).mp h)

end Description

theorem pairwise_arcs (g : Graph n) :
    g.arcs.Pairwise fun a b => toLex (a.tail, a.head) < toLex (b.tail, b.head) := by
  apply List.pairwise_flatMap.mpr
  refine ⟨fun v _ => List.pairwise_map.mpr ?_, ?_⟩
  · apply (g.adjacent.get v).ascending.imp
    intro w u h
    exact Prod.Lex.toLex_lt_toLex.mpr (Or.inr ⟨rfl, Nat.compare_eq_lt.mp h⟩)
  · apply (List.pairwise_lt_finRange n).imp
    intro v w hlt a ha b hb
    obtain ⟨_, -, rfl⟩ := List.mem_map.mp ha
    obtain ⟨_, -, rfl⟩ := List.mem_map.mp hb
    exact Prod.Lex.toLex_lt_toLex.mpr (Or.inl hlt)

theorem nodup_arcs (g : Graph n) : g.arcs.Nodup := by
  apply g.pairwise_arcs.imp
  rintro a b hlt rfl
  exact lt_irrefl _ hlt

theorem areNeighbors_eq (g : Graph n) (v : Fin n) (b : Nat) :
    Numbered.areNeighbors g v b = .ok ((g.neighbors v).any fun w => w.val = b) := by
  rw [Numbered.areNeighbors, Numbered.resolve, dif_pos v.isLt]
  rfl

/-- The graph `g` holds what `d` relates and nothing else, in the one form that a graph has. -/
structure Depicts (g : Graph n) (d : Description n) : Prop where
  ascending : ∀ v, (g.neighbors v).Pairwise (· < ·)
  irreflexive : ∀ v, v ∉ g.neighbors v
  symmetric : ∀ v w, w ∈ g.neighbors v → v ∈ g.neighbors w
  within : ∀ a b, d.Relates a b → a < n ∧ b < n
  mem_neighbors : ∀ v w : Fin n, w ∈ g.neighbors v ↔ d.Relates v w
  areNeighbors : ∀ (v : Fin n) (b : Nat),
    ∃ answer, Numbered.areNeighbors g v b = .ok answer ∧ (answer = true ↔ d.Relates v b)
  arcs_once : g.arcs.Nodup
  mem_arcs : ∀ v w : Fin n, ⟨v, w⟩ ∈ g.arcs ↔ d.Relates v w

namespace Description

theorem depicts_of_build {d : Description n} {g : Graph n} (built : d.build = .ok g) :
    g.Depicts d := by
  have hyields := d.yields_build
  rw [built] at hyields
  cases hyields with
  | built wellFormed adj =>
    refine
      { ascending := fun v => (g.adjacent.get v).ascending.imp fun h => Nat.compare_eq_lt.mp h
        irreflexive := fun v => not_adj_self
        symmetric := fun v w => adj_comm.mp
        within := fun a b => wellFormed.lt_of_relates
        mem_neighbors := adj
        areNeighbors := fun v b => ⟨_, g.areNeighbors_eq v b, ?_⟩
        arcs_once := g.nodup_arcs
        mem_arcs := fun v w => Graph.mem_arcs.trans (adj v w) }
    simp only [List.any_eq_true, decide_eq_true_eq]
    constructor
    · rintro ⟨w, hw, rfl⟩
      exact (adj v w).mp hw
    · intro h
      exact ⟨⟨b, (wellFormed.lt_of_relates h).2⟩, (adj v _).mpr h, rfl⟩

/-- A description is accepted exactly if it is well formed, and what is wrong with any other one is
something that it says. The graph built holds what the description relates, in ascending lists;
two graphs are the same, however they were built, exactly if the same pairs were related. -/
theorem build_canonical (n : Nat) :
    (∀ d : Description n,
      ((∃ g, d.build = .ok g) ↔ d.WellFormed) ∧
        (d.WellFormed ∨ ∃ fault, d.build = .error fault ∧ d.Shows fault) ∧
          ∀ g, d.build = .ok g → g.Depicts d) ∧
      ∀ (d e : Description n) (g h : Graph n), d.build = .ok g → e.build = .ok h →
        (g = h ↔ ∀ a b, d.Relates a b ↔ e.Relates a b) := by
  refine ⟨fun d => ⟨?_, ?_, fun g => depicts_of_build⟩, fun d e g h hg hh => ?_⟩
  · have hyields := d.yields_build
    generalize d.build = result at hyields
    cases hyields with
    | built wellFormed => exact ⟨fun _ => wellFormed, fun _ => ⟨_, rfl⟩⟩
    | refused shows =>
      exact ⟨fun ⟨_, h⟩ => (by cases h), fun h => absurd h (not_wellFormed_of_shows shows)⟩
  · have hyields := d.yields_build
    generalize d.build = result at hyields
    cases hyields with
    | built wellFormed => exact Or.inl wellFormed
    | refused shows => exact Or.inr ⟨_, rfl, shows⟩
  -- the pairs that are related are pairs of variables, so the neighbours tell all of them
  · have hd := depicts_of_build hg
    have he := depicts_of_build hh
    refine ⟨?_, fun same => ext_adj fun v w => ?_⟩
    · rintro rfl a b
      constructor
      · intro hab
        obtain ⟨ha, hb⟩ := hd.within a b hab
        exact (he.mem_neighbors ⟨a, ha⟩ ⟨b, hb⟩).mp ((hd.mem_neighbors ⟨a, ha⟩ ⟨b, hb⟩).mpr hab)
      · intro hab
        obtain ⟨ha, hb⟩ := he.within a b hab
        exact (hd.mem_neighbors ⟨a, ha⟩ ⟨b, hb⟩).mp ((he.mem_neighbors ⟨a, ha⟩ ⟨b, hb⟩).mpr hab)
    · calc
        g.Adj v w ↔ d.Relates v w := hd.mem_neighbors v w
        _ ↔ e.Relates v w := same v w
        _ ↔ h.Adj v w := (he.mem_neighbors v w).symm

/-- Three variables in a row by edges, one of them entered twice. -/
def rowByEdges : Description 3 := edges [(1, 0), (2, 1), (0, 1)]

/-- The same by groups. A group of one relates nothing, whatever its entry. -/
def rowByGroups : Description 3 := groups [[1, 0], [7], [1, 2]]

theorem build_canonical_row : ∃ g, rowByEdges.build = .ok g ∧ rowByGroups.build = .ok g := by
  obtain ⟨haccepts, hsame⟩ := build_canonical 3
  have hedges : rowByEdges.WellFormed := by
    unfold rowByEdges WellFormed
    decide
  have hgroups : rowByGroups.WellFormed := by
    unfold rowByGroups WellFormed
    decide
  obtain ⟨g, hg⟩ := (haccepts rowByEdges).1.mpr hedges
  obtain ⟨h, hh⟩ := (haccepts rowByGroups).1.mpr hgroups
  have same (a b : Nat) : rowByEdges.Relates a b ↔ rowByGroups.Relates a b := by
    simp only [Relates, rowByEdges, rowByGroups, List.mem_cons, Prod.mk.injEq, List.not_mem_nil,
      or_false, ne_eq, exists_eq_or_imp, ↓existsAndEq, true_and]
    omega
  obtain rfl := (hsame _ _ g h hg hh).mpr same
  exact ⟨g, hg, hh⟩

end Description

end ConstraintNet.Graph
