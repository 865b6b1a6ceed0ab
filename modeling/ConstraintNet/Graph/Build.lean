import ConstraintNet.Error
import ConstraintNet.Graph

/-!
Graphs from neighbour lists, from edges and from groups, all by number. A description is refused
with the first fault met by variable and then by neighbour.
-/

namespace ConstraintNet.Graph

variable {n : Nat}

/-- What is wrong with `u` as a neighbour of `v`. -/
def fault? (sets : Vector (SortedSet Nat) n) (v : Fin n) (u : Nat) : Option GraphFault :=
  if h : u < n then
    if u = v then some (.selfNeighbor v)
    else if v.val ∈ sets.get ⟨u, h⟩ then none
    else some (.oneSided v u)
  else some (.neighborOutOfRange v u n)

def firstFault? (sets : Vector (SortedSet Nat) n) : Option GraphFault :=
  (List.finRange n).findSome? fun v => (sets.get v).toList.findSome? (fault? sets v)

theorem fault?_eq_none_iff {sets : Vector (SortedSet Nat) n} {v : Fin n} {u : Nat} :
    fault? sets v u = none ↔ u ≠ v ∧ ∃ h : u < n, v.val ∈ sets.get ⟨u, h⟩ := by
  unfold fault?
  split
  · split <;> simp_all
  · rename_i h
    simp [h]

theorem firstFault?_eq_none_iff {sets : Vector (SortedSet Nat) n} :
    firstFault? sets = none ↔
      ∀ v : Fin n, ∀ u ∈ sets.get v, u ≠ v ∧ ∃ h : u < n, v.val ∈ sets.get ⟨u, h⟩ := by
  simp [firstFault?, List.findSome?_eq_none_iff, fault?_eq_none_iff, SortedSet.mem_toList]

/-- Reads a set of numbers below `n` as variables. -/
def variablesOf (s : SortedSet Nat) (below : ∀ u ∈ s, u < n) : SortedSet (Fin n) where
  toList := s.toList.pmap Fin.mk below
  ascending := List.Pairwise.pmap s.ascending below fun _ _ _ _ h => h

theorem mem_variablesOf {s : SortedSet Nat} {below : ∀ u ∈ s, u < n} {w : Fin n} :
    w ∈ variablesOf s below ↔ w.val ∈ s := by
  change w ∈ s.toList.pmap Fin.mk below ↔ w.val ∈ s.toList
  rw [List.mem_pmap]
  exact ⟨fun ⟨u, hu, e⟩ => e ▸ hu, fun h => ⟨w.val, h, rfl⟩⟩

def ofFaultless (sets : Vector (SortedSet Nat) n)
    (good : ∀ v : Fin n, ∀ u ∈ sets.get v, u ≠ v ∧ ∃ h : u < n, v.val ∈ sets.get ⟨u, h⟩) : Graph n where
  adjacent := Vector.ofFn fun v => variablesOf (sets.get v) fun u hu => (good v u hu).2.1
  irreflexive v h := by
    simp only [Family.get_ofFn, mem_variablesOf] at h
    exact (good v v h).1 rfl
  symmetric v w h := by
    simp only [Family.get_ofFn, mem_variablesOf] at h ⊢
    exact (good v w h).2.2

def ofSets (sets : Vector (SortedSet Nat) n) : Except GraphFault (Graph n) :=
  match h : firstFault? sets with
  | some fault => .error fault
  | none => .ok (ofFaultless sets (firstFault?_eq_none_iff.1 h))

/-- The graph in which the neighbours of the `v`-th variable are those of the `v`-th list. -/
def ofNeighbors (lists : Vector (List Nat) n) : Except GraphFault (Graph n) :=
  ofSets (lists.map SortedSet.ofList)

/-- Enters an edge in both directions. -/
def enter (lists : Vector (List Nat) n) (edge : Nat × Nat) :
    Except GraphFault (Vector (List Nat) n) :=
  if h : edge.1 < n ∧ edge.2 < n then
    let lists := lists.set edge.1 (edge.2 :: lists.get ⟨edge.1, h.1⟩) h.1
    .ok (lists.set edge.2 (edge.1 :: lists.get ⟨edge.2, h.2⟩) h.2)
  else .error (.edgeOutOfRange edge.1 edge.2 n)

def ofEdges (n : Nat) (edges : List (Nat × Nat)) : Except GraphFault (Graph n) := do
  ofNeighbors (← edges.foldlM enter (Vector.replicate n []))

/-- Every pair of entries of a list, the earlier one first. -/
def pairs : List Nat → List (Nat × Nat)
  | [] => []
  | a :: rest => rest.map (fun b => (a, b)) ++ pairs rest

/-- The graph in which the members of each group are neighbours of each other. -/
def ofGroups (n : Nat) (groups : List (List Nat)) : Except GraphFault (Graph n) :=
  ofEdges n (groups.flatMap pairs)

end ConstraintNet.Graph
