import ConstraintNet.SortedSet

/-!
Adjacency is symmetric and irreflexive by construction, and each neighbour list is ascending, so a
graph is determined by its adjacency (`Graph.ext_adj`).
-/

namespace ConstraintNet.Family

variable {α : Type} {n : Nat}

@[simp] theorem get_ofFn (f : Fin n → α) (v : Fin n) : (Vector.ofFn f).get v = f v :=
  Vector.getElem_ofFn v.isLt

theorem get_set (xs : Vector α n) (v w : Fin n) (x : α) :
    (xs.set v.val x v.isLt).get w = if w = v then x else xs.get w := by
  have read : (xs.set v.val x v.isLt).get w = (xs.set v.val x v.isLt)[w.val] := rfl
  rw [read, Vector.getElem_set]
  by_cases h : w = v
  · simp [h]
  · have hval : ¬ v.val = w.val := fun e => h (Fin.ext e.symm)
    simp only [hval, h, if_false]
    rfl

end ConstraintNet.Family

namespace ConstraintNet

/-- A directed arc: the values of `tail` are held against those of `head`. -/
structure Arc (ι : Type) where
  tail : ι
  head : ι
  deriving DecidableEq, Repr

namespace Arc

variable {ι : Type} [Ord ι]

instance : Ord (Arc ι) where
  compare := compareLex (compareOn Arc.tail) (compareOn Arc.head)

instance [Std.TransOrd ι] : Std.TransOrd (Arc ι) :=
  inferInstanceAs (Std.TransCmp (compareLex (compareOn Arc.tail) (compareOn Arc.head)))

instance [Std.TransOrd ι] [Std.LawfulEqOrd ι] : Std.LawfulEqOrd (Arc ι) where
  compare_self := Std.ReflOrd.compare_self
  eq_of_compare {a b} h := by
    obtain ⟨ht, hh⟩ := compareLex_eq_eq.1 h
    cases a
    cases b
    cases Std.LawfulEqOrd.eq_of_compare (α := ι) ht
    cases Std.LawfulEqOrd.eq_of_compare (α := ι) hh
    rfl

end Arc

/-- A finite undirected graph without loops. -/
structure Graph (n : Nat) where
  adjacent : Vector (SortedSet (Fin n)) n
  irreflexive : ∀ v : Fin n, v ∉ adjacent.get v
  symmetric : ∀ v w : Fin n, w ∈ adjacent.get v → v ∈ adjacent.get w

namespace Graph

variable {n : Nat}

instance : DecidableEq (Graph n) := fun g h =>
  decidable_of_iff (g.adjacent = h.adjacent)
    ⟨fun e => by cases g; cases h; cases e; rfl, fun e => e ▸ rfl⟩

/-- The neighbours of `v`, in ascending order. -/
def neighbors (g : Graph n) (v : Fin n) : List (Fin n) := (g.adjacent.get v).toList

def Adj (g : Graph n) (v w : Fin n) : Prop := w ∈ g.neighbors v

instance (g : Graph n) (v w : Fin n) : Decidable (g.Adj v w) :=
  inferInstanceAs (Decidable (w ∈ g.neighbors v))

def degree (g : Graph n) (v : Fin n) : Nat := (g.neighbors v).length

/-- Every edge once in each direction, by tail and then by head. -/
def arcs (g : Graph n) : List (Arc (Fin n)) :=
  (List.finRange n).flatMap fun v => (g.neighbors v).map fun w => ⟨v, w⟩

theorem adj_comm {g : Graph n} {v w : Fin n} : g.Adj v w ↔ g.Adj w v :=
  ⟨g.symmetric v w, g.symmetric w v⟩

theorem not_adj_self {g : Graph n} {v : Fin n} : ¬ g.Adj v v := g.irreflexive v

theorem nodup_neighbors (g : Graph n) (v : Fin n) : (g.neighbors v).Nodup := (g.adjacent.get v).nodup

theorem mem_arcs {g : Graph n} {a : Arc (Fin n)} : a ∈ g.arcs ↔ g.Adj a.tail a.head := by
  cases a
  simp [arcs, Adj]

theorem ext_adj {g h : Graph n} (e : ∀ v w, g.Adj v w ↔ h.Adj v w) : g = h := by
  have same : g.adjacent = h.adjacent :=
    Vector.ext fun i hi => SortedSet.ext fun w => e ⟨i, hi⟩ w
  cases g
  cases h
  cases same
  rfl

/-- All variables, in ascending order. -/
def everyone (n : Nat) : SortedSet (Fin n) :=
  ⟨List.finRange n, (List.pairwise_lt_finRange n).imp fun h => Nat.compare_eq_lt.2 h⟩

/-- The graph of a symmetric and irreflexive relation. -/
def ofRelation (r : Fin n → Fin n → Bool) (irreflexive : ∀ v, r v v = false)
    (symmetric : ∀ v w, r v w → r w v) : Graph n where
  adjacent := Vector.ofFn fun v => (everyone n).filter (r v)
  irreflexive v := by simp [irreflexive]
  symmetric v w h := by
    have memEveryone (u : Fin n) : u ∈ everyone n := List.mem_finRange u
    simp only [Family.get_ofFn, SortedSet.mem_filter] at h ⊢
    exact ⟨memEveryone v, symmetric v w h.2⟩

theorem adj_ofRelation {r : Fin n → Fin n → Bool} {hi : ∀ v, r v v = false}
    {hs : ∀ v w, r v w → r w v} {v w : Fin n} : (ofRelation r hi hs).Adj v w ↔ r v w := by
  simp [Adj, neighbors, ofRelation, everyone]

/-- The other members of the zones of `v`, zone by zone. -/
def fellows (zones : List (List (Fin n))) (v : Fin n) : List (Fin n) :=
  (zones.filter fun zone => zone.contains v).flatMap fun zone => zone.filter fun w => w ≠ v

theorem mem_fellows {zones : List (List (Fin n))} {v w : Fin n} :
    w ∈ fellows zones v ↔ w ≠ v ∧ ∃ zone ∈ zones, v ∈ zone ∧ w ∈ zone := by
  simp only [fellows, List.mem_flatMap, List.mem_filter, List.contains_iff_mem, decide_eq_true_eq]
  constructor
  · rintro ⟨zone, ⟨hzone, hv⟩, hw, hne⟩
    exact ⟨hne, zone, hzone, hv, hw⟩
  · rintro ⟨hne, zone, hzone, hv, hw⟩
    exact ⟨zone, ⟨hzone, hv⟩, hw, hne⟩

/-- The graph in which the members of each zone are neighbours of each other. -/
def ofZones (zones : List (List (Fin n))) : Graph n where
  adjacent := Vector.ofFn fun v => .ofList (fellows zones v)
  irreflexive v := by simp [mem_fellows]
  symmetric v w h := by
    simp only [Family.get_ofFn, SortedSet.mem_ofList, mem_fellows] at h ⊢
    obtain ⟨hne, zone, hzone, hv, hw⟩ := h
    exact ⟨hne.symm, zone, hzone, hw, hv⟩

theorem adj_ofZones {zones : List (List (Fin n))} {v w : Fin n} :
    (ofZones zones).Adj v w ↔ w ≠ v ∧ ∃ zone ∈ zones, v ∈ zone ∧ w ∈ zone := by
  simp [Adj, neighbors, ofZones, mem_fellows]

end Graph

end ConstraintNet
