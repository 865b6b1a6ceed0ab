import ConstraintNet.Proofs.Inference
import Mathlib.Data.Set.Lattice
import Mathlib.Order.Bounds.Basic

/-!
Among the arc-consistent families within the domains there is a greatest one, and `ac3` finds it,
although it never puts the opposite arc back: a value without support has supported nothing there.
-/

namespace ConstraintNet

variable {V : Type} [Value V] {n : Nat}

/-- The domains, as sets. -/
def Store.sets (s : Store V n) : Fin n → Set V := fun v => {x | x ∈ s.domain v}

namespace Network

omit [Value V] in
/-- Along every arc, each value of the family has a value of the family that goes with it. -/
def ArcConsistent (net : Network V n) (D : Fin n → Set V) : Prop :=
  ∀ v w, net.graph.Adj v w → ∀ x ∈ D v, ∃ y ∈ D w, net.consistent v x w y = true

theorem isSupported_iff {net : Network V n} {s : Store V n} {a : Arc (Fin n)} {x : V} :
    net.isSupported s a x = true ↔ ∃ y ∈ s.domain a.head, net.consistent a.tail x a.head y = true :=
  List.any_eq_true

theorem mem_domain_reviseArc {net : Network V n} {s : Store V n} {a : Arc (Fin n)} {v : Fin n}
    {x : V} : x ∈ (net.reviseArc s a).domain v ↔
      x ∈ s.domain v ∧ (v = a.tail → net.isSupported s a x = true) := Store.mem_domain_prune

/-- Revising an arc loses nothing of an arc-consistent family. -/
theorem ArcConsistent.le_reviseArc {net : Network V n} {D : Fin n → Set V}
    (hD : net.ArcConsistent D) {s : Store V n} {a : Arc (Fin n)}
    (adj : net.graph.Adj a.tail a.head) (hs : D ≤ s.sets) : D ≤ (net.reviseArc s a).sets := by
  intro v x hx
  refine mem_domain_reviseArc.mpr ⟨hs v hx, ?_⟩
  intro hv
  subst hv
  obtain ⟨y, hy, hxy⟩ := hD a.tail a.head adj x hx
  exact isSupported_iff.mpr ⟨y, hs a.head hy, hxy⟩

theorem ArcConsistent.le_propagate {net : Network V n} {D : Fin n → Set V}
    (hD : net.ArcConsistent D) {w : WorkList (Arc (Fin n))}
    (arcs : ∀ a ∈ w.toList, net.graph.Adj a.tail a.head) {s : Store V n} (hs : D ≤ s.sets) :
    D ≤ (net.propagate w s).1.sets := by
  obtain ⟨k, -, hsettles⟩ := net.settles_propagate w s
  exact hsettles.keeps (P := fun t => D ≤ t.sets) (fun _ _ adj ht => hD.le_reviseArc adj ht) arcs hs

theorem ArcConsistent.le_ac3 {net : Network V n} {D : Fin n → Set V} (hD : net.ArcConsistent D)
    {s : Store V n} (hs : D ≤ s.sets) : D ≤ (net.ac3 s).1.sets :=
  hD.le_propagate (fun _ ha => mem_extend_arcs.mp ha) hs

/-- Every value at the tail of the arc is supported. -/
def Settled (net : Network V n) (s : Store V n) (a : Arc (Fin n)) : Prop :=
  ∀ x ∈ s.domain a.tail, net.isSupported s a x = true

theorem settled_reviseArc_self {net : Network V n} (s : Store V n) {a : Arc (Fin n)}
    (adj : net.graph.Adj a.tail a.head) : net.Settled (net.reviseArc s a) a := by
  have hne : a.head ≠ a.tail := by
    intro e
    rw [e] at adj
    exact Graph.not_adj_self adj
  intro x hx
  obtain ⟨y, hy, hxy⟩ := isSupported_iff.mp ((mem_domain_reviseArc.mp hx).2 rfl)
  exact isSupported_iff.mpr ⟨y, mem_domain_reviseArc.mpr ⟨hy, fun e => absurd e hne⟩, hxy⟩

/-- An arc stays settled while another variable than its head is revised. -/
theorem Settled.reviseArc_of_head_ne {net : Network V n} {s : Store V n} {a b : Arc (Fin n)}
    (h : net.Settled s b) (hne : b.head ≠ a.tail) : net.Settled (net.reviseArc s a) b := by
  intro x hx
  obtain ⟨y, hy, hxy⟩ := isSupported_iff.mp (h x (mem_domain_reviseArc.mp hx).1)
  exact isSupported_iff.mpr ⟨y, mem_domain_reviseArc.mpr ⟨hy, fun e => absurd e hne⟩, hxy⟩

/-- The opposite arc stays settled: a value that supports another is itself supported by it. -/
theorem Settled.reviseArc_opposite {net : Network V n} {s : Store V n} {a : Arc (Fin n)}
    (h : net.Settled s ⟨a.head, a.tail⟩) : net.Settled (net.reviseArc s a) ⟨a.head, a.tail⟩ := by
  intro y hy
  have hy' : y ∈ s.domain a.head := (mem_domain_reviseArc.mp hy).1
  obtain ⟨x, hx, hyx⟩ := isSupported_iff.mp (h y hy')
  have hxy : net.consistent a.tail x a.head y = true := by
    rw [consistent_comm]
    exact hyx
  have hsupported : net.isSupported s a x = true := isSupported_iff.mpr ⟨y, hy', hxy⟩
  exact isSupported_iff.mpr ⟨x, mem_domain_reviseArc.mpr ⟨hx, fun _ => hsupported⟩, hyx⟩

/-- An arc that is not waiting stays settled, or it waits again once the disturbed arcs were added. -/
theorem Settled.reviseArc {net : Network V n} {s : Store V n} {a b : Arc (Fin n)}
    (h : net.Settled s b) (adj : net.graph.Adj b.tail b.head) :
    b ∈ net.disturbedBy a ∨ net.Settled (net.reviseArc s a) b := by
  -- only arcs towards the revised variable can be disturbed, and not the opposite one
  by_cases hhead : b.head = a.tail
  · by_cases htail : b.tail = a.head
    · obtain rfl : b = ⟨a.head, a.tail⟩ := by rw [← hhead, ← htail]
      exact Or.inr h.reviseArc_opposite
    · have hneighbor : b.tail ∈ net.neighbors a.tail := Graph.adj_comm.mp (hhead ▸ adj)
      have hother : b.tail ∈ (net.neighbors a.tail).filter (· ≠ a.head) :=
        List.mem_filter.mpr ⟨hneighbor, by simpa using htail⟩
      exact Or.inl (List.mem_map.mpr ⟨b.tail, hother, by rw [← hhead]⟩)
  · exact Or.inr (h.reviseArc_of_head_ne hhead)

/-- If every arc that is not waiting is settled, then an end without a wipeout leaves every arc
settled. -/
theorem Settles.settled {net : Network V n} {k : Nat} {w : WorkList (Arc (Fin n))}
    {s : Store V n} {e : Store V n × Propagation n} (h : net.Settles k w s e)
    (inv : ∀ b, net.graph.Adj b.tail b.head → b ∈ w.toList ∨ net.Settled s b)
    (arcs : ∀ b ∈ w.toList, net.graph.Adj b.tail b.head) (consistent : e.2 = .consistent) :
    ∀ b, net.graph.Adj b.tail b.head → net.Settled e.1 b := by
  -- the arcs that are not waiting stay settled: a revised arc is settled itself, and those that it
  -- disturbs are put on the list
  induction h with
  | idle popped =>
    intro b adj
    have hnil := WorkList.pop?_eq_none_iff.mp popped
    exact (inv b adj).resolve_left (by simp [hnil])
  | @kept _ w rest a s e popped same _ ih =>
    rw [WorkList.toList_of_pop? popped] at inv arcs
    refine ih ?_ (fun b hb => arcs b (List.mem_cons_of_mem a hb)) consistent
    intro b adj
    rcases inv b adj with hb | hb
    · rcases List.mem_cons.mp hb with rfl | hb
      · exact Or.inr (same ▸ settled_reviseArc_self s adj)
      · exact Or.inl hb
    · exact Or.inr hb
  | emptied => cases consistent
  | @shrunk _ w rest a s e popped _ _ _ ih =>
    rw [WorkList.toList_of_pop? popped] at inv arcs
    refine ih ?_ ?_ consistent
    · intro b adj
      rw [WorkList.mem_extend]
      rcases inv b adj with hb | hb
      · rcases List.mem_cons.mp hb with rfl | hb
        · exact Or.inr (settled_reviseArc_self s adj)
        · exact Or.inl (Or.inl hb)
      · rcases hb.reviseArc adj with hdisturbed | hsettled
        · exact Or.inl (Or.inr hdisturbed)
        · exact Or.inr hsettled
    · intro b hb
      rcases WorkList.mem_extend.mp hb with hb | hb
      · exact arcs b (List.mem_cons_of_mem a hb)
      · exact adj_of_mem_disturbedBy hb

/-- The loop over `w` has nothing to make up for: only arcs of the graph wait, and every arc that
does not wait is settled. -/
structure Primed (net : Network V n) (w : WorkList (Arc (Fin n))) (s : Store V n) : Prop where
  arcs : ∀ a ∈ w.toList, net.graph.Adj a.tail a.head
  others : ∀ a, net.graph.Adj a.tail a.head → a ∈ w.toList ∨ net.Settled s a

theorem primed_arcs (net : Network V n) (s : Store V n) :
    net.Primed (WorkList.empty.extend net.graph.arcs) s where
  arcs _ ha := mem_extend_arcs.mp ha
  others _ adj := Or.inl (mem_extend_arcs.mpr adj)

theorem Primed.settled {net : Network V n} {w : WorkList (Arc (Fin n))} {s : Store V n}
    (h : net.Primed w s) (consistent : (net.propagate w s).2 = .consistent) {a : Arc (Fin n)}
    (adj : net.graph.Adj a.tail a.head) : net.Settled (net.propagate w s).1 a := by
  obtain ⟨k, -, hsettles⟩ := net.settles_propagate w s
  exact hsettles.settled h.others h.arcs consistent a adj

theorem Primed.arcConsistent {net : Network V n} {w : WorkList (Arc (Fin n))} {s : Store V n}
    (h : net.Primed w s) (consistent : (net.propagate w s).2 = .consistent) :
    net.ArcConsistent (net.propagate w s).1.sets :=
  fun v u adj x hx => isSupported_iff.mp (h.settled consistent (a := ⟨v, u⟩) adj x hx)

theorem arcConsistent_ac3 {net : Network V n} {s : Store V n}
    (consistent : (net.ac3 s).2 = .consistent) : net.ArcConsistent (net.ac3 s).1.sets :=
  (net.primed_arcs s).arcConsistent consistent

/-- The union of the arc-consistent families within the domains. -/
def core (net : Network V n) (s : Store V n) : Fin n → Set V := fun v =>
  {x | ∃ D, D ≤ s.sets ∧ net.ArcConsistent D ∧ x ∈ D v}

theorem isGreatest_core (net : Network V n) (s : Store V n) :
    IsGreatest {D | D ≤ s.sets ∧ net.ArcConsistent D} (net.core s) := by
  refine ⟨⟨?_, ?_⟩, ?_⟩
  · rintro v x ⟨D, hD, -, hx⟩
    exact hD v hx
  · rintro v w adj x ⟨D, hD, hcons, hx⟩
    obtain ⟨y, hy, hxy⟩ := hcons v w adj x hx
    exact ⟨y, ⟨D, hD, hcons, hy⟩, hxy⟩
  · rintro D ⟨hD, hcons⟩ v x hx
    exact ⟨D, hD, hcons, hx⟩

/-- The loop over a primed list ends without a wipeout in the greatest arc-consistent family, in
whatever order its arcs are revised. -/
theorem Primed.sets_eq_core {net : Network V n} {w : WorkList (Arc (Fin n))} {s : Store V n}
    (h : net.Primed w s) (consistent : (net.propagate w s).2 = .consistent) :
    (net.propagate w s).1.sets = net.core s := by
  obtain ⟨⟨hwithin, hcore⟩, hgreatest⟩ := net.isGreatest_core s
  have hfewer : (net.propagate w s).1.sets ≤ s.sets :=
    fun _ _ hx => (infers_propagate h.arcs s).advances.descends.mem hx
  exact le_antisymm (hgreatest ⟨hfewer, h.arcConsistent consistent⟩)
    (hcore.le_propagate h.arcs hwithin)

/-- The loop over a primed list wipes out a domain exactly if the greatest arc-consistent family
has an empty set. -/
theorem Primed.consistent_iff {net : Network V n} {w : WorkList (Arc (Fin n))} {s : Store V n}
    (h : net.Primed w s) (live : s.Live) :
    (net.propagate w s).2 = .consistent ↔ ∀ v, (net.core s v).Nonempty := by
  have hreports := net.reports_propagate w live
  constructor
  · intro consistent v
    rw [← h.sets_eq_core consistent]
    simp only [Reports, consistent] at hreports
    exact hreports v
  · intro hall
    obtain ⟨⟨hwithin, hcore⟩, -⟩ := net.isGreatest_core s
    cases hverdict : (net.propagate w s).2 with
    | consistent => rfl
    | wipeout v =>
      simp only [Reports, hverdict] at hreports
      obtain ⟨x, hx⟩ := hall v
      exact absurd (hcore.le_propagate h.arcs hwithin v hx) (hreports x)

/-- Arc consistency from all arcs ends, and computes the greatest arc-consistent family within the
domains: without a wipeout its domains are that family, and a wipeout, whose variable has lost
every value, is reported exactly if some set of the family is empty. -/
theorem ac3_computes_greatest (net : Network V n) (s : Store V n) (live : s.Live) :
    (∃ k, net.Settles k (WorkList.empty.extend net.graph.arcs) s (net.ac3 s)) ∧
      ∃ G, IsGreatest {D | D ≤ s.sets ∧ net.ArcConsistent D} G ∧
        ((net.ac3 s).2 = .consistent ↔ ∀ v, (G v).Nonempty) ∧
        ((net.ac3 s).2 = .consistent → (net.ac3 s).1.sets = G) ∧
        ∀ w, (net.ac3 s).2 = .wipeout w →
          G ≤ (net.ac3 s).1.sets ∧ (net.ac3 s).1.sets w = ∅ := by
  obtain ⟨k, -, hsettles⟩ := net.settles_propagate (WorkList.empty.extend net.graph.arcs) s
  have hreports : Reports (net.ac3 s) := hsettles.reports live
  have hgreatest := net.isGreatest_core s
  have hcore : net.core s ≤ (net.ac3 s).1.sets := hgreatest.1.2.le_ac3 hgreatest.1.1
  have hfinal : (net.ac3 s).1.sets ≤ s.sets := by
    intro v x hx
    exact (net.infers_ac3 s).advances.descends.mem hx
  -- the final domains are themselves arc consistent, so the greatest family lies between them and
  -- itself
  have hsame (consistent : (net.ac3 s).2 = .consistent) : (net.ac3 s).1.sets = net.core s :=
    le_antisymm (hgreatest.2 ⟨hfinal, arcConsistent_ac3 consistent⟩) hcore
  refine ⟨⟨k, hsettles⟩, net.core s, hgreatest, ?_, hsame, ?_⟩
  · cases hverdict : (net.ac3 s).2 with
    | consistent =>
      refine ⟨fun _ v => ?_, fun _ => rfl⟩
      rw [← hsame hverdict]
      simp only [Reports, hverdict] at hreports
      exact hreports v
    | wipeout w =>
      simp only [Reports, hverdict] at hreports
      constructor
      · intro h
        cases h
      · intro hall
        obtain ⟨x, hx⟩ := hall w
        exact absurd (hcore w hx) (hreports x)
  · intro w hverdict
    simp only [Reports, hverdict] at hreports
    exact ⟨hcore, Set.eq_empty_iff_forall_notMem.mpr hreports⟩

end Network

/-- Three variables in a row, the last of them fixed. -/
def fixedEnd : Store UInt8 3 := { domains := #v[.ofList [1, 2], .ofList [1, 2], .singleton 2] }

theorem Network.ac3_computes_greatest_fixedEnd :
    fixedEnd.Live ∧
      ∃ G, IsGreatest {D | D ≤ fixedEnd.sets ∧ (onPath 3).ArcConsistent D} G ∧
        (((onPath 3).ac3 fixedEnd).2 = .consistent ↔ ∀ v, (G v).Nonempty) ∧
        (((onPath 3).ac3 fixedEnd).2 = .consistent → ((onPath 3).ac3 fixedEnd).1.sets = G) := by
  have live : fixedEnd.Live := by decide
  obtain ⟨-, G, hgreatest, hiff, hsame, -⟩ := (onPath 3).ac3_computes_greatest fixedEnd live
  exact ⟨live, G, hgreatest, hiff, hsame⟩

end ConstraintNet
