import ConstraintNet.Proofs.Rewinding
import ConstraintNet.Propagation
import Mathlib.Logic.Relation

/-!
Whatever forward checking and arc consistency do to a store is a sequence of two kinds of step:
holding a free variable against the value of a neighbour, and revising an arc.
-/

namespace ConstraintNet

namespace SortedSet

variable {α : Type} [Ord α]

theorem isEmpty_eq_false_iff {s : SortedSet α} : s.isEmpty = false ↔ ∃ a, a ∈ s := by
  rw [isEmpty, List.isEmpty_eq_false_iff_exists_mem]
  rfl

theorem not_mem_of_isEmpty {s : SortedSet α} (h : s.isEmpty = true) (a : α) : a ∉ s := by
  intro ha
  rw [isEmpty_eq_false_iff.mpr ⟨a, ha⟩] at h
  cases h

theorem eq_singleton [Std.TransOrd α] [Std.LawfulEqOrd α] {s : SortedSet α} {a : α}
    (nonempty : ∃ b, b ∈ s) (all : ∀ b ∈ s, b = a) : s = .singleton a := by
  apply ext
  intro b
  rw [mem_singleton]
  refine ⟨all b, ?_⟩
  rintro rfl
  obtain ⟨c, hc⟩ := nonempty
  exact all c hc ▸ hc

end SortedSet

namespace WorkList

variable {α : Type} [Ord α] [Std.TransOrd α] [Std.LawfulEqOrd α]

theorem mem_push {w : WorkList α} {a b : α} : b ∈ (w.push a).toList ↔ b ∈ w.toList ∨ b = a := by
  rw [toList_push]
  by_cases h : a ∈ w.waiting
  · have ha : a ∈ w.toList := (w.mem_waiting a).mp h
    rw [if_pos h]
    constructor
    · exact Or.inl
    · rintro (hb | rfl)
      · exact hb
      · exact ha
  · rw [if_neg h, List.mem_append, List.mem_singleton]

theorem mem_extend {w : WorkList α} {l : List α} {b : α} :
    b ∈ (w.extend l).toList ↔ b ∈ w.toList ∨ b ∈ l := by
  induction l generalizing w with
  | nil => simp [extend]
  | cons a l ih =>
    change b ∈ ((w.push a).extend l).toList ↔ _
    rw [ih, mem_push, List.mem_cons, or_assoc]

end WorkList

namespace Store

variable {V : Type} [Value V] {n : Nat}

/-- Every variable has a value left. -/
def Live (s : Store V n) : Prop := ∀ v, ∃ x, x ∈ s.domain v

instance (s : Store V n) : Decidable s.Live :=
  decidable_of_iff (∀ v, (s.domain v).isEmpty = false)
    (forall_congr' fun _ => SortedSet.isEmpty_eq_false_iff)

theorem exists_mem_prune_of_ne {s : Store V n} (live : s.Live) {v w : Fin n} (hne : w ≠ v)
    (keep : V → Bool) : ∃ x, x ∈ (s.prune v keep).domain w := by
  obtain ⟨x, hx⟩ := live w
  exact ⟨x, mem_domain_prune.mpr ⟨hx, fun e => absurd e hne⟩⟩

theorem live_prune {s : Store V n} (live : s.Live) {v : Fin n} {keep : V → Bool}
    (left : ∃ x, x ∈ (s.prune v keep).domain v) : (s.prune v keep).Live := by
  intro w
  by_cases h : w = v
  · exact h ▸ left
  · exact exists_mem_prune_of_ne live h keep

theorem prune_eq_self {s : Store V n} {v : Fin n} {keep : V → Bool}
    (all : ∀ x ∈ s.domain v, keep x = true) : s.prune v keep = s := by
  have domains : (s.prune v keep).domains = s.domains := by
    apply domains_ext
    intro w x
    rw [mem_domain_prune]
    exact ⟨And.left, fun hx => ⟨hx, fun e => all x (e ▸ hx)⟩⟩
  have nothing : s.cut v keep = [] := by
    apply List.eq_nil_iff_forall_not_mem.mpr
    intro r hr
    obtain ⟨-, hr, hlost⟩ := mem_cut.mp hr
    rw [all _ hr] at hlost
    cases hlost
  have trail : (s.prune v keep).trail = s.trail := by rw [trail_prune, nothing, List.nil_append]
  calc
    s.prune v keep = ⟨(s.prune v keep).domains, s.assignment, (s.prune v keep).trail⟩ := rfl
    _ = s := by rw [domains, trail]

theorem prune_eq_self_of_size {s : Store V n} {v : Fin n} {keep : V → Bool}
    (same : ((s.prune v keep).domain v).size = (s.domain v).size) : s.prune v keep = s := by
  apply prune_eq_self
  rw [domain_prune, if_pos rfl] at same
  exact List.length_filter_eq_length_iff.mp same

end Store

namespace Network

variable {V : Type} [Value V] {n : Nat}

/-- One step of inference: a variable without a value is held against the value of a neighbour, or
an arc of the graph is revised. -/
inductive Deduces (net : Network V n) : Store V n → Store V n → Prop
  | byValue {s : Store V n} {v u : Fin n} {x : V} (adj : net.graph.Adj v u)
      (given : s.value? v = some x) (free : s.value? u = none) : Deduces net s (net.revise s u v x)
  | byArc {s : Store V n} {a : Arc (Fin n)} (adj : net.graph.Adj a.tail a.head) :
      Deduces net s (net.reviseArc s a)

/-- Any number of steps of inference. -/
abbrev Infers (net : Network V n) : Store V n → Store V n → Prop :=
  Relation.ReflTransGen net.Deduces

theorem Infers.keeps {net : Network V n} {P : Store V n → Prop}
    (step : ∀ s t, net.Deduces s t → P s → P t) {s t : Store V n} (h : net.Infers s t) (hs : P s) :
    P t := by
  induction h with
  | refl => exact hs
  | tail _ hstep ih => exact step _ _ hstep ih

theorem Deduces.advances {net : Network V n} {s t : Store V n} (h : net.Deduces s t) :
    s.Advances t := by
  cases h with
  | byValue | byArc => exact Store.advances_prune ..

theorem Deduces.assignment_eq {net : Network V n} {s t : Store V n} (h : net.Deduces s t) :
    t.assignment = s.assignment := by
  cases h with
  | byValue | byArc => rfl

theorem Infers.advances {net : Network V n} {s t : Store V n} (h : net.Infers s t) :
    s.Advances t :=
  h.keeps (fun _ _ hstep hs => hs.trans hstep.advances) (Store.advances_refl s)

theorem Infers.assignment_eq {net : Network V n} {s t : Store V n} (h : net.Infers s t) :
    t.assignment = s.assignment :=
  h.keeps (P := fun t => t.assignment = s.assignment)
    (fun _ _ hstep hs => hstep.assignment_eq.trans hs) rfl

/-- `net.Settles k w s e`: the loop over the work list `w` ends from `s` in `e` after `k` rounds. -/
inductive Settles (net : Network V n) :
    Nat → WorkList (Arc (Fin n)) → Store V n → Store V n × Propagation n → Prop
  | idle {w : WorkList (Arc (Fin n))} {s : Store V n} (popped : w.pop? = none) :
      Settles net 0 w s (s, .consistent)
  | kept {k : Nat} {w rest : WorkList (Arc (Fin n))} {a : Arc (Fin n)} {s : Store V n}
      {e : Store V n × Propagation n} (popped : w.pop? = some (a, rest))
      (same : net.reviseArc s a = s) (next : Settles net k rest s e) : Settles net (k + 1) w s e
  | emptied {w rest : WorkList (Arc (Fin n))} {a : Arc (Fin n)} {s : Store V n}
      (popped : w.pop? = some (a, rest)) (changed : net.reviseArc s a ≠ s)
      (empty : ∀ x, x ∉ (net.reviseArc s a).domain a.tail) :
      Settles net 1 w s (net.reviseArc s a, .wipeout a.tail)
  | shrunk {k : Nat} {w rest : WorkList (Arc (Fin n))} {a : Arc (Fin n)} {s : Store V n}
      {e : Store V n × Propagation n} (popped : w.pop? = some (a, rest))
      (changed : net.reviseArc s a ≠ s) (left : ∃ x, x ∈ (net.reviseArc s a).domain a.tail)
      (next : Settles net k (rest.extend (net.disturbedBy a)) (net.reviseArc s a) e) :
      Settles net (k + 1) w s e

/-- The loop ends, and the arcs waiting together with the weight of the store bound its rounds. -/
theorem settles_propagate (net : Network V n) (w : WorkList (Arc (Fin n))) (s : Store V n) :
    ∃ k ≤ w.size + net.weight s, net.Settles k w s (net.propagate w s) := by
  have hloses {s : Store V n} {a : Arc (Fin n)}
      (changed : ((net.reviseArc s a).domain a.tail).size ≠ (s.domain a.tail).size) :
      net.reviseArc s a ≠ s := fun same => changed (by rw [same])
  -- each round takes an arc off the list; the arcs that a loss of values adds are fewer than the
  -- degree by which that loss makes the store lighter
  fun_induction propagate net w s with
  | case1 w s popped => exact ⟨0, Nat.zero_le _, .idle popped⟩
  | case2 w s a rest popped before revised same ih =>
    have hself : net.reviseArc s a = s := Store.prune_eq_self_of_size same
    have hsize := WorkList.size_of_pop? popped
    obtain ⟨k, hk, hnext⟩ := ih
    dsimp only [revised] at hk hnext ⊢
    rw [hself] at hk hnext ⊢
    exact ⟨k + 1, by omega, .kept popped hself hnext⟩
  | case3 w s a rest popped before revised changed empty =>
    have hsize := WorkList.size_of_pop? popped
    exact ⟨1, by omega, .emptied popped (hloses changed) (SortedSet.not_mem_of_isEmpty empty)⟩
  | case4 w s a rest popped before revised changed nonempty ih =>
    have hless := size_extend_add_weight_lt popped changed
    obtain ⟨k, hk, hnext⟩ := ih
    have hleft := SortedSet.isEmpty_eq_false_iff.mp (Bool.eq_false_iff.mpr nonempty)
    dsimp only [revised] at hk hnext
    exact ⟨k + 1, by omega, .shrunk popped (hloses changed) hleft hnext⟩

omit [Value V] in
theorem adj_of_mem_disturbedBy {net : Network V n} {a b : Arc (Fin n)}
    (h : b ∈ net.disturbedBy a) : net.graph.Adj b.tail b.head := by
  obtain ⟨u, hu, rfl⟩ := List.mem_map.mp h
  exact Graph.adj_comm.mp (List.mem_filter.mp hu).1

theorem Settles.keeps {net : Network V n} {P : Store V n → Prop}
    (step : ∀ s a, net.graph.Adj a.tail a.head → P s → P (net.reviseArc s a)) {k : Nat}
    {w : WorkList (Arc (Fin n))} {s : Store V n} {e : Store V n × Propagation n}
    (h : net.Settles k w s e) (arcs : ∀ a ∈ w.toList, net.graph.Adj a.tail a.head) (hs : P s) :
    P e.1 := by
  -- the list holds arcs of the graph only, also after the disturbed ones were added
  induction h with
  | idle => exact hs
  | kept popped _ _ ih =>
    rw [WorkList.toList_of_pop? popped] at arcs
    exact ih (fun b hb => arcs b (List.mem_cons_of_mem _ hb)) hs
  | emptied popped =>
    rw [WorkList.toList_of_pop? popped] at arcs
    exact step _ _ (arcs _ List.mem_cons_self) hs
  | shrunk popped _ _ _ ih =>
    rw [WorkList.toList_of_pop? popped] at arcs
    refine ih ?_ (step _ _ (arcs _ List.mem_cons_self) hs)
    intro b hb
    rcases WorkList.mem_extend.mp hb with hb | hb
    · exact arcs b (List.mem_cons_of_mem _ hb)
    · exact adj_of_mem_disturbedBy hb

theorem infers_propagate {net : Network V n} {w : WorkList (Arc (Fin n))}
    (arcs : ∀ a ∈ w.toList, net.graph.Adj a.tail a.head) (s : Store V n) :
    net.Infers s (net.propagate w s).1 := by
  obtain ⟨k, -, h⟩ := net.settles_propagate w s
  exact h.keeps (fun _ _ adj hs => hs.tail (.byArc adj)) arcs .refl

omit [Value V] in
/-- `ac3` starts with every arc of the graph, and with nothing else. -/
theorem mem_extend_arcs {net : Network V n} {a : Arc (Fin n)} :
    a ∈ (WorkList.empty.extend net.graph.arcs).toList ↔ net.graph.Adj a.tail a.head := by
  rw [WorkList.mem_extend, WorkList.toList_empty, Graph.mem_arcs]
  simp

theorem infers_ac3 (net : Network V n) (s : Store V n) : net.Infers s (net.ac3 s).1 :=
  infers_propagate (fun _ ha => mem_extend_arcs.mp ha) s

/-- The arcs with which `mac` begins: those from the free neighbours of `v`. -/
def toward (net : Network V n) (s : Store V n) (v : Fin n) : List (Arc (Fin n)) :=
  ((net.neighbors v).filter fun u => !s.isAssigned u).map fun u => ⟨u, v⟩

theorem mac_eq (net : Network V n) (s : Store V n) (v : Fin n) :
    net.mac s v = net.propagate (WorkList.empty.extend (net.toward s v)) s := rfl

theorem mem_extend_toward {net : Network V n} {s : Store V n} {v : Fin n} {a : Arc (Fin n)} :
    a ∈ (WorkList.empty.extend (net.toward s v)).toList ↔
      net.graph.Adj a.tail v ∧ s.value? a.tail = none ∧ a.head = v := by
  rw [toward, WorkList.mem_extend, WorkList.toList_empty, Graph.adj_comm]
  simp only [List.not_mem_nil, false_or, List.mem_map, List.mem_filter, Store.isAssigned_eq]
  constructor
  · rintro ⟨u, ⟨hu, hfree⟩, rfl⟩
    exact ⟨hu, by simpa using hfree, rfl⟩
  · rintro ⟨hu, hfree, rfl⟩
    exact ⟨a.tail, ⟨hu, by simp [hfree]⟩, rfl⟩

theorem adj_of_mem_toward {net : Network V n} {s : Store V n} {v : Fin n} {a : Arc (Fin n)}
    (h : a ∈ (WorkList.empty.extend (net.toward s v)).toList) : net.graph.Adj a.tail a.head := by
  obtain ⟨hadj, -, hhead⟩ := mem_extend_toward.mp h
  exact hhead.symm ▸ hadj

theorem infers_mac (net : Network V n) (s : Store V n) (v : Fin n) :
    net.Infers s (net.mac s v).1 :=
  infers_propagate (fun _ ha => adj_of_mem_toward ha) s

/-- `net.Sweeps v x l s e`: holding the variables `l` in turn against `v = x` ends from `s` in `e`.
Those that have a value are passed over. -/
inductive Sweeps (net : Network V n) (v : Fin n) (x : V) :
    List (Fin n) → Store V n → Store V n × Propagation n → Prop
  | done {s : Store V n} : Sweeps net v x [] s (s, .consistent)
  | passed {u : Fin n} {rest : List (Fin n)} {s : Store V n} {e : Store V n × Propagation n}
      (assigned : s.isAssigned u = true) (next : Sweeps net v x rest s e) :
      Sweeps net v x (u :: rest) s e
  | emptied {u : Fin n} {rest : List (Fin n)} {s : Store V n} (free : s.value? u = none)
      (empty : ∀ y, y ∉ (net.revise s u v x).domain u) :
      Sweeps net v x (u :: rest) s (net.revise s u v x, .wipeout u)
  | held {u : Fin n} {rest : List (Fin n)} {s : Store V n} {e : Store V n × Propagation n}
      (free : s.value? u = none) (left : ∃ y, y ∈ (net.revise s u v x).domain u)
      (next : Sweeps net v x rest (net.revise s u v x) e) : Sweeps net v x (u :: rest) s e

theorem sweeps_forwardCheckFrom (net : Network V n) (v : Fin n) (x : V) (l : List (Fin n))
    (s : Store V n) : net.Sweeps v x l s (net.forwardCheckFrom v x l s) := by
  induction l generalizing s with
  | nil => exact .done
  | cons u rest ih =>
    unfold forwardCheckFrom
    by_cases hassigned : s.isAssigned u = true
    · rw [if_pos hassigned]
      exact .passed hassigned (ih s)
    · rw [if_neg hassigned]
      have hfree : s.value? u = none := Store.free_of_not_isAssigned hassigned
      by_cases hempty : ((net.revise s u v x).domain u).isEmpty = true
      · simp only [hempty, if_true]
        exact .emptied hfree (SortedSet.not_mem_of_isEmpty hempty)
      · simp only [hempty]
        have hleft := SortedSet.isEmpty_eq_false_iff.mp (Bool.eq_false_iff.mpr hempty)
        exact .held hfree hleft (ih _)

/-- Forward checking does nothing for a variable without a value, and otherwise holds its
neighbours against the value. -/
theorem forwardCheck_cases (net : Network V n) (s : Store V n) (v : Fin n) :
    (s.value? v = none ∧ net.forwardCheck s v = (s, .consistent)) ∨
      ∃ x, s.value? v = some x ∧ net.Sweeps v x (net.neighbors v) s (net.forwardCheck s v) := by
  unfold forwardCheck
  cases s.value? v with
  | none => exact Or.inl ⟨rfl, rfl⟩
  | some x => exact Or.inr ⟨x, rfl, net.sweeps_forwardCheckFrom v x (net.neighbors v) s⟩

theorem sweeps_forwardCheck (net : Network V n) {s : Store V n} {v : Fin n} {x : V}
    (given : s.value? v = some x) :
    net.Sweeps v x (net.neighbors v) s (net.forwardCheck s v) := by
  rw [forwardCheck, given]
  exact net.sweeps_forwardCheckFrom v x (net.neighbors v) s

theorem Sweeps.descends {net : Network V n} {v : Fin n} {x : V} {l : List (Fin n)} {s : Store V n}
    {e : Store V n × Propagation n} (h : net.Sweeps v x l s e) : s.Descends e.1 := by
  induction h with
  | done => exact Store.descends_refl _
  | passed _ _ ih => exact ih
  | emptied => exact Store.descends_prune ..
  | held _ _ _ ih => exact (Store.descends_prune ..).trans ih

theorem Sweeps.infers {net : Network V n} {v : Fin n} {x : V} {l : List (Fin n)} {s : Store V n}
    {e : Store V n × Propagation n} (h : net.Sweeps v x l s e) (given : s.value? v = some x)
    (adj : ∀ u ∈ l, net.graph.Adj v u) : net.Infers s e.1 := by
  -- no step assigns anything, so the value of `v` is given at every neighbour
  induction h with
  | done => exact .refl
  | passed _ _ ih => exact ih given fun w hw => adj w (List.mem_cons_of_mem _ hw)
  | emptied free => exact .single (.byValue (adj _ List.mem_cons_self) given free)
  | held free _ _ ih =>
    have hrest := ih given fun w hw => adj w (List.mem_cons_of_mem _ hw)
    exact .head (.byValue (adj _ List.mem_cons_self) given free) hrest

theorem infers_forwardCheck (net : Network V n) (s : Store V n) (v : Fin n) :
    net.Infers s (net.forwardCheck s v).1 := by
  rcases net.forwardCheck_cases s v with ⟨-, hnone⟩ | ⟨x, given, hsweeps⟩
  · rw [hnone]
  · exact hsweeps.infers given fun _ hu => hu

theorem infers_afterAssignment (net : Network V n) (inference : Inference) (s : Store V n)
    (v : Fin n) : net.Infers s (net.afterAssignment inference s v).1 := by
  cases inference with
  | none | ac3Pre => exact .refl
  | forwardChecking => exact net.infers_forwardCheck s v
  | mac => exact net.infers_mac s v

/-- A wipeout names a variable without values; otherwise every variable has one left. -/
def Reports (e : Store V n × Propagation n) : Prop :=
  match e.2 with
  | .consistent => e.1.Live
  | .wipeout v => ∀ x, x ∉ e.1.domain v

theorem Settles.reports {net : Network V n} {k : Nat} {w : WorkList (Arc (Fin n))}
    {s : Store V n} {e : Store V n × Propagation n} (h : net.Settles k w s e) (live : s.Live) :
    Reports e := by
  induction h with
  | idle => exact live
  | kept _ _ _ ih => exact ih live
  | emptied _ _ empty => exact empty
  | shrunk _ _ left _ ih => exact ih (Store.live_prune live left)

theorem reports_propagate (net : Network V n) (w : WorkList (Arc (Fin n))) {s : Store V n}
    (live : s.Live) : Reports (net.propagate w s) := by
  obtain ⟨k, -, h⟩ := net.settles_propagate w s
  exact h.reports live

theorem reports_ac3 (net : Network V n) {s : Store V n} (live : s.Live) : Reports (net.ac3 s) :=
  net.reports_propagate _ live

theorem reports_mac (net : Network V n) {s : Store V n} (live : s.Live) (v : Fin n) :
    Reports (net.mac s v) := net.reports_propagate _ live

theorem Sweeps.reports {net : Network V n} {v : Fin n} {x : V} {l : List (Fin n)} {s : Store V n}
    {e : Store V n × Propagation n} (h : net.Sweeps v x l s e) (live : s.Live) : Reports e := by
  induction h with
  | done => exact live
  | passed _ _ ih => exact ih live
  | emptied _ empty => exact empty
  | held _ left _ ih => exact ih (Store.live_prune live left)

theorem reports_forwardCheck (net : Network V n) {s : Store V n} (live : s.Live) (v : Fin n) :
    Reports (net.forwardCheck s v) := by
  rcases net.forwardCheck_cases s v with ⟨-, hnone⟩ | ⟨x, -, hsweeps⟩
  · rw [hnone]
    exact live
  · exact hsweeps.reports live

theorem reports_afterAssignment (net : Network V n) (inference : Inference) {s : Store V n}
    (live : s.Live) (v : Fin n) : Reports (net.afterAssignment inference s v) := by
  cases inference with
  | none | ac3Pre => exact live
  | mac => exact net.reports_mac live v
  | forwardChecking => exact net.reports_forwardCheck live v

end Network

/-- The path from `0` to `n - 1`. -/
def Graph.path (n : Nat) : Graph n :=
  .ofRelation (fun v w => v.val + 1 = w.val || w.val + 1 = v.val) (fun v => by simp)
    (fun v w h => by simpa [or_comm] using h)

/-- Gives the neighbours on a path different values. What happens at one end reaches the other only
step by step. -/
def Network.onPath (n : Nat) : Network UInt8 n := ⟨.path n, .notEqual⟩

end ConstraintNet
