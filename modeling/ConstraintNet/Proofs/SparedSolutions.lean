import ConstraintNet.Proofs.Coherence
import ConstraintNet.Proofs.Completeness
import ConstraintNet.Proofs.Histories

namespace ConstraintNet

variable {V : Type} [Value V] {n : Nat}

open Assignment (value?)

/-- The edit says nothing against `a`: it assigns, narrows to and holds against a neighbour only
values that `a` has, removes none of these by name, and revises only arcs of the graph. -/
inductive Edit.Respects (net : Network V n) (a : Assignment V) : Edit V n → Prop
  | assign {v : Fin n} {x : V} (has : value? a v = some x) : Respects net a (.assign v x)
  | unassign (id : Nat) : Respects net a (.unassign id)
  | remove {v : Fin n} {x : V} (lacks : value? a v ≠ some x) : Respects net a (.remove v x)
  | narrow {v : Fin n} {x : V} (has : value? a v = some x) : Respects net a (.narrow v x)
  | revise {v u : Fin n} {y : V} (adj : net.graph.Adj v u) (has : value? a u = some y) :
      Respects net a (.revise v u y)
  | reviseArc {arc : Arc (Fin n)} (adj : net.graph.Adj arc.tail arc.head) :
      Respects net a (.reviseArc arc)
  | forwardCheck (v : Fin n) : Respects net a (.forwardCheck v)
  | ac3 : Respects net a .ac3
  | mac (v : Fin n) : Respects net a (.mac v)
  | restore (length : Nat) : Respects net a (.restore length)

namespace Network

theorem Completes.unassign {net : Network V n} {s : Store V n} {a : Assignment V}
    (h : net.Completes s a) (id : Nat) : net.Completes (s.unassign id) a := by
  refine h.of_looser (fun _ _ hx => hx) ?_
  intro k x hk
  change (s.assignment.erase id)[k]? = some x at hk
  rw [Std.ExtTreeMap.getElem?_erase] at hk
  split at hk
  · cases hk
  · exact hk

theorem Completes.restore {net : Network V n} {s : Store V n} {a : Assignment V}
    (h : net.Completes s a) (length : Nat) : net.Completes (s.restore length) a :=
  h.of_looser (fun _ _ hx => Store.mem_domain_restore.mpr (Or.inl hx)) (Assignment.extends_refl _)

/-- What a completion has at a neighbour rules out nothing that the completion has. -/
theorem Completes.revise {net : Network V n} {s : Store V n} {a : Assignment V}
    (h : net.Completes s a) {v u : Fin n} {y : V} (adj : net.graph.Adj v u)
    (has : value? a u = some y) : net.Completes (net.revise s v u y) a :=
  h.prune fun _ hx => h.solution.compatible.consistent adj hx has

variable [DecidableEq V]

/-- Every edit that says nothing against a completion keeps it. -/
theorem Completes.apply {net : Network V n} {s : Store V n} {a : Assignment V}
    (h : net.Completes s a) {e : Edit V n} (respects : e.Respects net a) :
    net.Completes (e.apply net s) a := by
  cases respects with
  | assign has => exact h.assign has
  | unassign id => exact h.unassign id
  | remove lacks =>
    apply h.prune
    intro y hy
    apply decide_eq_true
    rintro rfl
    exact lacks hy
  | narrow has => exact h.narrow has
  | revise adj has => exact h.revise adj has
  | reviseArc adj => exact h.infers (.single (.byArc adj))
  | forwardCheck v => exact h.infers (net.infers_forwardCheck s v)
  | ac3 => exact h.infers (net.infers_ac3 s)
  | mac v => exact h.infers (net.infers_mac s v)
  | restore length => exact h.restore length

/-- One call that says nothing against `a`. Each edit uses the trail of the store, and callers may
at any time turn to another trail, with whatever it records. -/
inductive Calls (net : Network V n) (a : Assignment V) : Store V n → Store V n → Prop
  | edit {s : Store V n} {e : Edit V n} (respects : e.Respects net a) :
      Calls net a s (e.apply net s)
  | turn {s : Store V n} (trail : Trail V) : Calls net a s { s with trail := trail }

theorem Completes.call {net : Network V n} {s t : Store V n} {a : Assignment V}
    (call : net.Calls a s t) (h : net.Completes s a) : net.Completes t a := by
  cases call with
  | edit respects => exact h.apply respects
  | turn trail => exact h.of_looser (fun _ _ hx => hx) (Assignment.extends_refl _)

theorem Completes.calls {net : Network V n} {s t : Store V n} {a : Assignment V}
    (h : net.Completes s a) (calls : Relation.ReflTransGen (net.Calls a) s t) :
    net.Completes t a := by
  induction calls with
  | refl => exact h
  | tail _ call ih => exact ih.call call

/-- A history of edits that say nothing against `a` is a sequence of such calls. -/
theorem calls_edited {net : Network V n} {a : Assignment V} {history : List (Edit V n)}
    (respects : ∀ e ∈ history, e.Respects net a) (s : Store V n) :
    Relation.ReflTransGen (net.Calls a) s (s.edited net history) := by
  induction history generalizing s with
  | nil => exact .refl
  | cons e rest ih =>
    have hrest := ih (fun e he => respects e (List.mem_cons_of_mem _ he)) (e.apply net s)
    exact .head (.edit (respects e List.mem_cons_self)) hrest

/-- Whatever calls are made that say nothing against a completion of the store, in whatever order,
all values of the completion stay in their domains, and no forward checking and no pass of arc
consistency made among them reports a wipeout. -/
theorem calls_spare_completion {net : Network V n} {s t : Store V n} {a : Assignment V}
    (h : net.Completes s a) (calls : Relation.ReflTransGen (net.Calls a) s t) :
    (∀ (v : Fin n) (x : V), value? a v = some x → x ∈ t.domain v) ∧
      (∀ v, (net.forwardCheck t v).2 = .consistent) ∧
        (net.ac3 t).2 = .consistent ∧ ∀ v, (net.mac t v).2 = .consistent := by
  have ht := h.calls calls
  refine ⟨ht.solution.within, fun v => ?_, ?_, fun v => ?_⟩
  · have hkeeps := ht.infers (net.infers_forwardCheck t v)
    exact hkeeps.eq_consistent (net.reports_forwardCheck ht.live v)
  · have hkeeps := ht.infers (net.infers_ac3 t)
    exact hkeeps.eq_consistent (net.reports_ac3 ht.live)
  · have hkeeps := ht.infers (net.infers_mac t v)
    exact hkeeps.eq_consistent (net.reports_mac ht.live v)

end Network

/-- The ends of the row have the same value, and the middle another. -/
def alternating : Assignment UInt8 := .ofVector #v[1, 2, 1]

theorem value?_alternating (v : Fin 3) : value? alternating v = some (#v[1, 2, 1].get v) :=
  Assignment.value?_ofVector _ v

theorem completes_alternating : (Network.onPath 3).Completes headstart alternating := by
  refine ⟨⟨fun id => Assignment.mem_ofVector, fun v x hx => ?_, ?_⟩, ?_⟩
  · rw [value?_alternating] at hx
    cases hx
    exact (by decide : ∀ v : Fin 3, #v[1, 2, 1].get v ∈ headstart.domain v) v
  · intro v w x y adj hx hy
    rw [value?_alternating] at hx
    rw [value?_alternating] at hy
    cases hx
    cases hy
    exact (by decide : ∀ v w : Fin 3, (Graph.path 3).Adj v w →
      Relation.notEqual v.val (#v[1, 2, 1].get v : UInt8) w.val (#v[1, 2, 1].get w)) v w adj
  · exact (Assignment.extends_empty alternating).insert (value?_alternating 0)

/-- In a row of which the first has a value and yet its whole domain, the middle is held against it
and arcs are made consistent around it, before and after an undoing. -/
def respectful (first middle last : Fin 3) : List (Edit UInt8 3) :=
  [.mac middle, .revise middle first 1, .restore 1, .assign last 1, .unassign first,
    .forwardCheck last, .narrow middle 2]

theorem Network.calls_spare_completion_alternating :
    (onPath 3).Completes headstart alternating ∧
      Relation.ReflTransGen ((onPath 3).Calls alternating) headstart
        (headstart.edited (onPath 3) (respectful 0 1 2)) ∧
        ((onPath 3).mac (headstart.edited (onPath 3) (respectful 0 1 2)) 2).2 = .consistent := by
  have respects : ∀ e ∈ respectful 0 1 2, e.Respects (onPath 3) alternating := by
    simp only [respectful, List.forall_mem_cons]
    exact ⟨.mac 1, .revise (u := 0) (by decide) (value?_alternating 0), .restore 1,
      .assign (v := 2) (value?_alternating 2), .unassign 0, .forwardCheck 2,
      .narrow (value?_alternating 1), fun _ he => absurd he List.not_mem_nil⟩
  have calls := calls_edited respects headstart
  exact ⟨completes_alternating, calls,
    ((onPath 3).calls_spare_completion completes_alternating calls).2.2.2 2⟩

end ConstraintNet
