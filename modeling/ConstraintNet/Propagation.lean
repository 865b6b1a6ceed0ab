import ConstraintNet.Network
import ConstraintNet.Store
import ConstraintNet.Strategy
import ConstraintNet.WorkList

/-!
`forwardCheck` holds the neighbours of one assigned variable against its value; `ac3` and `mac` make
arcs consistent until nothing changes or a domain is empty.
-/

namespace ConstraintNet

/-- How pruning ended: with every domain non-empty, or with this variable's domain emptied. -/
inductive Propagation (n : Nat)
  | consistent
  | wipeout (v : Fin n)
  deriving DecidableEq, Repr

def Propagation.isWipeout {n : Nat} : Propagation n → Bool
  | consistent => false
  | wipeout _ => true

namespace Network

variable {V : Type} [Value V] {n : Nat}

/-- Removes the values of `v` that `other = y` rules out. -/
def revise (net : Network V n) (s : Store V n) (v : Fin n) (other : Nat) (y : V) : Store V n :=
  s.prune v fun x => net.consistent v x other y

/-- Some value of the arc's head goes with `x` at its tail. -/
def isSupported (net : Network V n) (s : Store V n) (a : Arc (Fin n)) (x : V) : Bool :=
  (s.domain a.head).toList.any fun y => net.consistent a.tail x a.head y

/-- Removes the values of the arc's tail that no value of its head supports. -/
def reviseArc (net : Network V n) (s : Store V n) (a : Arc (Fin n)) : Store V n :=
  s.prune a.tail (net.isSupported s a)

/-- Holds the listed neighbours of `v` against `v = x`, in order, and stops at an empty domain.
Assigned neighbours are left alone. -/
def forwardCheckFrom (net : Network V n) (v : Fin n) (x : V) :
    List (Fin n) → Store V n → Store V n × Propagation n
  | [], s => (s, .consistent)
  | u :: rest, s =>
    if s.isAssigned u then net.forwardCheckFrom v x rest s
    else
      let s := net.revise s u v x
      if (s.domain u).isEmpty then (s, .wipeout u) else net.forwardCheckFrom v x rest s

/-- Holds the unassigned neighbours of an assigned variable against its value. -/
def forwardCheck (net : Network V n) (s : Store V n) (v : Fin n) : Store V n × Propagation n :=
  match s.value? v with
  | none => (s, .consistent)
  | some x => net.forwardCheckFrom v x (net.neighbors v) s

/-- The arcs that a loss of values at the arc's tail may leave without support. -/
def disturbedBy (net : Network V n) (a : Arc (Fin n)) : List (Arc (Fin n)) :=
  ((net.neighbors a.tail).filter fun u => u ≠ a.head).map fun u => ⟨u, a.tail⟩

/-- How many arcs the values of a store may still bring back: for each value of a variable, one from
each of its neighbours. -/
def weight (net : Network V n) (s : Store V n) : Nat :=
  ((List.finRange n).flatMap fun v => (s.domain v).toList.flatMap fun _ => net.neighbors v).length

/-- Pruning changes the share of the pruned variable alone. -/
theorem weight_prune (net : Network V n) (s : Store V n) (v : Fin n) (keep : V → Bool) :
    net.weight (s.prune v keep) + (s.domain v).size * net.graph.degree v =
      net.weight s + ((s.prune v keep).domain v).size * net.graph.degree v := by
  have share (t : Store V n) : ((t.domain v).toList.flatMap fun _ => net.neighbors v).length =
      (t.domain v).size * net.graph.degree v := by
    simp [List.length_flatMap, List.map_const', SortedSet.size, Graph.degree, neighbors]
  -- of the variables in turn, those before `v` and those after it keep their shares
  obtain ⟨before, after, hsplit⟩ := List.append_of_mem (List.mem_finRange v)
  have distinct := List.nodup_finRange n
  rw [hsplit, List.nodup_append, List.nodup_cons] at distinct
  obtain ⟨-, ⟨hafter, -⟩, hbefore⟩ := distinct
  have same (l : List (Fin n)) (hl : v ∉ l) :
      l.flatMap (fun w => ((s.prune v keep).domain w).toList.flatMap fun _ => net.neighbors w) =
        l.flatMap fun w => (s.domain w).toList.flatMap fun _ => net.neighbors w := by
    apply congrArg List.flatten
    apply List.map_congr_left
    intro w hw
    have hne : w ≠ v := fun e => hl (e ▸ hw)
    rw [Store.domain_prune, if_neg hne]
  have outside := same before fun hv => hbefore v hv v List.mem_cons_self rfl
  simp only [weight, hsplit, List.flatMap_append, List.flatMap_cons, List.length_append, share,
    outside, same after hafter]
  omega

theorem size_reviseArc_le (net : Network V n) (s : Store V n) (a : Arc (Fin n)) :
    ((net.reviseArc s a).domain a.tail).size ≤ (s.domain a.tail).size := by
  rw [reviseArc, Store.domain_prune, if_pos rfl]
  exact List.length_filter_le ..

theorem weight_reviseArc_le (net : Network V n) (s : Store V n) (a : Arc (Fin n)) :
    net.weight (net.reviseArc s a) ≤ net.weight s := by
  have balance := net.weight_prune s a.tail (net.isSupported s a)
  have shrunk := Nat.mul_le_mul_right (net.graph.degree a.tail) (net.size_reviseArc_le s a)
  rw [reviseArc] at *
  omega

/-- A lost value releases the degree of its variable. -/
theorem weight_reviseArc_add_degree_le {net : Network V n} {s : Store V n} {a : Arc (Fin n)}
    (lost : ((net.reviseArc s a).domain a.tail).size ≠ (s.domain a.tail).size) :
    net.weight (net.reviseArc s a) + net.graph.degree a.tail ≤ net.weight s := by
  have balance := net.weight_prune s a.tail (net.isSupported s a)
  have fewer := Nat.lt_of_le_of_ne (net.size_reviseArc_le s a) lost
  have released := Nat.mul_le_mul_right (net.graph.degree a.tail) fewer
  rw [Nat.succ_mul] at released
  rw [reviseArc] at *
  omega

omit [Value V] in
theorem length_disturbedBy_le (net : Network V n) (a : Arc (Fin n)) :
    (net.disturbedBy a).length ≤ net.graph.degree a.tail := by
  rw [disturbedBy, List.length_map]
  exact List.length_filter_le ..

/-- A round in which a variable loses values leaves less to do: its new arcs are paid for. -/
theorem size_extend_add_weight_lt {net : Network V n} {w rest : WorkList (Arc (Fin n))}
    {a : Arc (Fin n)} {s : Store V n} (popped : w.pop? = some (a, rest))
    (lost : ((net.reviseArc s a).domain a.tail).size ≠ (s.domain a.tail).size) :
    (rest.extend (net.disturbedBy a)).size + net.weight (net.reviseArc s a) <
      w.size + net.weight s := by
  have hsize := WorkList.size_of_pop? popped
  have hweight := weight_reviseArc_add_degree_le lost
  have hadded := WorkList.size_extend_le rest (net.disturbedBy a)
  have hfew := net.length_disturbedBy_le a
  omega

/-- Revises the waiting arcs, in turn, until none is left or a domain is empty. -/
def propagate (net : Network V n) (w : WorkList (Arc (Fin n))) (s : Store V n) :
    Store V n × Propagation n :=
  match _popped : w.pop? with
  | none => (s, .consistent)
  | some (a, rest) =>
    let before := (s.domain a.tail).size
    let revised := net.reviseArc s a
    if (revised.domain a.tail).size = before then net.propagate rest revised
    else if (revised.domain a.tail).isEmpty then (revised, .wipeout a.tail)
    else net.propagate (rest.extend (net.disturbedBy a)) revised
termination_by w.size + net.weight s
decreasing_by
  · have popped := WorkList.size_of_pop? ‹w.pop? = some (a, rest)›
    have lighter := net.weight_reviseArc_le s a
    omega
  · rename_i lost _
    exact size_extend_add_weight_lt ‹w.pop? = some (a, rest)› lost

/-- Makes every arc consistent. -/
def ac3 (net : Network V n) (s : Store V n) : Store V n × Propagation n :=
  net.propagate (WorkList.empty.extend net.graph.arcs) s

/-- Makes arcs consistent again after `v` was assigned, starting from those that lead to `v`. -/
def mac (net : Network V n) (s : Store V n) (v : Fin n) : Store V n × Propagation n :=
  let arcs := ((net.neighbors v).filter fun u => !s.isAssigned u).map fun u => ⟨u, v⟩
  net.propagate (WorkList.empty.extend arcs) s

/-- What an inference strategy does once `v` is assigned. -/
def afterAssignment (net : Network V n) (inference : Inference) (s : Store V n) (v : Fin n) :
    Store V n × Propagation n :=
  match inference with
  | .none | .ac3Pre => (s, .consistent)
  | .forwardChecking => net.forwardCheck s v
  | .mac => net.mac s v

end Network

end ConstraintNet
