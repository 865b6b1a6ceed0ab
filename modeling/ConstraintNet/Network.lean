import ConstraintNet.Graph
import ConstraintNet.Relation

namespace ConstraintNet

/-- Binary constraints: a graph, and a relation that rules every edge of it. -/
structure Network (V : Type) (n : Nat) where
  graph : Graph n
  relation : Relation V

namespace Network

variable {V : Type} {n : Nat}

@[inline] def neighbors (net : Network V n) (v : Fin n) : List (Fin n) := net.graph.neighbors v

/-- The relation holds in both directions. -/
@[inline] def consistent (net : Network V n) (a : Nat) (x : V) (b : Nat) (y : V) : Bool :=
  net.relation a x b y && net.relation b y a x

theorem consistent_comm (net : Network V n) (a : Nat) (x : V) (b : Nat) (y : V) :
    net.consistent a x b y = net.consistent b y a x := Bool.and_comm ..

/-- No neighbour of `v` that has a value under `value?` rules out `v = x`. -/
@[specialize] def isLegal (net : Network V n) (value? : Fin n → Option V) (v : Fin n) (x : V) : Bool :=
  (net.neighbors v).all fun u => (value? u).all fun y => net.consistent v x u y

/-- How many neighbours of `v` have a value under `value?` that rules out `v = x`. -/
@[specialize] def conflictCount (net : Network V n) (value? : Fin n → Option V) (v : Fin n) (x : V) : Nat :=
  (net.neighbors v).countP fun u => (value? u).any fun y => !net.consistent v x u y

end Network

end ConstraintNet
