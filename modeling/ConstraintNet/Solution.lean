import ConstraintNet.Network
import ConstraintNet.Store

namespace ConstraintNet

variable {V : Type} [Value V] [DecidableEq V] {n : Nat}

namespace Network

omit [Value V] [DecidableEq V] in
/-- No neighbour of `v` with a greater number has a value that rules out `v = x`. -/
def isLegalUpward (net : Network V n) (a : Assignment V) (v : Fin n) (x : V) : Bool :=
  (net.neighbors v).all fun u => u ≤ v || (a.value? u).all fun y => net.consistent v x u y

omit [Value V] [DecidableEq V] in
/-- Goes through entries in the order of their numbers and stops at the first conflict. -/
def isConsistentFrom (net : Network V n) (a : Assignment V) : List (Nat × V) → Except Error Bool
  | [] => .ok true
  | (id, x) :: rest =>
    if h : id < n then
      if net.isLegalUpward a ⟨id, h⟩ x then net.isConsistentFrom a rest else .ok false
    else .error (.noSuchVariable id)

omit [Value V] [DecidableEq V] in
/-- No two neighbours have values that rule each other out. -/
def isConsistent (net : Network V n) (a : Assignment V) : Except Error Bool :=
  net.isConsistentFrom a a.toList

omit [DecidableEq V] in
/-- The first two neighbours whose only values rule each other out. -/
def conflictingSingletons (net : Network V n) (s : Store V n) : Option (Fin n × Fin n) :=
  (List.finRange n).findSome? fun v =>
    (s.domain v).only?.bind fun x =>
      ((net.neighbors v).find? fun u =>
        v < u && (s.domain u).only?.any fun y => !net.consistent v x u y).map fun u => (v, u)

end Network

/-- The entry is for no variable, or its value is not in the variable's domain. -/
def Store.isOutside (s : Store V n) (entry : Nat × V) : Bool :=
  if h : entry.1 < n then entry.2 ∉ s.domain ⟨entry.1, h⟩ else true

/-- Accepts the solutions within the domains of the store, and names the first thing wrong with
any other assignment. -/
def Network.verify (net : Network V n) (s : Store V n) (a : Assignment V) : Except Error Unit :=
  if a.size = n then
    match a.toList.find? s.isOutside with
    | some (id, x) => .error (.invariantViolation (.outsideDomain id (Value.text x)))
    | none =>
      match net.isConsistent a with
      | .ok true => .ok ()
      | .ok false => .error (.invariantViolation .brokenConstraint)
      | .error e => .error e
  else .error (.invariantViolation (.wrongSize a.size n))

end ConstraintNet
