import ConstraintNet.Propagation
import ConstraintNet.Solution

/-!
Operations for callers that name variables by number. A number that names no variable is an error,
but only where the domain or the neighbours of that variable are read.
-/

namespace ConstraintNet.Numbered

variable {V : Type} [Value V] {n : Nat}

/-- The variable with a given number. -/
def resolve (n id : Nat) : Except Error (Fin n) :=
  if h : id < n then .ok ⟨id, h⟩ else .error (.noSuchVariable id)

/-- Reads the neighbours of `a` only. -/
def areNeighbors (g : Graph n) (a b : Nat) : Except Error Bool :=
  (resolve n a).map fun v => (g.neighbors v).any fun w => w.val = b

/-- Reads the domain of the arc's head once for each value of its tail. -/
def reviseArc (net : Network V n) (s : Store V n) (a : Arc Nat) : Except Error (Store V n) :=
  match resolve n a.tail with
  | .error e => .error e
  | .ok v =>
    if (s.domain v).isEmpty then .ok s
    else (resolve n a.head).map fun w => net.reviseArc s ⟨v, w⟩

/-- Reads nothing of a variable that is not assigned. -/
def forwardCheck (net : Network V n) (s : Store V n) (id : Nat) :
    Except Error (Store V n × Propagation n) :=
  if s.assignment.contains id then (resolve n id).map (net.forwardCheck s)
  else .ok (s, .consistent)

def mac (net : Network V n) (s : Store V n) (id : Nat) :
    Except Error (Store V n × Propagation n) :=
  (resolve n id).map (net.mac s)

def afterAssignment (net : Network V n) (inference : Inference) (s : Store V n) (id : Nat) :
    Except Error (Store V n × Propagation n) :=
  match inference with
  | .none | .ac3Pre => .ok (s, .consistent)
  | .forwardChecking => forwardCheck net s id
  | .mac => mac net s id

/-- Puts a value back into the domain of each removal that is undone. -/
def restore (s : Store V n) (length : Nat) : Except Error (Store V n) :=
  match (s.trail.take (s.trail.length - length)).find? fun r => n ≤ r.var with
  | some r => .error (.noSuchVariable r.var)
  | none => .ok (s.restore length)

end ConstraintNet.Numbered
