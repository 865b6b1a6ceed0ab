import ConstraintNet.Assignment
import ConstraintNet.Error
import ConstraintNet.Graph
import ConstraintNet.Value

/-!
What each variable may still take, what has been assigned, and a trail of the values removed. All
removal goes through `prune`, and `restore` is its only inverse.
-/

namespace ConstraintNet

/-- The values that a variable may still take. -/
abbrev Domain (V : Type) [Ord V] := SortedSet V

/-- A value taken out of the domain of a variable. -/
structure Removal (V : Type) where
  var : Nat
  value : V
  deriving DecidableEq, Repr

/-- Removals, the latest first. -/
abbrev Trail (V : Type) := List (Removal V)

structure Store (V : Type) [Ord V] (n : Nat) where
  domains : Vector (Domain V) n
  assignment : Assignment V := ∅
  trail : Trail V := []

namespace Store

variable {V : Type} [Value V] {n : Nat}

/-- A store without assignment and trail. One domain is needed for each variable, and none of
them may be empty. -/
def ofDomains (n : Nat) (domains : Array (Domain V)) : Except Error (Store V n) :=
  if h : domains.size = n then
    let domains : Vector (Domain V) n := ⟨domains, h⟩
    match (List.finRange n).find? fun v => (domains.get v).isEmpty with
    | some v => .error (.emptyDomain v)
    | none => .ok { domains := domains }
  else .error (.domainCountMismatch n domains.size)

def domain (s : Store V n) (v : Fin n) : Domain V := s.domains.get v

/-- What is assigned to the variable. -/
def value? (s : Store V n) (v : Fin n) : Option V := s.assignment.value? v

def isAssigned (s : Store V n) (v : Fin n) : Bool := s.assignment.contains v.val

/-- The variables without a value, in ascending order. -/
def unassigned (s : Store V n) : List (Fin n) :=
  (List.finRange n).filter fun v => !s.isAssigned v

def assign (s : Store V n) (id : Nat) (x : V) : Store V n :=
  { s with assignment := s.assignment.insert id x }

def unassign (s : Store V n) (id : Nat) : Store V n :=
  { s with assignment := s.assignment.erase id }

/-- Removes the values of `v` that fail the test, the least first, and records them. -/
def prune (s : Store V n) (v : Fin n) (keep : V → Bool) : Store V n :=
  let gone := (s.domain v).toList.filter fun x => !keep x
  { s with
    domains := s.domains.set v.val ((s.domain v).filter keep) v.isLt
    trail := gone.foldl (fun trail x => ⟨v, x⟩ :: trail) s.trail }

/-- Removes one value. -/
def remove [DecidableEq V] (s : Store V n) (v : Fin n) (x : V) : Store V n :=
  s.prune v fun y => y ≠ x

/-- Removes all values but one. -/
def narrow [DecidableEq V] (s : Store V n) (v : Fin n) (x : V) : Store V n :=
  s.prune v fun y => y = x

/-- Puts a removed value back. A number that names no variable has no domain to put it in. -/
def putBack (domains : Vector (Domain V) n) (r : Removal V) : Vector (Domain V) n :=
  if h : r.var < n then domains.set r.var ((domains.get ⟨r.var, h⟩).insert r.value) h else domains

/-- Undoes the removals recorded since the trail had the given length, the latest first. -/
def restore (s : Store V n) (length : Nat) : Store V n :=
  let count := s.trail.length - length
  { s with
    domains := (s.trail.take count).foldl putBack s.domains
    trail := s.trail.drop count }

/-- Same domains and same assignment. -/
def agrees [DecidableEq V] (s t : Store V n) : Bool :=
  s.domains = t.domains && s.assignment.toList = t.assignment.toList

theorem domain_prune (s : Store V n) (v w : Fin n) (keep : V → Bool) :
    (s.prune v keep).domain w = if w = v then (s.domain w).filter keep else s.domain w := by
  simp only [domain, prune, Family.get_set]
  by_cases h : w = v
  · simp [h]
  · simp [h]

@[simp] theorem assignment_prune (s : Store V n) (v : Fin n) (keep : V → Bool) :
    (s.prune v keep).assignment = s.assignment := rfl

@[simp] theorem assignment_restore (s : Store V n) (length : Nat) :
    (s.restore length).assignment = s.assignment := rfl

end Store

end ConstraintNet
