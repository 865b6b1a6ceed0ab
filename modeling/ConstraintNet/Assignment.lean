import Std.Data.ExtTreeMap

/-!
Assignments of values to variables by number. A number need not belong to any network, and two
assignments with the same entries are equal.
-/

namespace ConstraintNet

abbrev Assignment (V : Type) := Std.ExtTreeMap Nat V

namespace Assignment

variable {V : Type} {n : Nat}

/-- What the variables of a network have under the assignment. -/
def value? (a : Assignment V) (v : Fin n) : Option V := a[v.val]?

/-- The assignment with the listed entries; a later entry for a number replaces an earlier one. -/
def ofPairs (pairs : List (Nat × V)) : Assignment V :=
  pairs.foldl (fun a (id, x) => a.insert id x) ∅

/-- One value for every variable. -/
def ofVector (values : Vector V n) : Assignment V :=
  ofPairs ((List.finRange n).map fun v => (v.val, values.get v))

end Assignment

end ConstraintNet
