import ConstraintNet.Value

namespace ConstraintNet

/-- `r a x b y` holds if `a = x` goes with `b = y`. It need not be symmetric. -/
abbrev Relation (V : Type) := Nat → V → Nat → V → Bool

namespace Relation

@[inline] def notEqual {V : Type} [DecidableEq V] : Relation V := fun _ x _ y => x ≠ y

/-- The values ascend with the numbers of the variables. -/
def ascending {V : Type} [Ord V] : Relation V := fun a x b y =>
  b ≤ a || (compare x y).isLT

/-- Two queens in columns `a` and `b`: other rows, and other diagonals where rows are numbers. -/
def queens : Relation Datum := fun a x b y =>
  x ≠ y &&
    match x, y with
    | .int i, .int j => (i - j).natAbs ≠ ((a : Int) - b).natAbs
    | _, _ => true

/-- Numbers lie at least `k` apart. -/
def distance (k : Int) : Relation Datum := fun _ x _ y =>
  match x, y with
  | .int i, .int j => k ≤ (i - j).natAbs
  | _, _ => true

/-- Allows all but the listed pairs, each in the direction in which it is listed. -/
def forbidden {V : Type} [DecidableEq V] (tuples : List (Nat × V × Nat × V)) : Relation V :=
  fun a x b y => (a, x, b, y) ∉ tuples

end Relation

end ConstraintNet
