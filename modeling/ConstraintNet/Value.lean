import ConstraintNet.Text.Quoted

namespace ConstraintNet

/-- A totally ordered type whose members can be shown in messages. -/
class Value (V : Type) extends Ord V, Std.TransOrd V, Std.LawfulEqOrd V where
  text : V → String

instance : Value UInt8 where
  text v := toString v.toNat

/-- An integer or a text. Every integer comes before every text. -/
inductive Datum
  | int (i : Int)
  | text (s : String)
  deriving DecidableEq, Repr

namespace Datum

instance : Ord Datum where
  compare
    | .int i, .int j => compare i j
    | .int _, .text _ => .lt
    | .text _, .int _ => .gt
    | .text s, .text t => compare s t

instance : Std.TransOrd Datum where
  eq_swap {a b} :=
    match a, b with
    | .int i, .int j => Std.OrientedOrd.eq_swap (a := i) (b := j)
    | .int _, .text _ => rfl
    | .text _, .int _ => rfl
    | .text s, .text t => Std.OrientedOrd.eq_swap (a := s) (b := t)
  isLE_trans {a b c} hab hbc :=
    match a, b, c with
    | .int i, .int j, .int k => Std.TransOrd.isLE_trans (a := i) (b := j) (c := k) hab hbc
    | .text s, .text t, .text u => Std.TransOrd.isLE_trans (a := s) (b := t) (c := u) hab hbc
    | .int _, _, .text _ => rfl
    | .int _, .text _, .int _ => by cases hbc
    | .text _, .int _, _ => by cases hab
    | .text _, .text _, .int _ => by cases hbc

instance : Std.LawfulEqOrd Datum where
  compare_self {a} :=
    match a with
    | .int i => Std.ReflOrd.compare_self (a := i)
    | .text s => Std.ReflOrd.compare_self (a := s)
  eq_of_compare {a b} h :=
    match a, b with
    | .int i, .int j => congrArg _ (Std.LawfulEqOrd.eq_of_compare (a := i) (b := j) h)
    | .int _, .text _ => by cases h
    | .text _, .int _ => by cases h
    | .text s, .text t => congrArg _ (Std.LawfulEqOrd.eq_of_compare (a := s) (b := t) h)

instance : Value Datum where
  text
    | .int i => toString i
    | .text s => Text.quote s

end Datum

end ConstraintNet
