import ConstraintNet.Decimal.Binary64

namespace ConstraintNet.Decimal

/-- The decimal `digits * 10 ^ exponent`. -/
structure Decimal10 where
  digits : Nat
  exponent : Int
  deriving DecidableEq, Repr

namespace Binary64

/-- The power of ten of the first significant digit of a positive fraction. -/
def leadingPower (x : Binary64) : Int :=
  if x.den ≤ x.num then (toString (x.num / x.den)).length - 1
  else -(toString ((x.den + x.num - 1) / x.num - 1)).length

/-- Both sides of the comparison of `d` with `quarters * 2 ^ (x.exponent - 2)`, cleared of
denominators. -/
def sides (x : Binary64) (d : Decimal10) (quarters : Nat) : Nat × Nat :=
  ((d.digits * tenTo d.exponent.toNat) <<< (2 - x.exponent).toNat,
    (quarters * tenTo (-d.exponent).toNat) <<< (x.exponent - 2).toNat)

/-- The decimal rounds to the fraction. The ends of the interval that does so belong to it if the
mantissa is even. Below a power of two the interval reaches half as far. -/
def isReadFrom (x : Binary64) (d : Decimal10) : Bool :=
  let below := if 2 * x.mantissa = significandLimit ∧ leastExponent < x.exponent then 1 else 2
  let (dl, low) := x.sides d (4 * x.mantissa - below)
  let (dh, high) := x.sides d (4 * x.mantissa + 2)
  if x.mantissa % 2 = 0 then low ≤ dl && dh ≤ high else low < dl && dh < high

/-- Distances from the fraction, in a unit common to decimals of one exponent. -/
def distance (x : Binary64) (d : Decimal10) : Nat :=
  let (l, r) := x.sides d (4 * x.mantissa)
  l - r + (r - l)

/-- The nearest decimal with this many digits that rounds to the fraction, if there is one. -/
def withDigits? (x : Binary64) (count : Nat) : Option Decimal10 :=
  let exponent := x.leadingPower - count + 1
  let floor := x.num * tenTo (-exponent).toNat / (x.den * tenTo exponent.toNat)
  let lower : Decimal10 := ⟨floor, exponent⟩
  let upper : Decimal10 := ⟨floor + 1, exponent⟩
  match x.isReadFrom lower, x.isReadFrom upper with
  | false, false => none
  | true, false => some lower
  | false, true => some upper
  | true, true =>
    let l := x.distance lower
    let u := x.distance upper
    some (if l < u ∨ l = u ∧ floor % 2 = 0 then lower else upper)

/-- Seventeen digits are always enough. -/
def shortest (x : Binary64) : Decimal10 :=
  if x.isZero then ⟨0, 0⟩
  else ((List.range 17).findSome? fun i => x.withDigits? (i + 1)).getD ⟨0, 0⟩

end Binary64

/-- How a decimal is written: positionally if the power of its first digit lies in a range, else
with an exponent after a sign. -/
structure Style where
  firstPositional : Int
  endPositional : Int

/-- Zeros at the end of the digits, moved into the exponent. -/
def Decimal10.trim (d : Decimal10) : Decimal10 :=
  if h : d.digits = 0 ∨ d.digits % 10 ≠ 0 then d
  else trim ⟨d.digits / 10, d.exponent + 1⟩
termination_by d.digits
decreasing_by
  have nonzero : d.digits ≠ 0 := fun e => h (.inl e)
  exact Nat.div_lt_self (Nat.pos_of_ne_zero nonzero) (by decide)

def zeros (count : Nat) : String := String.ofList (List.replicate count '0')

/-- Has at least one digit on each side of the point. -/
def Decimal10.write (style : Style) (d : Decimal10) : String :=
  let d := d.trim
  let digits := toString d.digits
  let power := digits.length + d.exponent - 1
  if d.digits = 0 then "0.0"
  else if style.firstPositional ≤ power ∧ power < style.endPositional then
    if 0 ≤ d.exponent then digits ++ zeros d.exponent.toNat ++ ".0"
    else if 0 ≤ power then
      (digits.take (power.toNat + 1)).toString ++ "." ++ (digits.drop (power.toNat + 1)).toString
    else "0." ++ zeros (-power - 1).toNat ++ digits
  else
    let fraction := (digits.drop 1).toString
    (digits.take 1).toString ++ (if fraction.isEmpty then "" else "." ++ fraction) ++ "e" ++
      (if power < 0 then "-" else "+") ++ toString power.natAbs

end ConstraintNet.Decimal
