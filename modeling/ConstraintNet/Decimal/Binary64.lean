/-!
Non-negative binary fractions with 53 significant bits. Every result is the exact one rounded to
the nearest such fraction, a tie going to the even mantissa.
-/

namespace ConstraintNet.Decimal

/-- The integer nearest to `num / den`; a half goes to the even neighbour. -/
def roundDiv (num den : Nat) : Nat :=
  let quotient := num / den
  let remainder := num % den
  if den < 2 * remainder ∨ den = 2 * remainder ∧ quotient % 2 = 1 then quotient + 1 else quotient

/-- A power of ten. -/
def tenTo (k : Nat) : Nat := Nat.pow 10 k

/-- The fraction `mantissa * 2 ^ exponent`. -/
structure Binary64 where
  mantissa : Nat
  exponent : Int
  deriving DecidableEq, Repr

namespace Binary64

def leastExponent : Int := -1074

/-- Mantissas stay below this power of two. -/
def significandLimit : Nat := 1 <<< 53

/-- Numerator and denominator of `num / den / 2 ^ exponent`. -/
def descale (num den : Nat) (exponent : Int) : Nat × Nat :=
  (num <<< (-exponent).toNat, den <<< exponent.toNat)

/-- The fraction nearest to `num / den`, which may be too large for the format. -/
def ofRatio (num den : Nat) : Binary64 :=
  if num = 0 then ⟨0, leastExponent⟩
  else
    let low : Int := max ((num.log2 : Int) - den.log2 - 53) leastExponent
    let (n, d) := descale num den low
    let exponent := if significandLimit ≤ n / d then low + 1 else low
    let (n, d) := descale num den exponent
    let mantissa := roundDiv n d
    if mantissa = significandLimit then ⟨significandLimit / 2, exponent + 1⟩ else ⟨mantissa, exponent⟩

def ofNat (n : Nat) : Binary64 := ofRatio n 1

def num (x : Binary64) : Nat := x.mantissa <<< x.exponent.toNat

def den (x : Binary64) : Nat := 1 <<< (-x.exponent).toNat

def mul (x y : Binary64) : Binary64 := ofRatio (x.num * y.num) (x.den * y.den)

def div (x y : Binary64) : Binary64 := ofRatio (x.num * y.den) (x.den * y.num)

def isZero (x : Binary64) : Bool := x.mantissa = 0

/-- Beyond the largest number of the format. -/
def isInfinite (x : Binary64) : Bool := 971 < x.exponent

end Binary64

end ConstraintNet.Decimal
