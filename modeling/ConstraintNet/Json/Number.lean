import ConstraintNet.Decimal.Shortest

/-!
Numbers of JSON text. A whole number that fits a 64-bit word is kept exactly; of any other those
digits are taken in that keep the significand within 64 bits.
-/

namespace ConstraintNet.Json

open Decimal (Binary64 tenTo)

/-- A whole number of the 64-bit unsigned range, a negative one of the signed range, or the text of
any other number. -/
inductive Number
  | natural (n : Nat)
  | negative (i : Int)
  | decimal (shown : String)
  deriving DecidableEq, Repr

/-- What has been read of a number, by its last character. -/
inductive NumberPart
  | sign
  | leadingZero
  | digits
  /-- Digits that no longer fit the significand. -/
  | excessDigits
  | point
  | fraction
  | excessFraction
  | exponentMark
  | exponentSign
  | exponent
  deriving DecidableEq, Repr

/-- A number so far: `significand * 10 ^ (scale ± exponent)`. -/
structure NumberState where
  part : NumberPart
  isNegative : Bool
  significand : Nat := 0
  scale : Int := 0
  exponentIsNegative : Bool := false
  exponent : Nat := 0
  deriving DecidableEq, Repr

/-- What a further character does to a number: continues it, stands after it, or spoils it. -/
inductive Extension
  | more (state : NumberState)
  | after
  | malformed

namespace NumberState

def digit? (c : Char) : Option Nat := if c.isDigit then some (c.toNat - '0'.toNat) else none

def fits (s : NumberState) (d : Nat) : Bool := s.significand * 10 + d < UInt64.size

def isExponentMark (c : Char) : Bool := c = 'e' || c = 'E'

def extend (s : NumberState) (c : Char) : Extension :=
  match s.part, digit? c with
  | .sign, some d =>
    if d = 0 then .more { s with part := .leadingZero }
    else .more { s with part := .digits, significand := d }
  | .sign, none => .malformed
  | .leadingZero, some _ => .malformed
  | .digits, some d =>
    if s.fits d then .more { s with significand := s.significand * 10 + d }
    else .more { s with part := .excessDigits, scale := s.scale + 1 }
  | .excessDigits, some _ => .more { s with scale := s.scale + 1 }
  | .leadingZero, none | .digits, none | .excessDigits, none =>
    if c = '.' then .more { s with part := .point }
    else if isExponentMark c then .more { s with part := .exponentMark }
    else .after
  | .point, some d | .fraction, some d =>
    if s.fits d then
      .more { s with
        part := .fraction, significand := s.significand * 10 + d, scale := s.scale - 1 }
    else .more { s with part := .excessFraction }
  | .point, none => .malformed
  | .excessFraction, some _ => .more s
  | .fraction, none | .excessFraction, none =>
    if isExponentMark c then .more { s with part := .exponentMark } else .after
  | .exponentMark, some d | .exponentSign, some d =>
    .more { s with part := .exponent, exponent := d }
  | .exponentMark, none =>
    if c = '+' then .more { s with part := .exponentSign }
    else if c = '-' then .more { s with part := .exponentSign, exponentIsNegative := true }
    else .malformed
  | .exponentSign, none => .malformed
  | .exponent, some d => .more { s with exponent := s.exponent * 10 + d }
  | .exponent, none => .after

/-- `x * 10 ^ power`, in steps that the format can hold; none if too large for the format. -/
def scaleByTen (x : Binary64) (power : Int) : Option Binary64 :=
  if x.isZero then some x
  else if 308 < power then none
  else if 0 ≤ power then
    let y := x.mul (.ofNat (tenTo power.toNat))
    if y.isInfinite then none else some y
  else if -308 ≤ power then some (x.div (.ofNat (tenTo power.natAbs)))
  else scaleByTen (x.div (.ofNat (tenTo 308))) (power + 308)
termination_by power.natAbs

/-- Positional from `0.00001` up to below `10 ^ 16`. -/
def style : Decimal.Style := ⟨-5, 16⟩

def show? (isNegative : Bool) (x? : Option Binary64) : Option Number :=
  x?.map fun x => .decimal ((if isNegative then "-" else "") ++ x.shortest.write style)

/-- The number, if it may end here and is not too large. -/
def finish? (s : NumberState) : Option Number :=
  match s.part with
  | .leadingZero | .digits =>
    if !s.isNegative then some (.natural s.significand)
    else if 0 < s.significand ∧ 2 * s.significand ≤ UInt64.size then some (.negative (-s.significand))
    else show? true (some (.ofNat s.significand))
  | .excessDigits | .fraction | .excessFraction | .exponent =>
    let power := if s.exponentIsNegative then s.scale - s.exponent else s.scale + s.exponent
    show? s.isNegative (scaleByTen (.ofNat s.significand) power)
  | .sign | .point | .exponentMark | .exponentSign => none

end NumberState

end ConstraintNet.Json
