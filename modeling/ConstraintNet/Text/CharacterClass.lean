namespace ConstraintNet.Text

/-- Ranges of code points, both ends included, in ascending order and apart from each other. -/
abbrev CodeRanges := Array (Nat × Nat)

/-- Searches the ranges `lo ≤ i < hi`; each round halves what is left. -/
def searchRanges (ranges : CodeRanges) (code lo hi : Nat) : Bool :=
  if h : lo < hi then
    let mid := (lo + hi) / 2
    let range := ranges.getD mid (0, 0)
    if code < range.1 then searchRanges ranges code lo mid
    else if range.2 < code then searchRanges ranges code (mid + 1) hi
    else true
  else false
termination_by hi - lo

def inRanges (ranges : CodeRanges) (c : Char) : Bool := searchRanges ranges c.toNat 0 ranges.size

/-- Holds from the character `lo` to the character `hi`. -/
def isBetween (lo hi : Nat) (c : Char) : Bool := lo ≤ c.toNat && c.toNat ≤ hi

end ConstraintNet.Text
