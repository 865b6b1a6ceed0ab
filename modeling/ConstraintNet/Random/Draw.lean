import ConstraintNet.Random.Stream

namespace ConstraintNet.Random.Stream

/-- A draw of fewer than this many words is unbiased. Each word is rejected with probability less
than one half, so a draw takes more with probability below one in `2 ^ 256`. -/
def patience : Nat := 256

/-- Scales words to `0 … n - 1`. A word whose scaled remainder falls in the incomplete last part of
the range is rejected in favour of the next one. -/
def belowWithin (n : Nat) (pos : 0 < n) : (attempts : Nat) → Stream → Fin n × Stream
  | attempts, s =>
    let (word, s) := s.next
    let scaled := word.toNat * n
    let zone := (n <<< (31 - n.log2)) - 1
    let answer : Fin n := ⟨scaled / UInt32.size, (Nat.div_lt_iff_lt_mul (by decide)).2
      (Nat.mul_comm n _ ▸ Nat.mul_lt_mul_of_pos_right word.toNat_lt_size pos)⟩
    match attempts with
    | 0 => (answer, s)
    | attempts + 1 =>
      if scaled % UInt32.size ≤ zone then (answer, s) else belowWithin n pos attempts s

/-- A number below `n`, each with the same chance. -/
def below (s : Stream) (n : Nat) (pos : 0 < n) : Fin n × Stream := belowWithin n pos patience s

/-- A member of the list; nothing is drawn for an empty one. -/
def choose {α : Type} (s : Stream) (l : List α) : Option α × Stream :=
  if h : 0 < l.length then
    let (i, s) := s.below l.length h
    (some l[i], s)
  else (none, s)

/-- Exchanges each of the entries `i, …, 1` with one that does not come after it. -/
def shuffleFrom {α : Type} : (i : Nat) → Array α → Stream → Array α × Stream
  | 0, a, s => (a, s)
  | i + 1, a, s =>
    let (j, s) := s.below (i + 2) (by omega)
    shuffleFrom i (a.swapIfInBounds (i + 1) j) s

/-- The list in some order, each with the same chance. -/
def shuffle {α : Type} (s : Stream) (l : List α) : List α × Stream :=
  let (a, s) := shuffleFrom (l.length - 1) l.toArray s
  (a.toList, s)

end ConstraintNet.Random.Stream
