import ConstraintNet.Outcome
import ConstraintNet.Random.Draw
import ConstraintNet.Solution
import ConstraintNet.Token

/-!
A random complete assignment is repaired one variable at a time. Ties are broken at random, a
variable with one value left is never moved, and running out of steps shows nothing.
-/

namespace ConstraintNet

/-- The choices that make up a repair. -/
structure Repair where
  maxSteps : Nat
  seed : UInt64 := 0
  deriving DecidableEq, Repr

/-- A repair under way: a value for every variable, and the questions put to the token. -/
structure RepairRun (V : Type) (n : Nat) where
  values : Vector V n
  rng : Random.Stream
  stats : Statistics := {}
  polls : Nat := 0

/-- The entries that score highest. -/
def highest {α : Type} (scored : List (α × Nat)) : List α :=
  (scored.filter fun c => some c.2 = (scored.map Prod.snd).max?).map Prod.fst

/-- The entries that score lowest. -/
def lowest {α : Type} (scored : List (α × Nat)) : List α :=
  (scored.filter fun c => some c.2 = (scored.map Prod.snd).min?).map Prod.fst

namespace Repair

def name (repair : Repair) : String :=
  "min_conflicts(max_steps = " ++ toString repair.maxSteps ++ ")"

variable {V : Type} [Value V] [DecidableEq V] {n : Nat}

omit [DecidableEq V] in
/-- Draws a value for each of the first `k` variables from its domain. -/
def drawFirst (s : Store V n) : (k : Nat) → k ≤ n → Random.Stream →
    Except Error (Vector V k × Random.Stream)
  | 0, _, rng => .ok (#v[], rng)
  | k + 1, h, rng =>
    match drawFirst s k (Nat.le_of_succ_le h) rng with
    | .error e => .error e
    | .ok (values, rng) =>
      match rng.choose (s.domain ⟨k, h⟩).toList with
      | (none, _) => .error (.emptyDomain k)
      | (some x, rng) => .ok (values.push x, rng)

omit [Value V] [DecidableEq V] in
/-- How many neighbours `v = x` conflicts with. -/
def conflicts (net : Network V n) (values : Vector V n) (v : Fin n) (x : V) : Nat :=
  net.conflictCount (fun u => some (values.get u)) v x

omit [Value V] [DecidableEq V] in
/-- The variables in conflict, each with the number of its conflicts. -/
def conflicted (net : Network V n) (values : Vector V n) : List (Fin n × Nat) :=
  ((List.finRange n).map fun v => (v, conflicts net values v (values.get v))).filter fun c => 0 < c.2

omit [DecidableEq V] in
/-- Moves `v` to a value with the fewest conflicts. -/
def move (net : Network V n) (s : Store V n) (r : RepairRun V n) (v : Fin n) : RepairRun V n :=
  let choices := (s.domain v).toList
  let (x?, rng) := r.rng.choose (lowest (choices.map fun x => (x, conflicts net r.values v x)))
  { r with
    values := r.values.set v.val (x?.getD (r.values.get v)) v.isLt
    rng := rng
    stats :=
      { r.stats with
        nodesVisited := r.stats.nodesVisited + choices.length
        assignments := r.stats.assignments + 1
        steps := r.stats.steps + 1 } }

/-- Repairs for at most `left` more steps. -/
def repairFor (net : Network V n) (token : Token) (s : Store V n) :
    (left : Nat) → RepairRun V n → Except Error (Outcome V) × RepairRun V n
  | left, r =>
    let told := token r.polls
    let r := { r with polls := r.polls + 1 }
    if told then (.error .cancelled, r)
    else
      let found := conflicted net r.values
      let r := { r with stats := { r.stats with nodesVisited := r.stats.nodesVisited + n } }
      if found.isEmpty then
        let solution := Assignment.ofVector r.values
        ((net.verify s solution).map fun _ => .solved solution, r)
      else
        match left with
        | 0 => (.ok .stepBudgetExhausted, r)
        | left + 1 =>
          match r.rng.choose (highest (found.filter fun c => (s.domain c.1).size ≠ 1)) with
          | (none, _) => (.ok .stepBudgetExhausted, r)
          | (some v, rng) => repairFor net token s left (move net s { r with rng := rng } v)

omit [DecidableEq V] in
/-- Starts with a random assignment within the domains of the store. -/
def start (repair : Repair) (s : Store V n) : Except Error (RepairRun V n) :=
  match drawFirst s n (Nat.le_refl n) (.ofSeed repair.seed) with
  | .error e => .error e
  | .ok (values, rng) => .ok { values := values, rng := rng, stats := { assignments := n } }

/-- Repairs a random assignment within the domains of the store, which stays as it is. -/
def solve (repair : Repair) (net : Network V n) (token : Token) (s : Store V n) :
    Except Error (Outcome V × Statistics) :=
  match repair.start s with
  | .error e => .error e
  | .ok r =>
    let (result, r) := repairFor net token s repair.maxSteps r
    result.map fun outcome => (outcome, r.stats)

end Repair

end ConstraintNet
