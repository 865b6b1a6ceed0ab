import ConstraintNet.Branching
import ConstraintNet.Outcome
import ConstraintNet.Propagation
import ConstraintNet.Solution
import ConstraintNet.Token

/-!
Depth-first search with backtracking. Domains are pruned in place and put back from the trail, so
the store that comes back is the one handed in, however the search ends.
-/

namespace ConstraintNet

/-- The choices that make up a backtracking search. -/
structure Plan where
  variableOrder : VariableOrder
  valueOrder : ValueOrder
  inference : Inference
  seed : UInt64 := 0
  deriving DecidableEq, Repr

/-- A search under way. `polls` counts the questions put to the token. -/
structure Run (V : Type) [Ord V] (n : Nat) where
  store : Store V n
  rng : Random.Stream
  stats : Statistics := {}
  polls : Nat := 0

/-- How a part of a search ends: `true` with every variable assigned, `false` with the part
exhausted, or with an error that ends the whole search. -/
abbrev Verdict := Except Error Bool

namespace Plan

/-- Names are read in the order variable, value, inference. -/
def ofNames (variableOrder valueOrder inference : String) (seed : UInt64) :
    Except Error Plan := do
  return ⟨← Choice.parse variableOrder, ← Choice.parse valueOrder, ← Choice.parse inference, seed⟩

def name (plan : Plan) : String :=
  "backtracking(" ++ Choice.name plan.variableOrder ++ ", " ++ Choice.name plan.valueOrder ++
    ", " ++ Choice.name plan.inference ++ ")"

variable {V : Type} [Value V] [DecidableEq V] {n : Nat}

/-- Replaces the store, and counts the removals that the new one has recorded. -/
def record (r : Run V n) (s : Store V n) : Run V n :=
  let changes := s.trail.length - r.store.trail.length
  { r with
    store := s
    stats := { r.stats with domainChanges := r.stats.domainChanges + changes } }

/-- Enters a value into the assignment. -/
def enter (r : Run V n) (v : Fin n) (x : V) : Run V n :=
  { r with
    store := r.store.assign v x
    stats := { r.stats with assignments := r.stats.assignments + 1 } }

/-- Prunes after `v` was assigned, if the plan's inference does so. -/
def infer (plan : Plan) (net : Network V n) (r : Run V n) (v : Fin n) : Run V n × Propagation n :=
  if plan.inference.runsPerAssignment then
    let (s, propagation) := net.afterAssignment plan.inference r.store v
    let r := record r s
    ({ r with stats := { r.stats with inferenceCalls := r.stats.inferenceCalls + 1 } },
      propagation)
  else (r, .consistent)

/-- Tries to assign `v = x` and to make the inferences that follow. -/
def tryValue (plan : Plan) (net : Network V n) (r : Run V n) (v : Fin n) (x : V) :
    Run V n × Propagation n :=
  let r := enter r v x
  plan.infer net (record r (r.store.narrow v x)) v

/-- Takes back what was done since the trail had the given length and `v` was unassigned. -/
def retract (r : Run V n) (v : Fin n) (length : Nat) : Run V n :=
  { r with
    store := (r.store.restore length).unassign v
    stats := { r.stats with backtracks := r.stats.backtracks + 1 } }

/-- Tries the values of `v` in turn, each time going on with `descend`, until one leads to an
answer. Values that conflict with an assigned neighbour are passed over. -/
def tryEach (plan : Plan) (net : Network V n) (descend : Run V n → Verdict × Run V n) (v : Fin n)
    (length : Nat) : List V → Run V n → Verdict × Run V n
  | [], r => (.ok false, r)
  | x :: rest, r =>
    if net.isLegal r.store.value? v x then
      match plan.tryValue net r v x with
      | (r, .wipeout _) => plan.tryEach net descend v length rest (retract r v length)
      | (r, .consistent) =>
        match descend r with
        | (.ok false, r) => plan.tryEach net descend v length rest (retract r v length)
        | (verdict, r) => (verdict, r)
    else plan.tryEach net descend v length rest r

/-- Asks the token. -/
def poll (token : Token) (r : Run V n) : Bool × Run V n :=
  (token r.polls, { r with polls := r.polls + 1 })

/-- Searches for values of the pending variables, of which there are `depth`. -/
def searchPending (plan : Plan) (net : Network V n) (token : Token) :
    (depth : Nat) → (pending : List (Fin n)) → pending.length = depth → Run V n →
      Verdict × Run V n
  | depth, pending, count, r =>
    match poll token r with
    | (true, r) => (.error .cancelled, r)
    | (false, r) =>
      let r := { r with stats := { r.stats with nodesVisited := r.stats.nodesVisited + 1 } }
      match depth, pending, count with
      | 0, _, _ => (.ok true, r)
      | depth + 1, first :: others, count =>
        let v := plan.variableOrder.selectFrom net r.store first others
        if (r.store.domain v).isEmpty then
          (.error (.invariantViolation (.emptyDomainSelected v)), r)
        else
          have fewer := (plan.variableOrder.length_erase_selectFrom net r.store first others).trans
            (Nat.succ.inj count)
          let (values, rng) := plan.valueOrder.arrange net r.store v r.rng
          plan.tryEach net (plan.searchPending net token depth ((first :: others).erase v) fewer) v
            r.store.trail.length values { r with rng := rng }

/-- Searches for values of the unassigned variables. -/
def search (plan : Plan) (net : Network V n) (token : Token) (r : Run V n) : Verdict × Run V n :=
  plan.searchPending net token _ r.store.unassigned rfl r

/-- Assigns, in order, the listed variables that are unassigned and have one value left. Answers
`false` on a contradiction. -/
def assignForcedFrom (plan : Plan) (net : Network V n) : List (Fin n) → Run V n → Bool × Run V n
  | [], r => (true, r)
  | v :: rest, r =>
    if r.store.isAssigned v then plan.assignForcedFrom net rest r
    else
      match (r.store.domain v).only? with
      | none => plan.assignForcedFrom net rest r
      | some x =>
        if net.isLegal r.store.value? v x then
          match plan.infer net (enter r v x) v with
          | (r, .wipeout _) => (false, r)
          | (r, .consistent) => plan.assignForcedFrom net rest r
        else (false, r)

def assignForced (plan : Plan) (net : Network V n) (r : Run V n) : Bool × Run V n :=
  plan.assignForcedFrom net (List.finRange n) r

/-- Prunes before the search, if the plan's inference does so. -/
def preprocess (plan : Plan) (net : Network V n) (r : Run V n) : Run V n × Propagation n :=
  if plan.inference.preprocesses then
    let (s, propagation) := net.ac3 r.store
    let r := record r s
    ({ r with stats := { r.stats with inferenceCalls := r.stats.inferenceCalls + 1 } },
      propagation)
  else (r, .consistent)

/-- A whole search. The store that comes back is still pruned. -/
def run (plan : Plan) (net : Network V n) (token : Token) (r : Run V n) :
    Except Error (Outcome V) × Run V n :=
  if (net.conflictingSingletons r.store).isSome then (.ok .unsatisfiable, r)
  else
    match plan.preprocess net r with
    | (r, .wipeout _) => (.ok .unsatisfiable, r)
    | (r, .consistent) =>
      match plan.assignForced net r with
      | (false, r) => (.ok .unsatisfiable, r)
      | (true, r) =>
        match plan.search net token r with
        | (.error e, r) => (.error e, r)
        | (.ok false, r) => (.ok .unsatisfiable, r)
        | (.ok true, r) =>
          match net.verify r.store r.store.assignment with
          | .error e => (.error e, r)
          | .ok () => (.ok (.solved r.store.assignment), r)

/-- Starts with an empty trail, so that everything removed can be put back. -/
def start (plan : Plan) (s : Store V n) : Run V n :=
  { store := { s with trail := [] }, rng := .ofSeed plan.seed }

/-- Puts back every domain and the assignment of `s`. The trail of `s` was not in use. -/
def handBack (s : Store V n) (r : Run V n) : Store V n :=
  { r.store.restore 0 with assignment := s.assignment, trail := s.trail }

/-- Searches from a store, and gives the store back with the outcome and the statistics. -/
def solve (plan : Plan) (net : Network V n) (token : Token) (s : Store V n) :
    Except Error (Outcome V × Statistics) × Store V n :=
  let (result, r) := plan.run net token (plan.start s)
  (result.map fun outcome => (outcome, r.stats), handBack s r)

end Plan

end ConstraintNet
