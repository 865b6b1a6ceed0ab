import ConstraintNet.Network
import ConstraintNet.Random.Draw
import ConstraintNet.Store
import ConstraintNet.Strategy

namespace ConstraintNet

variable {V : Type} [Value V] {n : Nat}

namespace Network

/-- How many values of `v` its assigned neighbours allow. -/
def remainingValues (net : Network V n) (s : Store V n) (v : Fin n) : Nat :=
  (s.domain v).toList.countP fun x => net.isLegal s.value? v x

def unassignedDegree (net : Network V n) (s : Store V n) (v : Fin n) : Nat :=
  (net.neighbors v).countP fun u => !s.isAssigned u

/-- How many values in the domains of the unassigned neighbours `v = x` rules out. -/
def eliminatedChoices (net : Network V n) (s : Store V n) (v : Fin n) (x : V) : Nat :=
  (((net.neighbors v).filter fun u => !s.isAssigned u).flatMap fun u =>
    (s.domain u).toList.filter fun y => !net.consistent v x u y).length

end Network

/-- A rank of variables, the lower the sooner: the first number decides before the second. -/
structure Rank where
  first : Int
  second : Int
  deriving DecidableEq, Repr

instance : LT Rank := ⟨fun r t => r.first < t.first ∨ r.first = t.first ∧ r.second < t.second⟩

instance (r t : Rank) : Decidable (r < t) :=
  inferInstanceAs (Decidable (r.first < t.first ∨ r.first = t.first ∧ r.second < t.second))

/-- The first entry of least rank in `best :: rest`, where `best` has the given rank. -/
def firstLeastFrom {α : Type} (rank : α → Rank) (best : α) (least : Rank) : List α → α
  | [] => best
  | a :: rest =>
    let r := rank a
    if r < least then firstLeastFrom rank a r rest else firstLeastFrom rank best least rest

def firstLeast {α : Type} (rank : α → Rank) (a : α) (rest : List α) : α :=
  firstLeastFrom rank a (rank a) rest

theorem firstLeastFrom_mem {α : Type} (rank : α → Rank) (best : α) (least : Rank) (l : List α) :
    firstLeastFrom rank best least l ∈ best :: l := by
  induction l generalizing best least with
  | nil => simp [firstLeastFrom]
  | cons a rest ih =>
    simp only [firstLeastFrom]
    split
    · exact List.mem_cons_of_mem _ (ih a (rank a))
    · rcases List.mem_cons.1 (ih best least) with h | h
      · simp [h]
      · exact List.mem_cons_of_mem _ (List.mem_cons_of_mem _ h)

theorem firstLeast_mem {α : Type} (rank : α → Rank) (a : α) (rest : List α) :
    firstLeast rank a rest ∈ a :: rest := firstLeastFrom_mem ..

namespace VariableOrder

def rank (order : VariableOrder) (net : Network V n) (s : Store V n) (v : Fin n) : Rank :=
  match order with
  | static => ⟨0, 0⟩
  | mrv => ⟨net.remainingValues s v, 0⟩
  | degree => ⟨-net.unassignedDegree s v, 0⟩
  | mrvDegree => ⟨net.remainingValues s v, -net.unassignedDegree s v⟩

/-- The next variable among `v :: rest`, which are in ascending order. -/
def selectFrom (order : VariableOrder) (net : Network V n) (s : Store V n) (v : Fin n)
    (rest : List (Fin n)) : Fin n :=
  firstLeast (order.rank net s) v rest

theorem selectFrom_mem (order : VariableOrder) (net : Network V n) (s : Store V n) (v : Fin n)
    (rest : List (Fin n)) : order.selectFrom net s v rest ∈ v :: rest := firstLeast_mem ..

theorem length_erase_selectFrom (order : VariableOrder) (net : Network V n) (s : Store V n)
    (v : Fin n) (rest : List (Fin n)) :
    ((v :: rest).erase (order.selectFrom net s v rest)).length = rest.length := by
  rw [List.length_erase_of_mem (order.selectFrom_mem net s v rest)]
  rfl

/-- The next variable, if any is unassigned. -/
def select? (order : VariableOrder) (net : Network V n) (s : Store V n) : Option (Fin n) :=
  match s.unassigned with
  | [] => none
  | v :: rest => some (order.selectFrom net s v rest)

end VariableOrder

/-- The values of `v` in the order in which they are tried. -/
def ValueOrder.arrange (order : ValueOrder) (net : Network V n) (s : Store V n) (v : Fin n)
    (rng : Random.Stream) : List V × Random.Stream :=
  let values := (s.domain v).toList
  match order with
  | unordered => (values, rng)
  | lcv =>
    let scored := values.map fun x => (net.eliminatedChoices s v x, x)
    ((scored.mergeSort fun a b => a.1 ≤ b.1).map Prod.snd, rng)
  | random => rng.shuffle values

end ConstraintNet
