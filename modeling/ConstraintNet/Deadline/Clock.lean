import ConstraintNet.Configuration

/-!
Deadlines by a clock, which may be an action of any monad. A run is allowed so many questions to
its token before it is cancelled, and more of them the next time, until it ends or time is up.
-/

namespace ConstraintNet.Deadline

/-- Allowances of a run, each four times the one before. -/
def allowances : List Nat := (List.range 30).map fun k => 64 <<< (2 * k)

variable {m : Type → Type} [Monad m] {α : Type}

/-- Tries one allowance after the other. A result that comes after the end is lost. -/
def attempt (now : m Nat) (finish : Nat) (run : Nat → Option α) : List Nat → m (Option α)
  | [] => return none
  | allowance :: more => do
    if finish ≤ (← now) then return none
    match run allowance with
    | none => attempt now finish run more
    | some result => return if (← now) < finish then some result else none

/-- Runs for at most so many milliseconds. -/
def within (now : m Nat) (ms : Nat) (run : Nat → Option α) : m (Option α) := do
  attempt now ((← now) + ms) run allowances

variable {V : Type}

/-- The result of a solver that is cancelled after so many questions, if that came too late. -/
def resultWithin (solve : Token → Except Error (Outcome V)) (allowance : Nat) :
    Option (Except Error (Outcome V)) :=
  match solve (.after allowance) with
  | .error .cancelled => none
  | result => some result

/-- Solves for at most so many milliseconds. -/
def solveWithin (now : m Nat) (ms : Nat) (solve : Token → Except Error (Outcome V)) :
    m (Except Error (Outcome V)) := do
  return (← within now ms (resultWithin solve)).getD (.ok .timedOut)

end ConstraintNet.Deadline

namespace ConstraintNet.Configuration

/-- Runs the configured strategy, within the deadline if there is one. The caller's store is not
changed. -/
def run {m : Type → Type} [Monad m] {V : Type} [Value V] [DecidableEq V] {n : Nat}
    (c : Configuration) (now : m Nat) (net : Network V n) (s : Store V n) :
    m (Except Error (Outcome V)) :=
  match c.deadlineMs with
  | some ms => Deadline.solveWithin now ms.toNat (c.answer net s)
  | none => return c.answer net s .never

end ConstraintNet.Configuration
