import ConstraintNet.Configuration

/-!
A caller waits for a worker no longer than a deadline. An interleaving of worker, timer and caller
is a list of events, and every list is possible.
-/

namespace ConstraintNet.Deadline

variable {σ R : Type}

/-- What a worker does next: work to itself, ask the token, end with a result, or break down. -/
inductive Move (σ R : Type)
  | work (next : σ)
  | poll (next : Bool → σ)
  | finish (result : R)
  | crash

/-- A computation that makes one move at a time, perhaps without end. -/
structure Worker (σ R : Type) where
  start : σ
  move : σ → Move σ R

inductive WorkerPhase (σ : Type)
  | running (state : σ)
  | finished
  | crashed

/-- What the caller gives back. -/
inductive Answer (R : Type)
  | own (result : R)
  | timedOut
  | workerPanicked

/-- The caller waits, or has seen the timer expire, has cancelled the token, has returned. -/
inductive CallerPhase (R : Type)
  | waiting
  | expired
  | cancelled
  | returned (answer : Answer R)

structure Exchange (σ R : Type) where
  worker : WorkerPhase σ
  /-- The channel: a result that was sent and not yet taken. -/
  slot : Option R := none
  cancelled : Bool := false
  /-- The token has answered the worker with yes. -/
  noticed : Bool := false
  caller : CallerPhase R := .waiting

/-- Whose turn it is. -/
inductive Event
  | worker
  | timer
  | caller
  deriving DecidableEq, Repr

namespace Exchange

def start (w : Worker σ R) : Exchange σ R := { worker := .running w.start }

/-- Sending waits for room in the channel. Once the caller has returned, the result is lost. -/
def send (s : Exchange σ R) (result : R) : Exchange σ R :=
  match s.caller, s.slot with
  | .returned _, _ => { s with worker := .finished }
  | _, none => { s with worker := .finished, slot := some result }
  | _, some _ => s

def workerMove (w : Worker σ R) (s : Exchange σ R) : Exchange σ R :=
  match s.worker with
  | .running state =>
    match w.move state with
    | .work next => { s with worker := .running next }
    | .poll next =>
      { s with worker := .running (next s.cancelled), noticed := s.noticed || s.cancelled }
    | .finish result => s.send result
    | .crash => { s with worker := .crashed }
  | _ => s

/-- A waiting caller looks at the channel; a worker that broke down will never send. -/
def callerMove (s : Exchange σ R) : Exchange σ R :=
  match s.caller with
  | .waiting =>
    match s.slot, s.worker with
    | some result, _ => { s with slot := none, caller := .returned (.own result) }
    | none, .crashed => { s with caller := .returned .workerPanicked }
    | none, _ => s
  | .expired => { s with cancelled := true, caller := .cancelled }
  | .cancelled => { s with caller := .returned .timedOut }
  | .returned _ => s

/-- The timer matters to a caller that waits. -/
def timerMove (s : Exchange σ R) : Exchange σ R :=
  match s.caller with
  | .waiting => { s with caller := .expired }
  | _ => s

def step (w : Worker σ R) (s : Exchange σ R) : Event → Exchange σ R
  | .worker => s.workerMove w
  | .timer => s.timerMove
  | .caller => s.callerMove

def run (w : Worker σ R) (events : List Event) (s : Exchange σ R) : Exchange σ R :=
  events.foldl (step w) s

/-- Where the events lead. -/
def reached (w : Worker σ R) (events : List Event) : Exchange σ R := (start w).run w events

/-- The interleaving in which the worker makes up to `moves` moves before the timer expires, and
the caller looks after each of them. -/
def await (w : Worker σ R) : (moves : Nat) → Exchange σ R → Exchange σ R
  | 0, s => s.run w [.timer, .caller, .caller]
  | moves + 1, s =>
    let s := s.run w [.worker, .caller]
    match s.caller with
    | .returned _ => s
    | _ => await w moves s

/-- What the caller has returned, if it has. -/
def answer? (s : Exchange σ R) : Option (Answer R) :=
  match s.caller with
  | .returned answer => some answer
  | _ => none

end Exchange

/-- How a worker ends. -/
inductive Ending (R : Type)
  | result (r : R)
  | breakdown

def Ending.move : Ending R → Move σ R
  | result r => .finish r
  | breakdown => .crash

/-- Ends at once. -/
def Worker.immediate (ending : Ending R) : Worker Unit R where
  start := ()
  move _ := ending.move

/-- Ends once the token has answered yes. -/
def Worker.untilCancelled (ending : Ending R) : Worker Bool R where
  start := false
  move
    | false => .poll id
    | true => ending.move

/-- What a solver's caller is told. -/
def Answer.outcome {V : Type} : Answer (Except Error (Outcome V)) → Except Error (Outcome V)
  | own result => result
  | timedOut => .ok .timedOut
  | workerPanicked => .error .workerPanicked

end ConstraintNet.Deadline

namespace ConstraintNet.Configuration

open Deadline

/-- What a configured run has returned after the events, if it has, and the caller's store then.
Under a deadline the solver is a worker with a copy of the store; without one it works on the
caller's own store, and nobody cancels it. -/
def returned {σ V : Type} [Value V] [DecidableEq V] {n : Nat} (c : Configuration)
    (net : Network V n) (s : Store V n) (w : Worker σ (Except Error (Outcome V)))
    (events : List Event) : Option (Except Error (Outcome V)) × Store V n :=
  match c.deadlineMs with
  | some _ => ((Exchange.reached w events).answer?.map Answer.outcome, s)
  | none => (some (c.answer net s .never), (c.solve net .never s).2)

end ConstraintNet.Configuration
