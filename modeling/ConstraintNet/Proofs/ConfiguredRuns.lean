import ConstraintNet.Deadline.Clock
import ConstraintNet.Proofs.Deadlines
import ConstraintNet.Proofs.Questions
import ConstraintNet.Proofs.Stages

namespace ConstraintNet.Deadline

variable {σ R : Type}

namespace Worker

/-- `w.Ends token state k r`: in `state`, with `k` questions behind it, the worker goes on to end
with `r` if the questions to come are answered by the token. -/
inductive Ends (w : Worker σ R) (token : Token) : σ → Nat → R → Prop
  | finish {state : σ} {k : Nat} {r : R} (does : w.move state = .finish r) : Ends w token state k r
  | work {state next : σ} {k : Nat} {r : R} (does : w.move state = .work next)
      (rest : Ends w token next k r) : Ends w token state k r
  | poll {state : σ} {next : Bool → σ} {k : Nat} {r : R} (does : w.move state = .poll next)
      (rest : Ends w token (next (token k)) (k + 1) r) : Ends w token state k r

/-- The worker performs a computation: under every token it ends, with what comes of it. -/
def Performs (w : Worker σ R) (solve : Token → R) : Prop :=
  ∀ token, w.Ends token w.start 0 (solve token)

variable {w : Worker σ R} {token : Token} {state : σ} {k : Nat} {r : R}

/-- After the move, with `k` questions before it, the worker still goes on to end with `r`. -/
def Leads (w : Worker σ R) (token : Token) (k : Nat) (r : R) : Move σ R → Prop
  | .work next => w.Ends token next k r
  | .poll next => w.Ends token (next (token k)) (k + 1) r
  | .finish q => r = q
  | .crash => False

theorem Ends.leads (h : w.Ends token state k r) {m : Move σ R} (here : w.move state = m) :
    w.Leads token k r m := by
  rw [← here]
  cases h with
  | finish does =>
    rw [does]
    rfl
  | work does rest | poll does rest =>
    rw [does]
    exact rest

/-- The token that gives the listed answers, and no to what is asked after them. -/
def given (answers : List Bool) : Token := fun k => answers.getD k false

/-- Solves by asking one question after the other: its state is the list of answers so far. -/
def ofSolver (asked : Token → Nat) (solve : Token → R) : Worker (List Bool) R where
  start := []
  move answers :=
    if answers.length < asked (given answers) then .poll fun answer => answers ++ [answer]
    else .finish (solve (given answers))

/-- The first answers of a token. -/
def firstAnswers (token : Token) (k : Nat) : List Bool := (List.range k).map token

theorem length_firstAnswers (token : Token) (k : Nat) : (firstAnswers token k).length = k := by
  simp [firstAnswers]

theorem given_firstAnswers {token : Token} {k i : Nat} (h : i < k) :
    given (firstAnswers token k) i = token i := by
  simp [given, firstAnswers, h]

theorem firstAnswers_succ (token : Token) (k : Nat) :
    firstAnswers token (k + 1) = firstAnswers token k ++ [token k] := by
  simp [firstAnswers, List.range_succ]

section

variable {asked : Token → Nat} {solve : Token → R}
  (congr : ∀ token other : Token, (∀ k < asked token, other k = token k) →
    asked other = asked token ∧ solve other = solve token)
include congr

theorem ends_ofSolver (token : Token) (left k : Nat) (h : asked token - k = left) :
    (ofSolver asked solve).Ends token (firstAnswers token k) k (solve token) := by
  induction left generalizing k with
  | zero =>
    -- all questions are answered, and as the token answers them
    obtain ⟨hasked, hsolve⟩ := congr token (given (firstAnswers token k)) fun i hi =>
      given_firstAnswers (by omega)
    refine .finish ?_
    simp only [ofSolver, length_firstAnswers, hasked, hsolve]
    exact if_neg (by omega)
  | succ left ih =>
    -- were all questions answered, the token would be asked no more of them either
    have hopen : k < asked (given (firstAnswers token k)) := by
      apply Nat.lt_of_not_le
      intro hall
      have hsame := congr (given (firstAnswers token k)) token fun i hi =>
        (given_firstAnswers (Nat.lt_of_lt_of_le hi hall)).symm
      omega
    have hpoll : (ofSolver asked solve).move (firstAnswers token k) =
        .poll fun answer => firstAnswers token k ++ [answer] := by
      simp only [ofSolver, length_firstAnswers]
      exact if_pos hopen
    refine .poll hpoll ?_
    rw [← firstAnswers_succ]
    exact ih (k + 1) (by omega)

/-- A solver that hears nothing but the answers to its questions is performed by a worker. -/
theorem performs_ofSolver : (ofSolver asked solve).Performs solve :=
  fun token => ends_ofSolver congr token _ 0 rfl

end

end Worker

namespace Exchange

open Worker

variable {w : Worker σ R} {solve : Token → R}

/-- A worker that runs has heard answers under which it goes on to end as the computation does
under every token that gives these answers. They are all no if the token has not said yes. -/
structure Tracks (w : Worker σ R) (solve : Token → R) (s : Exchange σ R) : Prop where
  intact : s.worker ≠ .crashed
  running : ∀ state, s.worker = .running state → ∃ (k : Nat) (past : Token),
    (s.noticed = false → past = .never) ∧
      ∀ token, (∀ i < k, token i = past i) → w.Ends token state k (solve token)

theorem tracks_start (performs : w.Performs solve) : (start w).Tracks w solve where
  intact h := by cases h
  running state here := by
    cases here
    exact ⟨0, .never, fun _ => rfl, fun token _ => performs token⟩

theorem Tracks.of_ended {s : Exchange σ R} (h : s.worker = .finished) : s.Tracks w solve where
  intact hcrashed := by
    rw [h] at hcrashed
    cases hcrashed
  running state here := by
    rw [h] at here
    cases here

theorem Tracks.step {s : Exchange σ R} (h : s.Tracks w solve) (e : Event) :
    (s.step w e).Tracks w solve := by
  have hsteps := steps_step w s e
  generalize s.step w e = t at hsteps
  cases hsteps with
  | ended | blocked | expired | late | received | abandoned | waited | cancelled | gaveUp
  | returned => exact ⟨h.intact, h.running⟩
  | sent | lost => exact .of_ended rfl
  | worked here does =>
    obtain ⟨k, past, hquiet, hends⟩ := h.running _ here
    refine ⟨fun hcrashed => (by cases hcrashed), fun state hstate => ?_⟩
    cases hstate
    exact ⟨k, past, hquiet, fun token agrees => (hends token agrees).leads does⟩
  | polled here does =>
    rename_i next
    obtain ⟨k, past, hquiet, hends⟩ := h.running _ here
    refine ⟨fun hcrashed => (by cases hcrashed), fun state hstate => ?_⟩
    cases hstate
    -- one more answer is behind the worker, the one that the flag gives now
    refine ⟨k + 1, fun i => if i < k then past i else s.cancelled, fun hnoticed => ?_, ?_⟩
    · obtain ⟨hbefore, hnow⟩ := Bool.or_eq_false_iff.mp hnoticed
      funext i
      rw [hquiet hbefore, hnow]
      exact ite_self _
    · intro token agrees
      have hearlier (i : Nat) (hi : i < k) : token i = past i := by
        rw [agrees i (by omega)]
        exact if_pos hi
      have hlast : token k = s.cancelled := by
        rw [agrees k (by omega)]
        exact if_neg (Nat.lt_irrefl k)
      rw [← hlast]
      exact (hends token hearlier).leads does
  | broke breaks =>
    obtain ⟨state, here, does⟩ := breaks
    obtain ⟨k, past, -, hends⟩ := h.running _ here
    exact ((hends past fun _ _ => rfl).leads does).elim

theorem tracks_run (performs : w.Performs solve) (events : List Event) :
    (reached w events).Tracks w solve :=
  run_keeps (fun _ e h => h.step e) (tracks_start performs) events

/-- What a performing worker sends is what its computation comes to under some token, and under one
that never says yes unless the worker was told to stop. -/
theorem Tracks.of_sends {s : Exchange σ R} (h : s.Tracks w solve) {r : R} (sends : s.Sends w r) :
    ∃ token, r = solve token ∧ (s.noticed = false → token = .never) := by
  obtain ⟨state, here, does⟩ := sends
  obtain ⟨k, past, hquiet, hends⟩ := h.running state here
  have hresult : solve past = r := (hends past fun _ _ => rfl).leads does
  exact ⟨past, hresult.symm, hquiet⟩

/-- The caller of a performing worker is told that time is up, or what the computation comes to
under a token that never says yes. -/
theorem answer_of_performs (performs : w.Performs solve) {events : List Event} {a : Answer R}
    (h : (reached w events).answer? = some a) : a = .timedOut ∨ a = .own (solve .never) := by
  cases a with
  | own r =>
    obtain ⟨before, after, -, sends, waits⟩ := warranted_of_answer h
    have horderly := orderly_run w before
    have hquiet : (reached w before).noticed = false := by
      apply Bool.eq_false_iff.mpr
      intro hnoticed
      have hflag := horderly.noticed hnoticed
      rw [horderly.cancelled_eq_false waits] at hflag
      cases hflag
    obtain ⟨token, rfl, hnever⟩ := (tracks_run performs before).of_sends sends
    exact Or.inr (by rw [hnever hquiet])
  | timedOut => exact Or.inl rfl
  | workerPanicked =>
    have hcrashed := (orderly_run w events).broken (answer?_eq_some_iff.mp h)
    exact absurd hcrashed (tracks_run performs events).intact

/-- A worker that is given its time gets its result to the caller. -/
theorem exists_own {state : σ} {k : Nat} {r : R} (h : w.Ends .never state k r) :
    ∃ events, (run w events { worker := .running state }).answer? = some (.own r) := by
  -- as long as no event is the timer, every question is answered with no
  induction h with
  | finish does =>
    refine ⟨[.worker, .caller], ?_⟩
    simp only [run, List.foldl, step, workerMove, does, send, callerMove, answer?]
  | work does _ ih | poll does _ ih =>
    obtain ⟨events, hevents⟩ := ih
    refine ⟨.worker :: events, ?_⟩
    simp only [run, List.foldl, step, workerMove, does]
    exact hevents

end Exchange

section Clock

variable {m : Type → Type} [Monad m] [LawfulMonad m] (now : m Nat)

/-- If all runs that end have one result, the clock decides between it and none. -/
theorem attempt_eq_map {α : Type} {run : Nat → Option α} {direct : α}
    (same : ∀ allowance result, run allowance = some result → result = direct)
    (allowed : List Nat) :
    ∃ late : Nat → m Bool, ∀ finish, attempt now finish run allowed =
      (fun b => if b then none else some direct) <$> late finish := by
  -- each reading of the clock settles whether it is late, and only then is a result looked at
  induction allowed with
  | nil => exact ⟨fun _ => pure true, fun finish => by simp [attempt]⟩
  | cons allowance more ih =>
    obtain ⟨late, hmore⟩ := ih
    cases hrun : run allowance with
    | none =>
      refine ⟨fun finish => do if finish ≤ (← now) then pure true else late finish,
        fun finish => ?_⟩
      rw [attempt, map_bind]
      refine bind_congr fun reading => ?_
      by_cases hover : finish ≤ reading
      · simp [hover]
      · simp [hover, hrun, hmore]
    | some result =>
      obtain rfl := same allowance result hrun
      refine ⟨fun finish => do
        if finish ≤ (← now) then pure true else return finish ≤ (← now), fun finish => ?_⟩
      rw [attempt, map_bind]
      refine bind_congr fun reading => ?_
      by_cases hover : finish ≤ reading
      · simp [hover]
      · simp only [hover, if_false, hrun, map_bind, map_pure]
        refine bind_congr fun later => congrArg pure ?_
        by_cases hlate : finish ≤ later
        · simp [hlate]
        · simp [hlate, Nat.lt_of_not_le hlate]

theorem solveWithin_eq_map {V : Type} {solve : Token → Except Error (Outcome V)}
    {direct : Except Error (Outcome V)}
    (same : ∀ allowance result, resultWithin solve allowance = some result → result = direct)
    (ms : Nat) :
    ∃ late : m Bool, solveWithin now ms solve =
      (fun b => if b then .ok .timedOut else direct) <$> late := by
  obtain ⟨late, hattempt⟩ := attempt_eq_map now same allowances
  refine ⟨do late ((← now) + ms), ?_⟩
  simp only [solveWithin, within, hattempt, map_eq_pure_bind, bind_assoc, pure_bind]
  refine bind_congr fun begun => bind_congr fun b => ?_
  cases b with
  | false | true => rfl

end Clock

end ConstraintNet.Deadline

namespace ConstraintNet.Configuration

open Deadline

variable {V : Type} [Value V] [DecidableEq V] {n : Nat} {σ : Type}

/-- The solver of a configuration as a worker. -/
def worker (c : Configuration) (net : Network V n) (s : Store V n) :
    Worker (List Bool) (Except Error (Outcome V)) :=
  .ofSolver (c.asked net s) (c.answer net s)

theorem performs_worker (c : Configuration) (net : Network V n) (s : Store V n) :
    (c.worker net s).Performs (c.answer net s) :=
  Worker.performs_ofSolver fun _ _ agree => answer_congr agree

theorem store_solve (c : Configuration) (net : Network V n) (token : Token) (s : Store V n) :
    (c.solve net token s).2 = s := by
  unfold solve
  cases c.algorithm with
  | backtracking => exact c.plan.store_solve net token s
  | minConflicts => rfl

/-- A solver stopped after so many questions is not told of, or has solved as if it was never
stopped. -/
theorem resultWithin_answer (c : Configuration) (net : Network V n) (s : Store V n)
    {allowance : Nat} {result : Except Error (Outcome V)}
    (h : resultWithin (c.answer net s) allowance = some result) :
    result = c.answer net s .never := by
  have hcases := (c.answer_cases net s (.after allowance)).2
  unfold resultWithin at h
  split at h
  · cases h
  · rename_i hkept
    cases h
    exact hcases.resolve_left hkept

/-- A configured run under a deadline refines the run without one. Whatever the worker that performs
the solver and the order of events: the caller is told that time is up, or what the same
configuration returns without a deadline, and never that the solver was cancelled. The caller's
store is as it was. It is told something once the timer has expired and it has moved twice, and
some order of events lets the solver end in time. A run by a clock, of whatever monad, leaves it to
the clock which of the two it is. -/
theorem deadline_refines_direct (c : Configuration) (net : Network V n) (s : Store V n)
    (w : Worker σ (Except Error (Outcome V))) (performs : w.Performs (c.answer net s)) :
    ∃ direct : Except Error (Outcome V), direct ≠ .error .cancelled ∧
      (∀ events, { c with deadlineMs := none }.returned net s w events = (some direct, s)) ∧
      (∀ {m : Type → Type} [Monad m] (now : m Nat),
        { c with deadlineMs := none }.run now net s = return direct) ∧
      ∀ ms,
        (∀ events, ({ c with deadlineMs := some ms }.returned net s w events).2 = s ∧
          ∀ result, ({ c with deadlineMs := some ms }.returned net s w events).1 = some result →
            result = .ok .timedOut ∨ result = direct) ∧
        (∀ before after : List Event, 2 ≤ after.count .caller → ∃ result,
          ({ c with deadlineMs := some ms }.returned net s w (before ++ Event.timer :: after)).1 =
            some result) ∧
        (∃ events,
          ({ c with deadlineMs := some ms }.returned net s w events).1 = some direct) ∧
        ∀ {m : Type → Type} [Monad m] [LawfulMonad m] (now : m Nat), ∃ late : m Bool,
          { c with deadlineMs := some ms }.run now net s =
            (fun b => if b then .ok .timedOut else direct) <$> late := by
  refine ⟨c.answer net s .never, (c.answer_cases net s .never).1, fun events => ?_, fun now => rfl,
    fun ms => ⟨fun events => ⟨rfl, fun result h => ?_⟩, fun before after moves => ?_, ?_,
      fun now => solveWithin_eq_map now (fun _ _ => resultWithin_answer c net s) ms.toNat⟩⟩
  · have hstore : ({ c with deadlineMs := none }.solve net .never s).2 = s := store_solve ..
    exact Prod.ext rfl hstore
  · obtain ⟨a, ha, rfl⟩ := Option.map_eq_some_iff.mp h
    rcases Exchange.answer_of_performs performs ha with rfl | rfl
    · exact Or.inl rfl
    · exact Or.inr rfl
  · obtain ⟨past, left⟩ := Exchange.movesLeft_timer w (Exchange.reached w before)
    obtain ⟨a, ha⟩ := Exchange.exists_answer past (Nat.le_trans left moves)
    have hreached : (Exchange.reached w (before ++ .timer :: after)).answer? = some a := by
      rw [Exchange.reached_append]
      exact ha
    exact ⟨a.outcome, congrArg (Option.map Answer.outcome) hreached⟩
  · obtain ⟨events, hevents⟩ := Exchange.exists_own (performs .never)
    exact ⟨events, congrArg (Option.map Answer.outcome) hevents⟩

/-- Three variables in a row, each with the same two values. -/
def alternating : Store UInt8 3 where
  domains := .replicate 3 (.ofList [1, 2])
  assignment := ∅

def hurried : Configuration := { deadlineMs := some 5 }

theorem deadline_refines_direct_alternating :
    (hurried.worker (.onPath 3) alternating).Performs (hurried.answer (.onPath 3) alternating) ∧
      ∀ events result, (hurried.returned (.onPath 3) alternating
          (hurried.worker (.onPath 3) alternating) events).1 = some result →
        result = .ok .timedOut ∨ result.map Outcome.kind = .ok "solved" := by
  have performs := hurried.performs_worker (.onPath 3) alternating
  have hkind : (hurried.answer (.onPath 3) alternating .never).map Outcome.kind = .ok "solved" := by
    decide +kernel
  obtain ⟨direct, -, hdirect, -, hdeadline⟩ := deadline_refines_direct hurried _ _ _ performs
  have hsame : some (hurried.answer (.onPath 3) alternating .never) = some direct :=
    (Prod.mk.inj (hdirect [])).1
  refine ⟨performs, fun events result h => ?_⟩
  rcases ((hdeadline 5).1 events).2 result h with htimedOut | hresult
  · exact Or.inl htimedOut
  · rw [hresult, ← Option.some.inj hsame]
    exact Or.inr hkind

end ConstraintNet.Configuration
