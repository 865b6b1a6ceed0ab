import ConstraintNet.Deadline.Protocol

namespace ConstraintNet.Deadline.Exchange

variable {σ R : Type} {w : Worker σ R}

theorem reached_append (w : Worker σ R) (events more : List Event) :
    reached w (events ++ more) = (reached w events).run w more := List.foldl_append

/-- The worker's next move is to send the result. -/
def Sends (w : Worker σ R) (s : Exchange σ R) (r : R) : Prop :=
  ∃ state, s.worker = .running state ∧ w.move state = .finish r

/-- The worker's next move is to break down. -/
def Breaks (w : Worker σ R) (s : Exchange σ R) : Prop :=
  ∃ state, s.worker = .running state ∧ w.move state = .crash

/-- The worker's next move is to ask the token, and to go on as the answer says. -/
def Polls (w : Worker σ R) (s : Exchange σ R) (next : Bool → σ) : Prop :=
  ∃ state, s.worker = .running state ∧ w.move state = .poll next

/-- The caller has seen the timer expire, and has answered or is to answer `timedOut`. -/
def Committed (s : Exchange σ R) : Prop :=
  s.caller = .expired ∨ s.caller = .cancelled ∨ s.caller = .returned .timedOut

/-- In the run of the events, the event comes up in a state with the property. -/
def Happens (w : Worker σ R) (events : List Event) (e : Event) (P : Exchange σ R → Prop) : Prop :=
  ∃ before after, events = before ++ e :: after ∧ P (reached w before)

/-- What happened in a run of the events that ends with the answer. -/
def Warranted (w : Worker σ R) (events : List Event) : Answer R → Prop
  | .own r => Happens w events .worker fun s => s.Sends w r ∧ s.caller = .waiting
  | .timedOut => Happens w events .caller fun s =>
      s.answer? = none ∧ s.cancelled = true ∧ (s.step w .caller).answer? = some .timedOut
  | .workerPanicked =>
      Happens w events .worker (Breaks w) ∧ ∀ r, ¬ Happens w events .worker fun s => s.Sends w r

/-- `Steps w s e t`: in the state `s` the event leads to `t`. -/
inductive Steps (w : Worker σ R) (s : Exchange σ R) : Event → Exchange σ R → Prop
  | ended (done : ∀ state, s.worker ≠ .running state) : Steps w s .worker s
  | worked {state next : σ} (here : s.worker = .running state) (does : w.move state = .work next) :
      Steps w s .worker { s with worker := .running next }
  | polled {state : σ} {next : Bool → σ} (here : s.worker = .running state)
      (does : w.move state = .poll next) :
      Steps w s .worker
        { s with worker := .running (next s.cancelled), noticed := s.noticed || s.cancelled }
  | sent {r : R} (sends : s.Sends w r) (room : s.slot = none)
      (heard : ∀ a, s.caller ≠ .returned a) :
      Steps w s .worker { s with worker := .finished, slot := some r }
  | lost {r : R} {a : Answer R} (sends : s.Sends w r) (unheard : s.caller = .returned a) :
      Steps w s .worker { s with worker := .finished }
  | blocked {r q : R} (sends : s.Sends w r) (full : s.slot = some q) : Steps w s .worker s
  | broke (breaks : s.Breaks w) : Steps w s .worker { s with worker := .crashed }
  | expired (waits : s.caller = .waiting) : Steps w s .timer { s with caller := .expired }
  | late (past : s.caller ≠ .waiting) : Steps w s .timer s
  | received {r : R} (waits : s.caller = .waiting) (full : s.slot = some r) :
      Steps w s .caller { s with slot := none, caller := .returned (.own r) }
  | abandoned (waits : s.caller = .waiting) (empty : s.slot = none) (crashed : s.worker = .crashed) :
      Steps w s .caller { s with caller := .returned .workerPanicked }
  | waited (waits : s.caller = .waiting) (empty : s.slot = none) (alive : s.worker ≠ .crashed) :
      Steps w s .caller s
  | cancelled (expired : s.caller = .expired) :
      Steps w s .caller { s with cancelled := true, caller := .cancelled }
  | gaveUp (cancelled : s.caller = .cancelled) :
      Steps w s .caller { s with caller := .returned .timedOut }
  | returned {a : Answer R} (done : s.caller = .returned a) : Steps w s .caller s

theorem steps_send {s : Exchange σ R} {r : R} (sends : s.Sends w r) :
    Steps w s .worker (s.send r) := by
  unfold send
  split
  · rename_i unheard
    exact .lost sends unheard
  · rename_i room heard
    exact .sent sends room heard
  · rename_i full heard
    exact .blocked sends full

theorem steps_step (w : Worker σ R) (s : Exchange σ R) (e : Event) : Steps w s e (s.step w e) := by
  cases e with
  | worker =>
    change Steps w s .worker (s.workerMove w)
    unfold workerMove
    split
    · rename_i state here
      split
      · rename_i does
        exact .worked here does
      · rename_i does
        exact .polled here does
      · rename_i r does
        exact steps_send ⟨state, here, does⟩
      · rename_i does
        exact .broke ⟨state, here, does⟩
    · rename_i done
      exact .ended done
  | timer =>
    change Steps w s .timer s.timerMove
    unfold timerMove
    split
    · rename_i waits
      exact .expired waits
    · rename_i past
      exact .late past
  | caller =>
    change Steps w s .caller s.callerMove
    unfold callerMove
    split
    · rename_i waits
      split
      · rename_i full
        exact .received waits full
      · rename_i empty crashed
        exact .abandoned waits empty crashed
      · rename_i empty alive
        exact .waited waits empty alive
    · rename_i expired
      exact .cancelled expired
    · rename_i cancelled
      exact .gaveUp cancelled
    · rename_i done
      exact .returned done

theorem run_keeps {P : Exchange σ R → Prop} (step : ∀ s e, P s → P (s.step w e))
    {s : Exchange σ R} (h : P s) (events : List Event) : P (s.run w events) := by
  induction events generalizing s with
  | nil => exact h
  | cons e events ih => exact ih (step s e h)

/-- What becomes so only by the event `e`, in a state with the property, and is so after a run but
not before it, became so at such an event. -/
theorem exists_of_run {P Q : Exchange σ R → Prop} {e : Event}
    (origin : ∀ s e', Q (s.step w e') → Q s ∨ e' = e ∧ P s) {s : Exchange σ R} {events : List Event}
    (h : Q (s.run w events)) :
    Q s ∨ ∃ before after, events = before ++ e :: after ∧ P (s.run w before) := by
  -- it is so after the first event already, or became so later; the state before is then any
  induction events generalizing s with
  | nil => exact Or.inl h
  | cons e' events ih =>
    rcases ih h with hstep | ⟨before, after, rfl, hP⟩
    · rcases origin s e' hstep with hs | ⟨rfl, hP⟩
      · exact Or.inl hs
      · exact Or.inr ⟨[], events, rfl, hP⟩
    · exact Or.inr ⟨e' :: before, after, rfl, hP⟩

theorem happens_of_run {P Q : Exchange σ R → Prop} {e : Event}
    (origin : ∀ s e', Q (s.step w e') → Q s ∨ e' = e ∧ P s) (fresh : ¬ Q (start w))
    {events : List Event} (h : Q (reached w events)) : Happens w events e P :=
  (exists_of_run origin h).resolve_left fresh

/-- The token is cancelled exactly if the caller has gone from seeing the timer expire to giving
up, and only a worker that has sent its result leaves something in the channel. -/
structure Orderly (s : Exchange σ R) : Prop where
  flag : s.cancelled = true ↔ s.caller = .cancelled ∨ s.caller = .returned .timedOut
  noticed : s.noticed = true → s.cancelled = true
  filled : ∀ r, s.slot = some r → s.worker = .finished
  broken : s.caller = .returned .workerPanicked → s.worker = .crashed

theorem orderly_start (w : Worker σ R) : (start w).Orderly where
  flag := by simp [start]
  noticed h := by cases h
  filled r h := by cases h
  broken h := by cases h

/-- While the worker runs, the channel is empty and the caller has not found it broken. -/
theorem Orderly.of_running {s : Exchange σ R} (h : s.Orderly) {state : σ}
    (here : s.worker = .running state) :
    (∀ r, s.slot ≠ some r) ∧ s.caller ≠ .returned .workerPanicked := by
  constructor
  · intro r hr
    rw [h.filled r hr] at here
    cases here
  · intro hbroken
    rw [h.broken hbroken] at here
    cases here

theorem Orderly.cancelled_eq_false {s : Exchange σ R} (h : s.Orderly)
    (waits : s.caller = .waiting) : s.cancelled = false := by
  apply Bool.eq_false_iff.mpr
  intro hflag
  simp [h.flag, waits] at hflag

theorem Orderly.step {s : Exchange σ R} (h : s.Orderly) (e : Event) : (s.step w e).Orderly := by
  have hsteps := steps_step w s e
  -- one case for each thing that can happen; while the worker runs, nothing was sent and nobody
  -- crashed
  generalize s.step w e = t at hsteps
  cases hsteps with
  | ended => exact h
  | worked here =>
    obtain ⟨hslot, hcaller⟩ := h.of_running here
    exact ⟨h.flag, h.noticed, fun r hr => absurd hr (hslot r), fun hb => absurd hb hcaller⟩
  | polled here =>
    obtain ⟨hslot, hcaller⟩ := h.of_running here
    refine ⟨h.flag, fun hn => ?_, fun r hr => absurd hr (hslot r), fun hb => absurd hb hcaller⟩
    exact (Bool.or_eq_true_iff.mp hn).elim h.noticed id
  | sent sends | lost sends =>
    obtain ⟨state, here, -⟩ := sends
    exact ⟨h.flag, h.noticed, fun _ _ => rfl, fun hb => absurd hb (h.of_running here).2⟩
  | blocked => exact h
  | broke breaks =>
    obtain ⟨state, here, -⟩ := breaks
    have hslot := (h.of_running here).1
    exact ⟨h.flag, h.noticed, fun r hr => absurd hr (hslot r), fun _ => rfl⟩
  | expired waits =>
    have hquiet := h.cancelled_eq_false waits
    exact ⟨by simp [hquiet], h.noticed, h.filled, fun hb => by cases hb⟩
  | late => exact h
  | received waits =>
    have hquiet := h.cancelled_eq_false waits
    exact ⟨by simp [hquiet], h.noticed, fun r hr => (by cases hr), fun hb => by cases hb⟩
  | abandoned waits _ crashed =>
    have hquiet := h.cancelled_eq_false waits
    exact ⟨by simp [hquiet], h.noticed, h.filled, fun _ => crashed⟩
  | waited => exact h
  | cancelled => exact ⟨by simp, fun _ => rfl, h.filled, fun hb => by cases hb⟩
  | gaveUp cancelled =>
    have hflag := h.flag.mpr (Or.inl cancelled)
    exact ⟨by simp [hflag], fun _ => hflag, h.filled, fun hb => by cases hb⟩
  | returned => exact h

theorem orderly_run (w : Worker σ R) (events : List Event) : (reached w events).Orderly :=
  run_keeps (fun _ e h => h.step e) (orderly_start w) events

/-- In an orderly state the worker that sends does not wait, and the caller is left as it is. -/
theorem Orderly.step_of_sends {s : Exchange σ R} (h : s.Orderly) {r : R} (sends : s.Sends w r) :
    (s.step w .worker).worker = .finished ∧ (s.step w .worker).caller = s.caller := by
  obtain ⟨state, here, does⟩ := sends
  have hstep : s.step w .worker = s.send r := by
    simp only [Exchange.step, workerMove, here, does]
  rw [hstep]
  unfold send
  split
  · exact ⟨rfl, rfl⟩
  · exact ⟨rfl, rfl⟩
  · rename_i full _
    exact absurd full ((h.of_running here).1 _)

theorem finished_step {s : Exchange σ R} (h : s.worker = .finished) (e : Event) :
    (s.step w e).worker = .finished := by
  have hsteps := steps_step w s e
  generalize s.step w e = t at hsteps
  cases hsteps with
  | sent | lost => rfl
  | worked here | polled here =>
    rw [h] at here
    cases here
  | broke breaks =>
    obtain ⟨state, here, -⟩ := breaks
    rw [h] at here
    cases here
  | ended | blocked | expired | late | received | abandoned | waited | cancelled | gaveUp
  | returned => exact h

theorem returned_step {s : Exchange σ R} {a : Answer R} (h : s.caller = .returned a) (e : Event) :
    (s.step w e).caller = .returned a := by
  have hsteps := steps_step w s e
  generalize s.step w e = t at hsteps
  cases hsteps with
  | ended | worked | polled | sent | lost | blocked | broke | late | waited | returned => exact h
  | expired past | received past | abandoned past | cancelled past | gaveUp past =>
    rw [h] at past
    cases past

theorem Committed.step {s : Exchange σ R} (h : s.Committed) (e : Event) :
    (s.step w e).Committed := by
  have hsteps := steps_step w s e
  generalize s.step w e = t at hsteps
  cases hsteps with
  | ended | worked | polled | sent | lost | blocked | broke | late | waited | returned => exact h
  | expired => exact Or.inl rfl
  | cancelled => exact Or.inr (Or.inl rfl)
  | gaveUp => exact Or.inr (Or.inr rfl)
  | received waits | abandoned waits =>
    rw [Committed, waits] at h
    simp at h

theorem answer?_eq_some_iff {s : Exchange σ R} {a : Answer R} :
    s.answer? = some a ↔ s.caller = .returned a := by
  unfold answer?
  split
  · rename_i b hb
    simp [hb]
  · rename_i unanswered
    exact ⟨fun h => (by cases h), fun h => absurd h (unanswered a)⟩

/-- The caller has taken the result, or finds it in the channel if it looks now. -/
def Offered (r : R) (s : Exchange σ R) : Prop :=
  s.caller = .waiting ∧ s.slot = some r ∨ s.caller = .returned (.own r)

theorem offered_origin {s : Exchange σ R} {r : R} {e : Event} (h : (s.step w e).Offered r) :
    s.Offered r ∨ e = .worker ∧ s.Sends w r ∧ s.caller = .waiting := by
  have hsteps := steps_step w s e
  generalize s.step w e = t at hsteps h
  cases hsteps with
  | ended | worked | polled | lost | blocked | broke | late | waited | returned => exact Or.inl h
  -- the channel is filled by a send, and a caller that could still take the result then waits
  | sent sends _ heard =>
    rcases h with ⟨waits, full⟩ | taken
    · cases full
      exact Or.inr ⟨rfl, sends, waits⟩
    · exact absurd taken (heard _)
  | received waits full =>
    rcases h with ⟨waits', -⟩ | taken
    · cases waits'
    · cases taken
      exact Or.inl (Or.inl ⟨waits, full⟩)
  | expired | abandoned | cancelled | gaveUp =>
    rcases h with ⟨waits, -⟩ | taken
    · cases waits
    · cases taken

theorem crashed_origin {s : Exchange σ R} {e : Event} (h : (s.step w e).worker = .crashed) :
    s.worker = .crashed ∨ e = .worker ∧ s.Breaks w := by
  have hsteps := steps_step w s e
  generalize s.step w e = t at hsteps h
  cases hsteps with
  | broke breaks => exact Or.inr ⟨rfl, breaks⟩
  | worked | polled | sent | lost => cases h
  | ended | blocked | expired | late | received | abandoned | waited | cancelled | gaveUp
  | returned => exact Or.inl h

theorem timedOut_origin {s : Exchange σ R} {e : Event}
    (h : (s.step w e).caller = .returned .timedOut) :
    s.caller = .returned .timedOut ∨ e = .caller ∧ s.caller = .cancelled := by
  have hsteps := steps_step w s e
  generalize s.step w e = t at hsteps h
  cases hsteps with
  | gaveUp cancelled => exact Or.inr ⟨rfl, cancelled⟩
  | expired | received | abandoned | cancelled => cases h
  | ended | worked | polled | sent | lost | blocked | broke | late | waited
  | returned => exact Or.inl h

theorem finished_of_sent {events : List Event} {r : R}
    (h : Happens w events .worker fun s => s.Sends w r) :
    (reached w events).worker = .finished := by
  obtain ⟨before, after, rfl, sends⟩ := h
  have hsent := ((orderly_run w before).step_of_sends sends).1
  rw [reached_append]
  exact run_keeps (P := fun s => s.worker = .finished) (fun _ e h => finished_step h e) hsent after

theorem warranted_of_answer {events : List Event} {a : Answer R}
    (h : (reached w events).answer? = some a) : Warranted w events a := by
  have horderly := orderly_run w events
  rw [answer?_eq_some_iff] at h
  cases a with
  | own r =>
    refine happens_of_run (Q := Offered r) (fun _ _ => offered_origin) ?_ (Or.inr h)
    rintro (⟨-, full⟩ | taken)
    · cases full
    · cases taken
  | timedOut =>
    have hgaveUp : Happens w events .caller fun s => s.caller = .cancelled :=
      happens_of_run (Q := fun s => s.caller = .returned .timedOut) (fun _ _ => timedOut_origin)
        (fun e => by cases e) h
    obtain ⟨before, after, hsplit, hcaller⟩ := hgaveUp
    refine ⟨before, after, hsplit, ?_, (orderly_run w before).flag.mpr (Or.inl hcaller), ?_⟩
    · simp only [answer?, hcaller]
    · simp only [step, callerMove, answer?, hcaller]
  | workerPanicked =>
    have hcrashed := horderly.broken h
    -- a worker that had sent would have ended with a result, not broken down
    constructor
    · exact happens_of_run (Q := fun s => s.worker = .crashed) (fun _ _ => crashed_origin)
        (fun e => by cases e) hcrashed
    · intro r hsent
      rw [finished_of_sent hsent] at hcrashed
      cases hcrashed

/-- How often a caller that no longer waits has to move before it has returned. -/
def movesLeft (s : Exchange σ R) : Nat :=
  match s.caller with
  | .waiting => 3
  | .expired => 2
  | .cancelled => 1
  | .returned _ => 0

theorem movesLeft_step {s : Exchange σ R} (past : s.caller ≠ .waiting) (e : Event) :
    (s.step w e).caller ≠ .waiting ∧
      (s.step w e).movesLeft ≤ s.movesLeft - [e].count .caller := by
  have hsteps := steps_step w s e
  generalize s.step w e = t at hsteps
  cases hsteps with
  | ended | worked | polled | sent | lost | blocked | broke | late =>
    exact ⟨past, Nat.le_refl s.movesLeft⟩
  | expired waits | received waits | abandoned waits | waited waits => exact absurd waits past
  | cancelled expired =>
    refine ⟨fun h => (by cases h), ?_⟩
    simp [movesLeft, expired]
  | gaveUp cancelled =>
    refine ⟨fun h => (by cases h), ?_⟩
    simp [movesLeft, cancelled]
  | returned done =>
    refine ⟨past, ?_⟩
    simp [movesLeft, done]

theorem exists_answer {s : Exchange σ R} {events : List Event} (past : s.caller ≠ .waiting)
    (enough : s.movesLeft ≤ events.count .caller) : ∃ a, (s.run w events).answer? = some a := by
  -- each move of the caller brings it one phase further, and other events leave its phase alone
  induction events generalizing s with
  | nil =>
    have hnone : s.movesLeft = 0 := Nat.le_zero.mp enough
    cases hcaller : s.caller with
    | waiting => exact absurd hcaller past
    | expired | cancelled =>
      simp only [movesLeft, hcaller] at hnone
      cases hnone
    | returned a => exact ⟨a, answer?_eq_some_iff.mpr hcaller⟩
  | cons e events ih =>
    obtain ⟨hpast, hfewer⟩ := movesLeft_step (w := w) past e
    refine ih hpast ?_
    have hcount : (e :: events).count .caller = [e].count .caller + events.count .caller := by
      rw [← List.singleton_append, List.count_append]
    omega

theorem movesLeft_timer (w : Worker σ R) (s : Exchange σ R) :
    (s.step w .timer).caller ≠ .waiting ∧ (s.step w .timer).movesLeft ≤ 2 := by
  have hsteps := steps_step w s .timer
  generalize s.step w .timer = t at hsteps
  cases hsteps with
  | expired => exact ⟨fun h => (by cases h), Nat.le_refl 2⟩
  | late past =>
    refine ⟨past, ?_⟩
    cases hcaller : s.caller with
    | waiting => exact absurd hcaller past
    | expired | cancelled | returned => simp [movesLeft, hcaller]

/-- The protocol is safe for every worker and every interleaving. The caller gives one answer, once
the timer has expired and it has moved twice at the latest, and never another: the worker's own
result, if that was sent while the caller waited; `timedOut`, before which it has cancelled the
token; or `workerPanicked`, if the worker broke down and has not sent. A poll is answered with yes
only if the caller is committed to `timedOut`, and a caller that is gives no other answer, whatever
is sent from then on. No send has to wait for room in the channel. -/
theorem protocol_safe (w : Worker σ R) (events : List Event) :
    (∀ a, (reached w events).answer? = some a →
        Warranted w events a ∧ ∀ more, (reached w (events ++ more)).answer? = some a) ∧
      (∀ before after, events = before ++ .timer :: after → 2 ≤ after.count .caller →
        ∃ a, (reached w events).answer? = some a) ∧
      (∀ next, (reached w events).Polls w next →
        (reached w (events ++ [.worker])).worker = .running (next (reached w events).cancelled)) ∧
      ((reached w events).cancelled = true → (reached w events).Committed) ∧
      ((reached w events).noticed = true → (reached w events).Committed) ∧
      ((reached w events).Committed →
        ∀ more a, (reached w (events ++ more)).answer? = some a → a = .timedOut) ∧
      ∀ r, (reached w events).Sends w r →
        (reached w (events ++ [.worker])).worker = .finished ∧
          (reached w (events ++ [.worker])).caller = (reached w events).caller := by
  have horderly := orderly_run w events
  have hcommitted (flag : (reached w events).cancelled = true) :
      (reached w events).Committed := Or.inr (horderly.flag.mp flag)
  refine ⟨fun a h => ⟨warranted_of_answer h, fun more => ?_⟩, ?_, fun next polls => ?_, hcommitted,
    fun h => hcommitted (horderly.noticed h), fun h more a ha => ?_, fun r sends => ?_⟩
  · rw [answer?_eq_some_iff] at h ⊢
    rw [reached_append]
    exact run_keeps (P := fun s => s.caller = .returned a) (fun _ e h => returned_step h e) h more
  · rintro before after rfl moves
    -- once the timer has expired two moves are left to the caller at most
    obtain ⟨past, left⟩ := movesLeft_timer w (reached w before)
    rw [reached_append]
    change ∃ a, (((reached w before).step w .timer).run w after).answer? = some a
    exact exists_answer past (Nat.le_trans left moves)
  · obtain ⟨state, here, does⟩ := polls
    rw [reached_append]
    change ((reached w events).workerMove w).worker = _
    simp only [workerMove, here, does]
  · have hmore : (reached w (events ++ more)).Committed := by
      rw [reached_append]
      exact run_keeps (fun _ e h => h.step e) h more
    rw [answer?_eq_some_iff] at ha
    rw [Committed, ha] at hmore
    simpa using hmore
  · rw [reached_append]
    exact horderly.step_of_sends sends

/-- Each answer is given in some run. -/
theorem exists_reached_answer (a : Answer R) :
    ∃ (w : Worker Unit R) (events : List Event), (reached w events).answer? = some a := by
  cases a with
  | own r => exact ⟨.immediate (.result r), [.worker, .caller], rfl⟩
  | timedOut => exact ⟨.immediate .breakdown, [.timer, .worker, .caller, .caller], rfl⟩
  | workerPanicked => exact ⟨.immediate .breakdown, [.worker, .caller], rfl⟩

end ConstraintNet.Deadline.Exchange
