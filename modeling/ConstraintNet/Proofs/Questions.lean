import ConstraintNet.Configuration
import ConstraintNet.Proofs.Cancellation

/-!
A solver hears the answers to its questions, one after the other, and nothing else, so it can be run
by someone who is asked each question in turn.
-/

namespace ConstraintNet

/-- Of a part of a run, begun after `first` questions, comes `e` with `token` and `e'` with
`other`. If both tokens answer alike the questions put on the way to `e`, these are the same. -/
structure Hears {α ρ : Type} (token other : Token) (polls : ρ → Nat) (first : Nat)
    (e e' : α × ρ) : Prop where
  later : first ≤ polls e.2
  same : (∀ k, first ≤ k → k < polls e.2 → other k = token k) → e' = e

namespace Hears

variable {α ρ : Type} {token other : Token} {polls : ρ → Nat} {first mid : Nat}

/-- A part that puts no question. -/
theorem of_unasked {e : α × ρ} (begun : polls e.2 = first) :
    Hears token other polls first e e := ⟨Nat.le_of_eq begun.symm, fun _ => rfl⟩

/-- A question, and the part that comes after its answer. -/
theorem of_answer {e e' next : α × ρ} (rest : Hears token other polls (first + 1) e next)
    (goes : other first = token first → e' = next) : Hears token other polls first e e' where
  later := Nat.le_of_succ_le rest.later
  same agree := by
    have hfirst : other first = token first := agree first (Nat.le_refl first) rest.later
    rw [goes hfirst]
    exact rest.same fun k hk => agree k (Nat.le_of_succ_le hk)

/-- A question that ends the part if it is answered with yes. -/
theorem of_question {yes no no' : α × ρ} (asked : polls yes.2 = first + 1)
    (rest : Hears token other polls (first + 1) no no') :
    Hears token other polls first (if token first = true then yes else no)
      (if other first = true then yes else no') := by
  cases told : token first with
  | true =>
    refine .of_answer (.of_unasked asked) fun hother => ?_
    rw [hother, told]
    rfl
  | false =>
    refine .of_answer rest fun hother => ?_
    rw [hother, told]
    exact if_neg Bool.false_ne_true

/-- A part, and what is made of it without a question. -/
theorem map {β : Type} {e e' : α × ρ} (h : Hears token other polls first e e') (f : α × ρ → β × ρ)
    (unasked : ∀ e, polls (f e).2 = polls e.2) : Hears token other polls first (f e) (f e') where
  later := by
    rw [unasked]
    exact h.later
  same agree := by
    rw [unasked] at agree
    rw [h.same agree]

end Hears

namespace Heeds

variable {α ρ : Type} {token : Token} {polls : ρ → Nat} {first : Nat}
  {under free : Except Error α × ρ}

/-- What a part of a run comes to: it is cut short, or ends as it would without a token. -/
theorem result_cases (h : Heeds token polls first under free) :
    under.1 = .error .cancelled ∨ under.1 = free.1 := by
  cases h with
  | told => exact Or.inl rfl
  | quiet => exact Or.inr rfl

theorem result_ne_cancelled (h : Heeds .never polls first under free) :
    under.1 ≠ .error .cancelled := by
  intro he
  have hmap := h.ne_cancelled fun _ result => result
  rw [he] at hmap
  exact hmap rfl

end Heeds

variable {V : Type} [Value V] [DecidableEq V] {n : Nat}

namespace Plan

theorem hears_tryEach {plan : Plan} {net : Network V n} {token other : Token}
    {descend descend' : Run V n → Verdict × Run V n}
    (below : ∀ t, Hears token other Run.polls t.polls (descend t) (descend' t)) (v : Fin n)
    (length : Nat) (values : List V) {r : Run V n} {first : Nat} (begun : r.polls = first) :
    Hears token other Run.polls first (plan.tryEach net descend v length values r)
      (plan.tryEach net descend' v length values r) := by
  induction values generalizing r first with
  | nil => exact .of_unasked begun
  | cons x rest ih =>
    unfold tryEach
    by_cases legal : net.isLegal r.store.value? v x = true
    · simp only [legal, if_true]
      have hpolls := plan.polls_tryValue net r v x
      cases entered : plan.tryValue net r v x with
      | mk t propagation =>
        rw [entered] at hpolls
        have hentered : t.polls = first := hpolls.trans begun
        cases propagation with
        | wipeout w => exact ih hentered
        | consistent =>
          have hbelow := below t
          rw [hentered] at hbelow
          dsimp only
          generalize descend t = e, descend' t = e' at hbelow ⊢
          obtain ⟨verdict, t'⟩ := e
          cases verdict with
          | error e => exact ⟨hbelow.later, fun agree => by rw [hbelow.same agree]⟩
          | ok found =>
            cases found with
            | true => exact ⟨hbelow.later, fun agree => by rw [hbelow.same agree]⟩
            | false =>
              -- the rest is begun with the questions of the failed part behind it
              have hrest : Hears token other Run.polls t'.polls
                  (plan.tryEach net descend v length rest (retract t' v length))
                  (plan.tryEach net descend' v length rest (retract t' v length)) := ih rfl
              refine ⟨Nat.le_trans hbelow.later hrest.later, fun agree => ?_⟩
              have hsame := hbelow.same fun k hfirst hk =>
                agree k hfirst (Nat.lt_of_lt_of_le hk hrest.later)
              rw [hsame]
              exact hrest.same fun k hk => agree k (Nat.le_trans hbelow.later hk)
    · simp only [legal]
      exact ih begun

theorem hears_searchPending (plan : Plan) (net : Network V n) (token other : Token) (depth : Nat)
    (pending : List (Fin n)) (count : pending.length = depth) (r : Run V n) :
    Hears token other Run.polls r.polls (plan.searchPending net token depth pending count r)
      (plan.searchPending net other depth pending count r) := by
  induction depth generalizing pending r with
  | zero =>
    unfold searchPending poll
    cases told : token r.polls with
    | true | false =>
      refine .of_answer (.of_unasked rfl) fun hother => ?_
      rw [hother, told]
  | succ depth ih =>
    unfold searchPending poll
    cases told : token r.polls with
    | true =>
      refine .of_answer (.of_unasked rfl) fun hother => ?_
      rw [hother, told]
    | false =>
      cases pending with
      | nil => cases count
      | cons v others =>
        dsimp only
        split
        · rename_i hempty
          refine .of_answer (.of_unasked rfl) fun hother => ?_
          rw [hother, told]
          exact if_pos hempty
        · rename_i hempty
          refine .of_answer (hears_tryEach (fun t => ih _ _ t) _ _ _ rfl) fun hother => ?_
          rw [hother, told]
          exact if_neg hempty

/-- What a whole search makes of the way in which its branching has ended. -/
def conclude (net : Network V n) : Verdict × Run V n → Except Error (Outcome V) × Run V n
  | (.error e, r) => (.error e, r)
  | (.ok false, r) => (.ok .unsatisfiable, r)
  | (.ok true, r) =>
    match net.verify r.store r.store.assignment with
    | .error e => (.error e, r)
    | .ok () => (.ok (.solved r.store.assignment), r)

theorem polls_conclude (net : Network V n) (e : Verdict × Run V n) :
    (conclude net e).2.polls = e.2.polls := by
  obtain ⟨verdict, r⟩ := e
  match verdict with
  | .error e => rfl
  | .ok false => rfl
  | .ok true =>
    unfold conclude
    dsimp only
    split
    · rfl
    · rfl

theorem hears_run (plan : Plan) (net : Network V n) (token other : Token) (r : Run V n) :
    Hears token other Run.polls r.polls (plan.run net token r) (plan.run net other r) := by
  unfold run
  split
  · exact .of_unasked rfl
  · have hpre := plan.polls_preprocess net r
    split
    · rename_i heq
      rw [heq] at hpre
      exact .of_unasked hpre
    · rename_i t heq
      rw [heq] at hpre
      have hforced := plan.polls_assignForcedFrom net (List.finRange n) t
      unfold assignForced
      split
      · rename_i heq
        rw [heq] at hforced
        exact .of_unasked (hforced.trans hpre)
      · rename_i u heq
        rw [heq] at hforced
        -- only the search asks questions
        have hsearch : Hears token other Run.polls u.polls (plan.search net token u)
            (plan.search net other u) := plan.hears_searchPending ..
        rw [← hpre, ← hforced]
        exact hsearch.map (conclude net) (polls_conclude net)

end Plan

theorem Repair.hears_repairFor (net : Network V n) (token other : Token) (s : Store V n) (left : Nat)
    {r : RepairRun V n} {first : Nat} (begun : r.polls = first) :
    Hears token other RepairRun.polls first (repairFor net token s left r)
      (repairFor net other s left r) := by
  induction left generalizing r first with
  | zero =>
    unfold repairFor
    rw [begun]
    refine .of_question rfl ?_
    dsimp only
    split
    · exact .of_unasked rfl
    · exact .of_unasked rfl
  | succ left ih =>
    unfold repairFor
    rw [begun]
    refine .of_question rfl ?_
    dsimp only
    split
    · exact .of_unasked rfl
    · split
      · exact .of_unasked rfl
      · exact ih rfl

namespace Configuration

/-- How many questions the configured strategy puts to the token. -/
def asked (c : Configuration) (net : Network V n) (s : Store V n) (token : Token) : Nat :=
  match c.algorithm with
  | .backtracking => c.plan.asked net token s
  | .minConflicts => c.repair.asked net token s

theorem answer_backtracking {c : Configuration} (algorithm : c.algorithm = .backtracking)
    (net : Network V n) (s : Store V n) (token : Token) :
    c.asked net s token = (c.plan.run net token (c.plan.start s)).2.polls ∧
      c.answer net s token = (c.plan.run net token (c.plan.start s)).1 := by
  have hsolve : c.answer net s token = (c.plan.solve net token s).1.map Prod.fst := by
    simp only [answer, solve, algorithm]
  refine ⟨by simp only [asked, algorithm, Plan.asked], ?_⟩
  rw [hsolve]
  simp only [Plan.solve]
  cases (c.plan.run net token (c.plan.start s)).1 with
  | error e | ok outcome => rfl

theorem answer_minConflicts {c : Configuration} (algorithm : c.algorithm = .minConflicts)
    (net : Network V n) (s : Store V n) (token : Token) :
    match c.repair.start s with
    | .error e => c.asked net s token = 0 ∧ c.answer net s token = .error e
    | .ok r =>
      c.asked net s token = (Repair.repairFor net token s c.repair.maxSteps r).2.polls ∧
        c.answer net s token = (Repair.repairFor net token s c.repair.maxSteps r).1 := by
  simp only [answer, solve, asked, algorithm, Repair.asked, Repair.solve]
  cases c.repair.start s with
  | error e => exact ⟨rfl, rfl⟩
  | ok r =>
    dsimp only
    cases (Repair.repairFor net token s c.repair.maxSteps r).1 with
    | error e | ok outcome => exact ⟨rfl, rfl⟩

/-- A token that answers the questions of a solver as another does gets the same questions and the
same answer from it. -/
theorem answer_congr {c : Configuration} {net : Network V n} {s : Store V n} {token other : Token}
    (agree : ∀ k < c.asked net s token, other k = token k) :
    c.asked net s other = c.asked net s token ∧ c.answer net s other = c.answer net s token := by
  cases algorithm : c.algorithm with
  | backtracking =>
    have hother := answer_backtracking algorithm net s other
    have htoken := answer_backtracking algorithm net s token
    rw [htoken.1] at agree
    -- the two runs hear the same answers, so they are one run
    have hsame := (c.plan.hears_run net token other (c.plan.start s)).same fun k _ => agree k
    rw [hother.1, hother.2, htoken.1, htoken.2, hsame]
    exact ⟨rfl, rfl⟩
  | minConflicts =>
    have hother := answer_minConflicts algorithm net s other
    have htoken := answer_minConflicts algorithm net s token
    cases started : c.repair.start s with
    | error e =>
      rw [started] at hother htoken
      rw [hother.1, hother.2, htoken.1, htoken.2]
      exact ⟨rfl, rfl⟩
    | ok r =>
      rw [started] at hother htoken
      dsimp only at hother htoken
      rw [htoken.1] at agree
      have hhears := Repair.hears_repairFor net token other s c.repair.maxSteps
        (c.repair.polls_start started)
      have hsame := hhears.same fun k _ => agree k
      rw [hother.1, hother.2, htoken.1, htoken.2, hsame]
      exact ⟨rfl, rfl⟩

/-- A solver that is never told to stop does not end as cancelled, and under any token it ends so
or as it does when it is never told. -/
theorem answer_cases (c : Configuration) (net : Network V n) (s : Store V n) (token : Token) :
    c.answer net s .never ≠ .error .cancelled ∧
      (c.answer net s token = .error .cancelled ∨
        c.answer net s token = c.answer net s .never) := by
  cases algorithm : c.algorithm with
  | backtracking =>
    have hfree := c.plan.heeds_run net .never (c.plan.start s)
    have hrun := c.plan.heeds_run net token (c.plan.start s)
    rw [(answer_backtracking algorithm net s .never).2, (answer_backtracking algorithm net s token).2]
    exact ⟨hfree.result_ne_cancelled, hrun.result_cases⟩
  | minConflicts =>
    have hanswer := answer_minConflicts algorithm net s token
    have hnever := answer_minConflicts algorithm net s .never
    cases started : c.repair.start s with
    | error e =>
      have hstart := c.repair.start_ne_cancelled s
      rw [started] at hanswer hnever hstart
      rw [hanswer.2, hnever.2]
      refine ⟨fun he => hstart ?_, Or.inr rfl⟩
      injection he with he
      rw [he]
    | ok r =>
      have hpolls := c.repair.polls_start started
      have hfree := Repair.heeds_repairFor net .never s c.repair.maxSteps hpolls
      have hrun := Repair.heeds_repairFor net token s c.repair.maxSteps hpolls
      rw [started] at hanswer hnever
      rw [hanswer.2, hnever.2]
      exact ⟨hfree.result_ne_cancelled, hrun.result_cases⟩

end Configuration

end ConstraintNet
