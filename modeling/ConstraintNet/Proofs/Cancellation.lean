import ConstraintNet.Proofs.Solutions
import ConstraintNet.Repair
import ConstraintNet.Search

namespace ConstraintNet

/-- `Heeds token polls first under free`: of a part of a run, begun after `first` questions, comes
`under` with this token and `free` with one that never says yes. `polls` tells how many questions
have been put by the end. -/
inductive Heeds {α ρ : Type} (token : Token) (polls : ρ → Nat) (first : Nat) :
    Except Error α × ρ → Except Error α × ρ → Prop
  | quiet {e : Except Error α × ρ} (ends : e.1 ≠ .error .cancelled)
      (silent : ∀ k, first ≤ k → k < polls e.2 → token k = false) :
      Heeds token polls first e e
  | told {r : ρ} {e : Except Error α × ρ} {k : Nat} (asked : k < polls r) (yes : token k = true) :
      Heeds token polls first (.error .cancelled, r) e

namespace Heeds

variable {α ρ : Type} {token : Token} {polls : ρ → Nat} {first mid : Nat}
  {under free : Except Error α × ρ}

/-- A part that comes after questions which were all answered with no. -/
theorem after (silent : ∀ k, first ≤ k → k < mid → token k = false)
    (h : Heeds token polls mid under free) : Heeds token polls first under free := by
  cases h with
  | quiet ends later =>
    refine .quiet ends fun k hfirst hk => ?_
    by_cases hmid : k < mid
    · exact silent k hfirst hmid
    · exact later k (Nat.le_of_not_lt hmid) hk
  | told asked yes => exact .told asked yes

/-- A part that puts no question. -/
theorem of_unasked {e : Except Error α × ρ} (ends : e.1 ≠ .error .cancelled)
    (unasked : polls e.2 = first) : Heeds token polls first e e := by
  refine .quiet ends fun k hfirst hk => ?_
  omega

/-- A part that comes after one more question, answered with no. -/
theorem after_no (no : token first = false) (h : Heeds token polls (first + 1) under free) :
    Heeds token polls first under free := by
  refine h.after fun k hfirst hk => ?_
  obtain rfl : k = first := by omega
  exact no

/-- What is told of a whole run: that it was cancelled, if a question was answered with yes, and
else the same as without a token. -/
theorem map_eq {β : Type} (h : Heeds token polls 0 under free) (answer : ρ → α → β) :
    under.1.map (answer under.2) =
      if ∃ k < polls under.2, token k = true then .error .cancelled
      else free.1.map (answer free.2) := by
  cases h with
  | told asked yes => exact (if_pos ⟨_, asked, yes⟩).symm
  | quiet ends silent =>
    refine (if_neg ?_).symm
    rintro ⟨k, hk, yes⟩
    rw [silent k (Nat.zero_le k) hk] at yes
    cases yes

/-- A run whose token never says yes does not end as cancelled. -/
theorem ne_cancelled {β : Type} (h : Heeds .never polls first under free) (answer : ρ → α → β) :
    under.1.map (answer under.2) ≠ .error .cancelled := by
  cases h with
  | told asked yes => cases yes
  | quiet ends silent =>
    obtain ⟨result, r⟩ := under
    intro he
    cases result with
    | error e =>
      cases he
      exact ends rfl
    | ok a => cases he

end Heeds

variable {V : Type} [Value V] [DecidableEq V] {n : Nat}

theorem Network.map_verify_ne_cancelled {β : Type} (net : Network V n) (s : Store V n)
    (a : Assignment V) (f : Unit → β) : (net.verify s a).map f ≠ .error .cancelled := by
  rcases (net.verify_eq s a).2 with e | ⟨violation, e⟩
  · rw [e]
    simp [Except.map]
  · rw [e]
    simp [Except.map]

namespace Plan

omit [DecidableEq V] in
theorem polls_infer (plan : Plan) (net : Network V n) (r : Run V n) (v : Fin n) :
    (plan.infer net r v).1.polls = r.polls := by
  unfold infer
  split
  · rfl
  · rfl

omit [DecidableEq V] in
theorem polls_preprocess (plan : Plan) (net : Network V n) (r : Run V n) :
    (plan.preprocess net r).1.polls = r.polls := by
  unfold preprocess
  split
  · rfl
  · rfl

theorem polls_tryValue (plan : Plan) (net : Network V n) (r : Run V n) (v : Fin n) (x : V) :
    (plan.tryValue net r v x).1.polls = r.polls := polls_infer ..

omit [DecidableEq V] in
theorem polls_assignForcedFrom (plan : Plan) (net : Network V n) (l : List (Fin n))
    (r : Run V n) : (plan.assignForcedFrom net l r).2.polls = r.polls := by
  induction l generalizing r with
  | nil => rfl
  | cons v rest ih =>
    unfold assignForcedFrom
    split
    · exact ih r
    · split
      · exact ih r
      · rename_i x _
        have hpolls := plan.polls_infer net (enter r v x) v
        split
        · split
          · rename_i heq
            rw [heq] at hpolls
            exact hpolls
          · rename_i t heq
            rw [heq] at hpolls
            exact (ih t).trans hpolls
        · rfl

/-- The values of a variable heed the token if the nodes below them do. -/
theorem heeds_tryEach {plan : Plan} {net : Network V n} {token : Token}
    {descend free : Run V n → Verdict × Run V n}
    (below : ∀ t, Heeds token Run.polls t.polls (descend t) (free t)) (v : Fin n) (length : Nat)
    (values : List V) {r : Run V n} {first : Nat} (begun : r.polls = first) :
    Heeds token Run.polls first (plan.tryEach net descend v length values r)
      (plan.tryEach net free v length values r) := by
  -- a value that fails hands on a run in which all questions so far were answered with no
  induction values generalizing r first with
  | nil => exact .of_unasked (by simp [tryEach]) begun
  | cons x rest ih =>
    unfold tryEach
    by_cases legal : net.isLegal r.store.value? v x = true
    · simp only [legal, if_true]
      have hpolls := plan.polls_tryValue net r v x
      cases entered : plan.tryValue net r v x with
      | mk t propagation =>
        rw [entered] at hpolls
        have hentered : t.polls = first := hpolls.trans begun
        cases propagation with
        | wipeout w => exact ih hentered
        | consistent =>
          have hbelow := below t
          rw [hentered] at hbelow
          dsimp only
          generalize descend t = under, free t = free at hbelow ⊢
          cases hbelow with
          | told asked yes => exact .told asked yes
          | quiet ends silent =>
            obtain ⟨verdict, t'⟩ := under
            match verdict with
            | .ok false => exact Heeds.after silent (ih rfl)
            | .ok true => exact .quiet ends silent
            | .error e => exact .quiet ends silent
    · simp only [legal]
      exact ih begun

theorem heeds_searchPending (plan : Plan) (net : Network V n) (token : Token) (depth : Nat)
    (pending : List (Fin n)) (count : pending.length = depth) (r : Run V n) :
    Heeds token Run.polls r.polls (plan.searchPending net token depth pending count r)
      (plan.searchPending net .never depth pending count r) := by
  induction depth generalizing pending r with
  | zero =>
    unfold searchPending poll
    cases told : token r.polls with
    | true => exact .told (Nat.lt_succ_self r.polls) told
    | false => exact Heeds.after_no told (.of_unasked (by simp) rfl)
  | succ depth ih =>
    unfold searchPending poll
    cases told : token r.polls with
    | true => exact .told (Nat.lt_succ_self r.polls) told
    | false =>
      cases pending with
      | nil => cases count
      | cons v others =>
        dsimp only [Token.never]
        split
        · exact Heeds.after_no told (.of_unasked (by simp) rfl)
        · exact Heeds.after_no told (heeds_tryEach (fun t => ih _ _ t) _ _ _ rfl)

theorem heeds_run (plan : Plan) (net : Network V n) (token : Token) (r : Run V n) :
    Heeds token Run.polls r.polls (plan.run net token r) (plan.run net .never r) := by
  unfold run
  split
  · exact .of_unasked (by simp) rfl
  · have hpre := plan.polls_preprocess net r
    split
    · rename_i heq
      rw [heq] at hpre
      exact .of_unasked (by simp) hpre
    · rename_i t heq
      rw [heq] at hpre
      have hforced := plan.polls_assignForcedFrom net (List.finRange n) t
      unfold assignForced
      split
      · rename_i heq
        rw [heq] at hforced
        exact .of_unasked (by simp) (hforced.trans hpre)
      · rename_i u heq
        rw [heq] at hforced
        -- nothing before the search asks a question
        have hsearch : Heeds token Run.polls u.polls (plan.search net token u)
            (plan.search net .never u) := plan.heeds_searchPending ..
        rw [← hpre, ← hforced]
        generalize plan.search net token u = under, plan.search net .never u = free at hsearch ⊢
        cases hsearch with
        | told asked yes => exact .told asked yes
        | quiet ends silent =>
          obtain ⟨verdict, r'⟩ := under
          -- what is made of a verdict asks nothing either, and no fault of the final check is a
          -- cancellation
          match verdict with
          | .error e => exact .quiet (by simpa using ends) silent
          | .ok false => exact .quiet (by simp) silent
          | .ok true =>
            dsimp only
            rcases (net.verify_eq r'.store r'.store.assignment).2 with e | ⟨violation, e⟩
            · rw [e]
              exact .quiet (by simp) silent
            · rw [e]
              exact .quiet (by simp) silent

/-- How many questions a search puts to the token. -/
def asked (plan : Plan) (net : Network V n) (token : Token) (s : Store V n) : Nat :=
  (plan.run net token (plan.start s)).2.polls

end Plan

namespace Repair

theorem heeds_repairFor (net : Network V n) (token : Token) (s : Store V n) (left : Nat)
    {r : RepairRun V n} {first : Nat} (begun : r.polls = first) :
    Heeds token RepairRun.polls first (repairFor net token s left r)
      (repairFor net .never s left r) := by
  -- every step begins with one question, and what comes after it is a repair with one step less
  induction left generalizing r first with
  | zero =>
    unfold repairFor
    rw [begun]
    cases told : token first with
    | true => exact .told (Nat.lt_succ_self first) told
    | false =>
      refine Heeds.after_no told ?_
      dsimp only [Token.never]
      rw [if_neg Bool.false_ne_true]
      split
      · exact .of_unasked (net.map_verify_ne_cancelled s _ _) rfl
      · exact .of_unasked (by simp) rfl
  | succ left ih =>
    unfold repairFor
    rw [begun]
    cases told : token first with
    | true => exact .told (Nat.lt_succ_self first) told
    | false =>
      refine Heeds.after_no told ?_
      dsimp only [Token.never]
      rw [if_neg Bool.false_ne_true]
      split
      · exact .of_unasked (net.map_verify_ne_cancelled s _ _) rfl
      · split
        · exact .of_unasked (by simp) rfl
        · exact ih rfl

omit [DecidableEq V] in
theorem drawFirst_ne_cancelled (s : Store V n) (k : Nat) (h : k ≤ n) (rng : Random.Stream) :
    drawFirst s k h rng ≠ .error .cancelled := by
  induction k with
  | zero => simp [drawFirst]
  | succ k ih =>
    have hearlier := ih (Nat.le_of_succ_le h)
    unfold drawFirst
    intro he
    split at he
    · rename_i e heq
      cases he
      exact hearlier heq
    · split at he
      · cases he
      · cases he

omit [DecidableEq V] in
theorem start_ne_cancelled (repair : Repair) (s : Store V n) :
    repair.start s ≠ .error .cancelled := by
  have hdraw := drawFirst_ne_cancelled s n (Nat.le_refl n) (.ofSeed repair.seed)
  unfold start
  intro he
  split at he
  · rename_i e heq
    cases he
    exact hdraw heq
  · cases he

omit [DecidableEq V] in
theorem polls_start (repair : Repair) {s : Store V n} {r : RepairRun V n}
    (started : repair.start s = .ok r) : r.polls = 0 := by
  unfold start at started
  split at started
  · cases started
  · cases started
    rfl

/-- How many questions a repair puts to the token: none if it finds no assignment to start with. -/
def asked (repair : Repair) (net : Network V n) (token : Token) (s : Store V n) : Nat :=
  match repair.start s with
  | .error _ => 0
  | .ok r => (repairFor net token s repair.maxSteps r).2.polls

end Repair

/-- A solver under a token ends as cancelled if one of the questions that it puts is answered with
yes, and otherwise as it would without a token, with the same outcome or error and the same
statistics. Only a token that says yes makes it end as cancelled. -/
theorem cancellation_changes_no_answer (net : Network V n) (token : Token) (s : Store V n) :
    (∀ plan : Plan,
      (plan.solve net .never s).1 ≠ .error .cancelled ∧
        (plan.solve net token s).1 =
          if ∃ k < plan.asked net token s, token k = true then .error .cancelled
          else (plan.solve net .never s).1) ∧
      ∀ repair : Repair,
        repair.solve net .never s ≠ .error .cancelled ∧
          repair.solve net token s =
            if ∃ k < repair.asked net token s, token k = true then .error .cancelled
            else repair.solve net .never s := by
  refine ⟨fun plan => ?_, fun repair => ?_⟩
  · have hrun := plan.heeds_run net token (plan.start s)
    have hfree := plan.heeds_run net .never (plan.start s)
    exact ⟨hfree.ne_cancelled fun r outcome => (outcome, r.stats),
      hrun.map_eq fun r outcome => (outcome, r.stats)⟩
  · unfold Repair.solve Repair.asked
    cases started : repair.start s with
    | error e =>
      have hstart := repair.start_ne_cancelled s
      rw [started] at hstart
      refine ⟨fun he => hstart (by simpa using he), (if_neg ?_).symm⟩
      rintro ⟨k, hk, -⟩
      exact absurd hk (Nat.not_lt_zero k)
    | ok r =>
      have hrun := Repair.heeds_repairFor net token s repair.maxSteps (repair.polls_start started)
      have hfree := Repair.heeds_repairFor net .never s repair.maxSteps (repair.polls_start started)
      exact ⟨hfree.ne_cancelled fun r outcome => (outcome, r.stats),
        hrun.map_eq fun r outcome => (outcome, r.stats)⟩

end ConstraintNet
