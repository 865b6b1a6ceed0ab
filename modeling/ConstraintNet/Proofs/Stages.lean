import ConstraintNet.Configuration
import ConstraintNet.Proofs.Exploration

namespace ConstraintNet

variable {V : Type} [Value V] [DecidableEq V] {n : Nat}

namespace Plan

omit [DecidableEq V] in
theorem infers_preprocess (plan : Plan) (net : Network V n) (r : Run V n) :
    net.Infers r.store (plan.preprocess net r).1.store := by
  unfold preprocess
  split
  · exact net.infers_ac3 r.store
  · exact .refl

omit [DecidableEq V] in
/-- A plan that prunes before the search does so by `ac3`. -/
theorem ac3_eq_preprocess {plan : Plan} (before : plan.inference.preprocesses = true)
    (net : Network V n) (r : Run V n) :
    net.ac3 r.store = ((plan.preprocess net r).1.store, (plan.preprocess net r).2) := by
  rw [preprocess, if_pos before]
  rfl

omit [DecidableEq V] in
theorem reports_preprocess (plan : Plan) (net : Network V n) {r : Run V n} (live : r.store.Live) :
    Network.Reports ((plan.preprocess net r).1.store, (plan.preprocess net r).2) := by
  unfold preprocess
  split
  · exact net.reports_ac3 live
  · exact live

omit [DecidableEq V] in
/-- `Forces plan net l r ok r'`: going through the variables `l` for forced assignments leads from
the run `r` to the run `r'`, and `ok` tells that no contradiction was met. -/
inductive Forces (plan : Plan) (net : Network V n) :
    List (Fin n) → Run V n → Bool → Run V n → Prop
  | done {r : Run V n} : Forces plan net [] r true r
  | passed {r r' : Run V n} {v : Fin n} {left : List (Fin n)} {ok : Bool}
      (unforced : r.store.isAssigned v = true ∨ (r.store.domain v).only? = none)
      (rest : Forces plan net left r ok r') : Forces plan net (v :: left) r ok r'
  | illegal {r : Run V n} {v : Fin n} {x : V} {left : List (Fin n)}
      (free : r.store.value? v = none) (only : (r.store.domain v).only? = some x)
      (conflict : net.isLegal r.store.value? v x = false) : Forces plan net (v :: left) r false r
  | wiped {r t : Run V n} {v w : Fin n} {x : V} {left : List (Fin n)}
      (free : r.store.value? v = none) (only : (r.store.domain v).only? = some x)
      (legal : net.isLegal r.store.value? v x = true)
      (entered : plan.infer net (enter r v x) v = (t, .wipeout w)) :
      Forces plan net (v :: left) r false t
  | forced {r t r' : Run V n} {v : Fin n} {x : V} {left : List (Fin n)} {ok : Bool}
      (free : r.store.value? v = none) (only : (r.store.domain v).only? = some x)
      (legal : net.isLegal r.store.value? v x = true)
      (entered : plan.infer net (enter r v x) v = (t, .consistent))
      (rest : Forces plan net left t ok r') : Forces plan net (v :: left) r ok r'

omit [DecidableEq V] in
theorem forces_assignForcedFrom (plan : Plan) (net : Network V n) (l : List (Fin n))
    (r : Run V n) :
    Forces plan net l r (plan.assignForcedFrom net l r).1 (plan.assignForcedFrom net l r).2 := by
  -- a variable passed over leaves the run as it is; a forced one hands its run on
  induction l generalizing r with
  | nil => exact .done
  | cons v rest ih =>
    unfold assignForcedFrom
    by_cases hassigned : r.store.isAssigned v = true
    · rw [if_pos hassigned]
      exact .passed (Or.inl hassigned) (ih r)
    · rw [if_neg hassigned]
      have free : r.store.value? v = none := Store.free_of_not_isAssigned hassigned
      cases only : (r.store.domain v).only? with
      | none => exact .passed (Or.inr only) (ih r)
      | some x =>
        by_cases legal : net.isLegal r.store.value? v x = true
        · simp only [legal, if_true]
          cases entered : plan.infer net (enter r v x) v with
          | mk t propagation =>
            cases propagation with
            | wipeout w => exact .wiped free only legal entered
            | consistent => exact .forced free only legal entered (ih t)
        · simp only [legal]
          exact .illegal free only (Bool.eq_false_iff.mpr legal)

omit [DecidableEq V] in
theorem Forces.advances {plan : Plan} {net : Network V n} {l : List (Fin n)} {r r' : Run V n}
    {ok : Bool} (h : Forces plan net l r ok r') : r.store.Advances r'.store := by
  induction h with
  | done => exact Store.advances_refl _
  | passed _ _ ih => exact ih
  | illegal => exact Store.advances_refl _
  | wiped free _ _ entered =>
    exact (Store.advances_assign free _).trans (infers_infer entered).advances
  | forced free _ _ entered _ ih =>
    have hentered := (Store.advances_assign free _).trans (infers_infer entered).advances
    exact hentered.trans ih

/-- The part before branching: from the run `r`, inference and the forced assignments lead to `t`
without a contradiction. -/
structure Opens (plan : Plan) (net : Network V n) (r t : Run V n) : Prop where
  agreeing : net.conflictingSingletons r.store = none
  consistent : (plan.preprocess net r).2 = .consistent
  forces : Forces plan net (List.finRange n) (plan.preprocess net r).1 true t

/-- `Ends plan net token r result r'`: a whole search, begun in the run `r`, ends with the result
in the run `r'`. -/
inductive Ends (plan : Plan) (net : Network V n) (token : Token) (r : Run V n) :
    Except Error (Outcome V) → Run V n → Prop
  | conflicting {v w : Fin n} (conflict : net.conflictingSingletons r.store = some (v, w)) :
      Ends plan net token r (.ok .unsatisfiable) r
  | emptied {v : Fin n} (wipeout : (plan.preprocess net r).2 = .wipeout v) :
      Ends plan net token r (.ok .unsatisfiable) (plan.preprocess net r).1
  | contradicted {r' : Run V n} (consistent : (plan.preprocess net r).2 = .consistent)
      (forces : Forces plan net (List.finRange n) (plan.preprocess net r).1 false r') :
      Ends plan net token r (.ok .unsatisfiable) r'
  | stopped {t r' : Run V n} {e : Error} (opens : Opens plan net r t)
      (search : Explores plan net token .node t (.error e) r') :
      Ends plan net token r (.error e) r'
  | exhausted {t r' : Run V n} (opens : Opens plan net r t)
      (search : Explores plan net token .node t (.ok false) r') :
      Ends plan net token r (.ok .unsatisfiable) r'
  | rejected {t r' : Run V n} {e : Error} (opens : Opens plan net r t)
      (search : Explores plan net token .node t (.ok true) r')
      (rejects : net.verify r'.store r'.store.assignment = .error e) :
      Ends plan net token r (.error e) r'
  | solved {t r' : Run V n} (opens : Opens plan net r t)
      (search : Explores plan net token .node t (.ok true) r')
      (accepts : net.verify r'.store r'.store.assignment = .ok ()) :
      Ends plan net token r (.ok (.solved r'.store.assignment)) r'

theorem ends_run (plan : Plan) (net : Network V n) (token : Token) (r : Run V n) :
    Ends plan net token r (plan.run net token r).1 (plan.run net token r).2 := by
  unfold run
  cases conflict : net.conflictingSingletons r.store with
  | some p => exact .conflicting conflict
  | none =>
    dsimp only [Option.isSome_none]
    rw [if_neg Bool.false_ne_true]
    cases pre : plan.preprocess net r with
    | mk t propagation =>
      cases propagation with
      | wipeout v =>
        have hends : Ends plan net token r _ _ := .emptied (congrArg Prod.snd pre)
        rw [pre] at hends
        exact hends
      | consistent =>
        -- the forced assignments start from the pruned store, and decide whether a search follows
        have consistent := congrArg Prod.snd pre
        have forces := plan.forces_assignForcedFrom net (List.finRange n) (plan.preprocess net r).1
        rw [pre] at forces
        dsimp only
        unfold assignForced
        cases forced : plan.assignForcedFrom net (List.finRange n) t with
        | mk ok u =>
          rw [forced, ← congrArg Prod.fst pre] at forces
          cases ok with
          | false => exact .contradicted consistent forces
          | true =>
            have opens : Opens plan net r u := ⟨conflict, consistent, forces⟩
            have search := plan.explores_search net token u
            dsimp only
            cases hsearch : plan.search net token u with
            | mk verdict r' =>
              rw [hsearch] at search
              match verdict with
              | .error e => exact .stopped opens search
              | .ok false => exact .exhausted opens search
              | .ok true =>
                dsimp only
                cases verified : net.verify r'.store r'.store.assignment with
                | error e => exact .rejected opens search verified
                | ok u => exact .solved opens search verified

omit [DecidableEq V] in
theorem Opens.advances {plan : Plan} {net : Network V n} {r t : Run V n}
    (h : Opens plan net r t) : r.store.Advances t.store :=
  (plan.infers_preprocess net r).advances.trans h.forces.advances

/-- However a search ends, its trail remembers every removal since it began. -/
theorem Ends.advances {plan : Plan} {net : Network V n} {token : Token} {r r' : Run V n}
    {result : Except Error (Outcome V)} (h : Ends plan net token r result r') :
    r.store.Advances r'.store := by
  have hpre := (plan.infers_preprocess net r).advances
  cases h with
  | conflicting => exact r.store.advances_refl
  | emptied => exact hpre
  | contradicted _ forces => exact hpre.trans forces.advances
  | stopped opens search => exact opens.advances.trans (search.framed trivial).advances
  | exhausted opens search => exact opens.advances.trans (search.framed trivial).advances
  | rejected opens search => exact opens.advances.trans (search.framed trivial).advances
  | solved opens search => exact opens.advances.trans (search.framed trivial).advances

omit [DecidableEq V] in
/-- From a store that descends from the caller's, handing back gives the caller's. -/
theorem handBack_eq {plan : Plan} {s : Store V n} {r : Run V n}
    (h : (plan.start s).store.Descends r.store) : handBack s r = s := by
  have hrestore : r.store.restore 0 =
      { (plan.start s).store with assignment := r.store.assignment } := h.restore_eq
  calc
    handBack s r = { r.store.restore 0 with assignment := s.assignment, trail := s.trail } := rfl
    _ = { s with assignment := s.assignment, trail := s.trail } := by rw [hrestore]; rfl
    _ = s := rfl

theorem store_solve (plan : Plan) (net : Network V n) (token : Token) (s : Store V n) :
    (plan.solve net token s).2 = s :=
  handBack_eq (plan.ends_run net token (plan.start s)).advances.descends

end Plan

/-- A store comes back from a solver as it was, domains and assignment and all: whatever the plan
or the configuration, whatever the token answers, and with every result, errors included. -/
theorem solvers_give_back (net : Network V n) (token : Token) (s : Store V n) :
    (∀ plan : Plan, (plan.solve net token s).2 = s) ∧
      ∀ c : Configuration, (c.solve net token s).2 = s := by
  refine ⟨fun plan => plan.store_solve net token s, ?_⟩
  intro c
  unfold Configuration.solve
  cases c.algorithm with
  | backtracking => exact c.plan.store_solve net token s
  | minConflicts => rfl

end ConstraintNet
