import ConstraintNet.Proofs.Completeness
import ConstraintNet.Proofs.LookAhead

/-!
Of two searches on the same problem, the one that infers more comes to stores that refine those of
the other, and no completion is lost between them.
-/

namespace ConstraintNet

/-- Whatever `weak` prunes, before the search or after an assignment, `strong` prunes too. -/
structure Inference.Dominates (strong weak : Inference) : Prop where
  before : weak.preprocesses = true → strong.preprocesses = true
  after : weak.runsPerAssignment = true → strong.runsPerAssignment = true

theorem Inference.dominates_refl (inference : Inference) : inference.Dominates inference :=
  ⟨id, id⟩

theorem Inference.Dominates.eq_mac {strong : Inference} (h : strong.Dominates .mac) :
    strong = .mac := by
  cases strong with
  | none | forwardChecking => cases h.before rfl
  | ac3Pre => cases h.after rfl
  | mac => rfl

variable {V : Type} [Value V] {n : Nat}

namespace Network

/-- `s` has assigned what `w` has, lies within the domains of `w`, and has every completion of `w`
left. -/
structure Refines (net : Network V n) (s w : Store V n) : Prop where
  grows : Assignment.Extends s.assignment w.assignment
  fewer : s.sets ≤ w.sets
  keeps : ∀ a, net.Completes w a → net.Completes s a

theorem refines_refl (net : Network V n) (s : Store V n) : net.Refines s s :=
  ⟨Assignment.extends_refl _, le_refl _, fun _ h => h⟩

theorem Refines.infers {net : Network V n} {s t w : Store V n} (h : net.Refines s w)
    (infers : net.Infers s t) : net.Refines t w where
  grows := infers.assignment_eq ▸ h.grows
  fewer v _ hx := h.fewer v (infers.advances.descends.mem hx)
  keeps a ha := (h.keeps a ha).infers infers

theorem Refines.live {net : Network V n} {s w : Store V n} (h : net.Refines s w) (live : s.Live) :
    w.Live := fun v => (live v).imp fun _ hx => h.fewer v hx

theorem Refines.value? {net : Network V n} {s w : Store V n} (h : net.Refines s w) {v : Fin n}
    {x : V} (given : w.value? v = some x) : s.value? v = some x := h.grows v x given

theorem Refines.free {net : Network V n} {s w : Store V n} (h : net.Refines s w) {v : Fin n}
    (free : s.value? v = none) : w.value? v = none := by
  cases hvalue : w.value? v with
  | none => rfl
  | some x =>
    rw [h.value? hvalue] at free
    cases free

theorem Refines.unassigned_eq_nil {net : Network V n} {s w : Store V n} (h : net.Refines s w)
    (all : w.unassigned = []) : s.unassigned = [] := by
  apply List.eq_nil_iff_forall_not_mem.mpr
  intro v hv
  have hw : v ∈ w.unassigned := Store.mem_unassigned.mpr (h.free (Store.mem_unassigned.mp hv))
  rw [all] at hw
  cases hw

/-- The finer store may assign a variable that has one value left. -/
theorem Refines.assign {net : Network V n} {s w : Store V n} (h : net.Refines s w) {v : Fin n}
    {x : V} (free : s.value? v = none) (only : (s.domain v).only? = some x) :
    net.Refines (s.assign v x) w where
  grows := (Store.advances_assign free x).grows.trans h.grows
  fewer := h.fewer
  keeps a ha := (h.keeps a ha).assign ((h.keeps a ha).value_of_only only)

/-- What holds in the stores of a search with this inference: no domain is empty, what is assigned
is compatible, and an assigned variable has no other value left; and if the inference runs after
each assignment, what look-ahead knows. -/
structure Firm (net : Network V n) (inference : Inference) (s : Store V n) : Prop where
  live : s.Live
  coherent : net.Coherent s
  fixed : ∀ v x, s.value? v = some x → ∀ y ∈ s.domain v, y = x
  ahead : inference.runsPerAssignment = true → net.Ahead inference s

theorem Firm.mem {net : Network V n} {inference : Inference} {s : Store V n}
    (h : net.Firm inference s) {v : Fin n} {x : V} (given : s.value? v = some x) :
    x ∈ s.domain v := by
  obtain ⟨y, hy⟩ := h.live v
  rw [← h.fixed v x given y hy]
  exact hy

/-- A neighbour of an assigned variable has only values left that go with its value. -/
theorem Firm.consistent {net : Network V n} {inference : Inference} {s : Store V n}
    (h : net.Firm inference s) (looks : inference.runsPerAssignment = true) {v u : Fin n} {x y : V}
    (given : s.value? v = some x) (adj : net.graph.Adj v u) (hy : y ∈ s.domain u) :
    net.consistent u y v x = true := by
  have hback : net.graph.Adj u v := Graph.adj_comm.mp adj
  cases hvalue : s.value? u with
  | none => exact isLegal_iff.mp ((h.ahead looks).legal u hvalue y hy) v x hback given
  | some z =>
    rw [h.fixed u z hvalue y hy]
    exact h.coherent.compatible.consistent hback hvalue given

/-- A value that the finer store has assigned conflicts with nothing in the coarser one. -/
theorem Firm.isLegal {net : Network V n} {inference : Inference} {s w : Store V n}
    (h : net.Firm inference s) (grows : Assignment.Extends s.assignment w.assignment) {v : Fin n}
    {x : V} (given : s.value? v = some x) : net.isLegal w.value? v x = true :=
  isLegal_iff.mpr fun u y adj hy => h.coherent.compatible.consistent adj given (grows u y hy)

/-- If the coarser store has one value left for an assigned variable, that is its value. -/
theorem Refines.value?_eq_of_only {net : Network V n} {inference : Inference} {s w : Store V n}
    (h : net.Refines s w) (firm : net.Firm inference s) {v : Fin n} {x z : V}
    (given : s.value? v = some z) (only : (w.domain v).only? = some x) : s.value? v = some x := by
  rw [given, (SortedSet.mem_iff_of_only? only).mp (h.fewer v (firm.mem given))]

/-- If the coarser store has one value left for a variable, so has the finer one. -/
theorem Refines.only?_eq {net : Network V n} {s w : Store V n} (h : net.Refines s w)
    (live : s.Live) {v : Fin n} {x : V} (only : (w.domain v).only? = some x) :
    (s.domain v).only? = some x := by
  have hall (y : V) (hy : y ∈ s.domain v) : y = x :=
    (SortedSet.mem_iff_of_only? only).mp (h.fewer v hy)
  rw [SortedSet.eq_singleton (live v) hall]
  rfl

/-- The weaker inference takes nothing away that the finer store still has. -/
theorem Firm.le_afterAssignment {net : Network V n} {strong weak : Inference} {s w : Store V n}
    (h : net.Firm strong s) (dominates : strong.Dominates weak) {v : Fin n} {x : V}
    (hs : s.value? v = some x) (hw : w.value? v = some x) (within : s.sets ≤ w.sets) :
    s.sets ≤ (net.afterAssignment weak w v).1.sets := by
  cases weak with
  | none | ac3Pre => exact within
  | forwardChecking =>
    -- the stronger search has held the free neighbours against `x`, and the others were compatible
    have hagrees (u : Fin n) (adj : net.graph.Adj v u) (y : V) (hy : y ∈ s.sets u) :
        net.consistent u y v x = true := h.consistent (dominates.after rfl) hs adj hy
    exact (net.sweeps_forwardCheck hw).le (fun u adj _ => hagrees u adj) within
  | mac =>
    -- the domains of the stronger search are an arc-consistent family within those of the weaker
    obtain rfl := dominates.eq_mac
    exact (h.ahead rfl).arcConsistent.le_propagate (fun _ ha => adj_of_mem_toward ha) within

/-- Where the stronger search goes on, the weaker inference reports no wipeout and leads to a store
that is still coarser. -/
theorem Refines.afterAssignment {net : Network V n} {strong weak : Inference} {s w t : Store V n}
    (h : net.Refines s w) (firm : net.Firm strong s) (dominates : strong.Dominates weak)
    {v : Fin n} {x : V} (given : w.value? v = some x) {propagation : Propagation n}
    (ended : net.afterAssignment weak w v = (t, propagation)) :
    propagation = .consistent ∧ net.Refines s t := by
  have hinfers := net.infers_afterAssignment weak w v
  have hreports := net.reports_afterAssignment weak (h.live firm.live) v
  have hfewer := firm.le_afterAssignment dominates (h.value? given) given h.fewer
  rw [ended] at hinfers hreports hfewer
  refine ⟨?_, hinfers.assignment_eq ▸ h.grows, hfewer, ?_⟩
  · cases propagation with
    | consistent => rfl
    | wipeout u =>
      obtain ⟨y, hy⟩ := firm.live u
      exact absurd (hfewer u hy) (hreports y)
  · intro a ha
    exact h.keeps a (ha.of_advances hinfers.advances)

variable [DecidableEq V]

theorem Firm.step {net : Network V n} {inference : Inference} {s t : Store V n}
    (h : net.Firm inference s) {v : Fin n} {x : V} (free : s.value? v = none)
    (hx : x ∈ s.domain v) (legal : net.isLegal s.value? v x = true)
    (ended : net.afterAssignment inference (s.fix v x) v = (t, .consistent)) :
    net.Firm inference t := by
  have hinfers := net.infers_afterAssignment inference (s.fix v x) v
  have hlive := net.reports_afterAssignment inference (Store.live_fix h.live hx) v
  rw [ended] at hinfers hlive
  have hcoherent : net.Coherent (s.fix v x) :=
    (h.coherent.assign free hx legal).narrow ((s.value?_assign v v x).trans (if_pos rfl))
  exact ⟨hlive, hcoherent.infers hinfers, fixed_of_infers h.fixed hinfers,
    fun looks => (h.ahead looks).step looks free hx ended⟩

/-- The store `t`, in which the stronger search has given `v` the value `x`, refines every store
that the weaker one gets by giving it this value. -/
structure Entered (net : Network V n) (inference : Inference) (s t : Store V n) (v : Fin n)
    (x : V) : Prop where
  firm : net.Firm inference t
  given : t.value? v = some x
  refines : ∀ w, w.value? v = none → net.Refines s w → net.Refines t (w.fix v x)

/-- The stronger search may have given the value before. -/
theorem Firm.entered_self {net : Network V n} {inference : Inference} {s : Store V n}
    (h : net.Firm inference s) {v : Fin n} {x : V} (given : s.value? v = some x) :
    net.Entered inference s s v x where
  firm := h
  given := given
  refines w free hw := by
    refine ⟨hw.grows.insert given, fun u y hy => ?_, fun a ha => ?_⟩
    · refine Store.mem_domain_fix.mpr ⟨hw.fewer u hy, ?_⟩
      rintro rfl
      exact h.fixed u x given y hy
    · exact hw.keeps a (ha.of_advances (Store.advances_fix free x))

/-- Or it gives the value now. -/
theorem Firm.entered_step {net : Network V n} {inference : Inference} {s t : Store V n}
    (h : net.Firm inference s) {v : Fin n} {x : V} (free : s.value? v = none)
    (hx : x ∈ s.domain v) (legal : net.isLegal s.value? v x = true)
    (ended : net.afterAssignment inference (s.fix v x) v = (t, .consistent)) :
    net.Entered inference s t v x := by
  have hinfers := net.infers_afterAssignment inference (s.fix v x) v
  rw [ended] at hinfers
  refine ⟨h.step free hx legal ended, ?_, fun w hfree hw => ?_⟩
  · rw [Store.value?_congr hinfers.assignment_eq]
    exact s.value?_fix_self v x
  · have hfix : net.Refines (s.fix v x) (w.fix v x) := by
      refine ⟨?_, fun u y hy => ?_, fun a ha => ?_⟩
      · have hgrows := (Store.advances_assign free x).grows.trans hw.grows
        exact hgrows.insert (s.value?_fix_self v x)
      · obtain ⟨hmem, hsame⟩ := Store.mem_domain_fix.mp hy
        exact Store.mem_domain_fix.mpr ⟨hw.fewer u hmem, hsame⟩
      -- a completion of the coarser store has the value at `v`
      · have hvalue : Assignment.value? a v = some x :=
          ha.grows v x (w.value?_fix_self v x)
        have hbefore := hw.keeps a (ha.of_advances (Store.advances_fix hfree x))
        exact (hbefore.assign hvalue).narrow hvalue
    exact hfix.infers hinfers

end Network

namespace Plan

variable [DecidableEq V]

omit [DecidableEq V] in
theorem firm_preprocess {plan : Plan} {net : Network V n} {r : Run V n} (live : r.store.Live)
    (fresh : r.store.assignment = ∅) (consistent : (plan.preprocess net r).2 = .consistent) :
    net.Firm plan.inference (plan.preprocess net r).1.store := by
  have hahead := ahead_preprocess live fresh consistent
  have hcoherent := (net.wellPosed_of_fresh live fresh).coherent
  exact ⟨hahead.live, hcoherent.infers (plan.infers_preprocess net r), hahead.fixed, fun _ => hahead⟩

omit [DecidableEq V] in
theorem refines_preprocess {strong weak : Plan} {net : Network V n} {r q : Run V n}
    (dominates : strong.inference.Dominates weak.inference) (same : r.store = q.store)
    (consistent : (strong.preprocess net r).2 = .consistent) :
    (weak.preprocess net q).2 = .consistent ∧
      net.Refines (strong.preprocess net r).1.store (weak.preprocess net q).1.store := by
  by_cases hpre : weak.inference.preprocesses = true
  · have hboth := ac3_eq_preprocess hpre net q
    rw [← same, ac3_eq_preprocess (dominates.before hpre) net r] at hboth
    obtain ⟨hstore, hverdict⟩ := Prod.mk.inj hboth
    rw [← hstore, ← hverdict]
    exact ⟨consistent, net.refines_refl _⟩
  · have hidle : weak.preprocess net q = (q, .consistent) := by rw [preprocess, if_neg hpre]
    rw [hidle, ← same]
    exact ⟨rfl, (net.refines_refl r.store).infers (strong.infers_preprocess net r)⟩

/-- If the finer store has given `v` the value that the weaker search would force, the weaker search
goes on to the next variable. -/
theorem Forces.catch_up {plan : Plan} {net : Network V n} {inference : Inference} {s : Store V n}
    {v : Fin n} {left : List (Fin n)} {q q' : Run V n} {ok : Bool}
    (h : Forces plan net (v :: left) q ok q') (dominates : inference.Dominates plan.inference)
    (firm : net.Firm inference s) (refines : net.Refines s q.store)
    (given : ∀ x, (q.store.domain v).only? = some x → s.value? v = some x) :
    ∃ u, Forces plan net left u ok q' ∧ net.Refines s u.store := by
  have hinfer {x : V} {u : Run V n} {propagation : Propagation n} (free : q.store.value? v = none)
      (only : (q.store.domain v).only? = some x)
      (entered : plan.infer net (enter q v x) v = (u, propagation)) :
      propagation = .consistent ∧ net.Refines s u.store := by
    have hfix := (firm.entered_self (given x only)).refines q.store free refines
    have hended := afterAssignment_of_forced only entered
    exact hfix.afterAssignment firm dominates (q.store.value?_fix_self v x) hended
  cases h with
  | passed _ rest => exact ⟨q, rest, refines⟩
  | illegal _ only conflict =>
    rw [firm.isLegal refines.grows (given _ only)] at conflict
    cases conflict
  | wiped free only _ entered => cases (hinfer free only entered).1
  | forced free only _ entered rest => exact ⟨_, rest, (hinfer free only entered).2⟩

/-- If the stronger search meets no contradiction among its forced assignments, neither does the
weaker one. -/
theorem Forces.refines {strong weak : Plan} {net : Network V n} {l : List (Fin n)}
    {r r' q q' : Run V n} {ok ok' : Bool} (h : Forces strong net l r ok r')
    (dominates : strong.inference.Dominates weak.inference) :
    ok = true → Forces weak net l q ok' q' → net.Firm strong.inference r.store →
      net.Refines r.store q.store →
      ok' = true ∧ net.Firm strong.inference r'.store ∧ net.Refines r'.store q'.store := by
  induction h generalizing q with
  | done =>
    intro _ other firm refines
    cases other
    exact ⟨rfl, firm, refines⟩
  | @passed r r' v _ _ unforced _ ih =>
    intro e other firm refines
    -- a variable that the weaker search would force has one value left here too, so what the
    -- stronger search passes over has been assigned
    have hgiven (x : V) (only : (q.store.domain v).only? = some x) : r.store.value? v = some x := by
      rcases unforced with hassigned | hnone
      · rw [Store.isAssigned_eq] at hassigned
        obtain ⟨z, hz⟩ := Option.isSome_iff_exists.mp hassigned
        exact refines.value?_eq_of_only firm hz only
      · rw [refines.only?_eq firm.live only] at hnone
        cases hnone
    obtain ⟨u, hrest, hrefines⟩ := other.catch_up dominates firm refines hgiven
    exact ih e hrest firm hrefines
  | illegal | wiped => intro e; cases e
  | @forced r t r' v x _ _ free only legal entered _ ih =>
    intro e other firm refines
    have hx : x ∈ r.store.domain v := (SortedSet.mem_iff_of_only? only).mpr rfl
    have hended := afterAssignment_of_forced only entered
    have hentered := firm.entered_step free hx legal hended
    have hrefines : net.Refines t.store q.store :=
      (refines.assign free only).infers (infers_infer entered)
    obtain ⟨u, hrest, hu⟩ := other.catch_up dominates hentered.firm hrefines
      fun y honly => hrefines.value?_eq_of_only hentered.firm hentered.given honly
    exact ih e hrest hentered.firm hu

/-- If the stronger search comes to branching, so does the weaker one, in a coarser store. -/
theorem Opens.refines {strong weak : Plan} {net : Network V n} {token : Token} {s : Store V n}
    {t q' : Run V n} {outcome : Outcome V} (h : Opens strong net (strong.start s) t)
    (dominates : strong.inference.Dominates weak.inference) (live : s.Live)
    (fresh : s.assignment = ∅) (other : Ends weak net token (weak.start s) (.ok outcome) q') :
    ∃ u b, Opens weak net (weak.start s) u ∧ Explores weak net token .node u (.ok b) q' ∧
      net.Firm strong.inference t.store ∧ net.Refines t.store u.store := by
  have hfirm := firm_preprocess (r := strong.start s) live fresh h.consistent
  obtain ⟨hconsistent, hrefines⟩ :=
    refines_preprocess dominates (r := strong.start s) (q := weak.start s) rfl h.consistent
  have hforces {ok : Bool} {u : Run V n}
      (forces : Forces weak net (List.finRange n) (weak.preprocess net (weak.start s)).1 ok u) :
      ok = true ∧ net.Firm strong.inference t.store ∧ net.Refines t.store u.store :=
    h.forces.refines dominates rfl forces hfirm hrefines
  cases other with
  | conflicting conflict =>
    have hagreeing : net.conflictingSingletons (weak.start s).store = none := h.agreeing
    rw [hagreeing] at conflict
    cases conflict
  | emptied wipeout =>
    rw [hconsistent] at wipeout
    cases wipeout
  | contradicted _ forces => cases (hforces forces).1
  | exhausted opens search => exact ⟨_, _, opens, search, (hforces opens.forces).2⟩
  | solved opens search => exact ⟨_, _, opens, search, (hforces opens.forces).2⟩

end Plan

end ConstraintNet
