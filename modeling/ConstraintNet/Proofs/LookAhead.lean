import ConstraintNet.Proofs.ArcConsistency
import ConstraintNet.Proofs.Coherence

/-!
After an assignment only the arcs from unassigned neighbours are looked at again. A neighbour that
has a value was held against the new value before, when that value was left in its domain.
-/

namespace ConstraintNet

variable {V : Type} [Value V] {n : Nat}

namespace Network

/-- Forward checking that wipes out nothing leaves the free variables it went through only values
that go with the given one. -/
theorem Sweeps.consistent {net : Network V n} {v u : Fin n} {x y : V} {l : List (Fin n)}
    {s : Store V n} {e : Store V n × Propagation n} (h : net.Sweeps v x l s e)
    (ended : e.2 = .consistent) (hu : u ∈ l) (free : s.value? u = none) (hy : y ∈ e.1.domain u) :
    net.consistent u y v x = true := by
  induction h with
  | done => cases hu
  | @passed w _ s _ assigned _ ih =>
    -- an assigned neighbour is not the free one
    have hne : u ≠ w := by
      rintro rfl
      rw [Store.isAssigned_eq, free] at assigned
      cases assigned
    exact ih ended ((List.mem_cons.mp hu).resolve_left hne) free hy
  | emptied => cases ended
  | held _ _ next ih =>
    rcases List.mem_cons.mp hu with rfl | hu
    -- what is left of the revised domain in the end was left right after its revision
    · exact (Store.mem_domain_prune.mp (next.descends.mem hy)).2 rfl
    · exact ih ended hu free hy

theorem consistent_of_forwardCheck {net : Network V n} {s t : Store V n} {v u : Fin n} {x y : V}
    (given : s.value? v = some x) (ended : net.forwardCheck s v = (t, .consistent))
    (adj : net.graph.Adj v u) (free : s.value? u = none) (hy : y ∈ t.domain u) :
    net.consistent u y v x = true := by
  have hsweeps := net.sweeps_forwardCheck given
  rw [ended] at hsweeps
  exact hsweeps.consistent rfl adj free hy

/-- Forward checking loses nothing of a family whose values at the free variables that it goes
through go with the given one. -/
theorem Sweeps.le {net : Network V n} {D : Fin n → Set V} {v : Fin n} {x : V} {l : List (Fin n)}
    {s : Store V n} {e : Store V n × Propagation n} (h : net.Sweeps v x l s e)
    (agrees : ∀ u ∈ l, s.value? u = none → ∀ y ∈ D u, net.consistent u y v x = true)
    (within : D ≤ s.sets) : D ≤ e.1.sets := by
  have hrevise {s : Store V n} {u : Fin n} (hu : ∀ y ∈ D u, net.consistent u y v x = true)
      (hs : D ≤ s.sets) : D ≤ (net.revise s u v x).sets := by
    intro w y hy
    refine Store.mem_domain_prune.mpr ⟨hs w hy, ?_⟩
    rintro rfl
    exact hu y hy
  induction h with
  | done => exact within
  | passed _ _ ih => exact ih (fun w hw => agrees w (List.mem_cons_of_mem _ hw)) within
  | emptied free => exact hrevise (agrees _ List.mem_cons_self free) within
  | held free _ _ ih =>
    have hrest := hrevise (agrees _ List.mem_cons_self free) within
    exact ih (fun w hw => agrees w (List.mem_cons_of_mem _ hw)) hrest

/-- If all arcs are settled but those from free neighbours of `v`, then `mac` has nothing more to
make up for. -/
theorem primed_toward {net : Network V n} {s : Store V n} {v : Fin n}
    (others : ∀ a, net.graph.Adj a.tail a.head →
      a.head = v ∧ s.value? a.tail = none ∨ net.Settled s a) :
    net.Primed (WorkList.empty.extend (net.toward s v)) s where
  arcs _ ha := adj_of_mem_toward ha
  others a adj := by
    rcases others a adj with ⟨hhead, hfree⟩ | hsettled
    · exact Or.inl (mem_extend_toward.mpr ⟨hhead ▸ adj, hfree, hhead⟩)
    · exact Or.inr hsettled

theorem settled_of_mac {net : Network V n} {s t : Store V n} {v : Fin n}
    (others : ∀ a, net.graph.Adj a.tail a.head →
      a.head = v ∧ s.value? a.tail = none ∨ net.Settled s a)
    (ended : net.mac s v = (t, .consistent)) (a : Arc (Fin n))
    (adj : net.graph.Adj a.tail a.head) : net.Settled t a := by
  rw [mac_eq] at ended
  have hsettled := (primed_toward others).settled (congrArg Prod.snd ended) adj
  rw [ended] at hsettled
  exact hsettled

/-- Every variable has a value left, an assigned one only its own, and an unassigned one only
values that no assigned neighbour rules out; under `mac` every arc is settled. -/
structure Ahead (net : Network V n) (inference : Inference) (s : Store V n) : Prop where
  live : s.Live
  fixed : ∀ v x, s.value? v = some x → ∀ y ∈ s.domain v, y = x
  legal : ∀ v, s.value? v = none → ∀ y ∈ s.domain v, net.isLegal s.value? v y = true
  settled : inference = .mac → ∀ a, net.graph.Adj a.tail a.head → net.Settled s a

theorem Ahead.domain_eq {net : Network V n} {inference : Inference} {s : Store V n}
    (h : net.Ahead inference s) {v : Fin n} {x : V} (given : s.value? v = some x) :
    s.domain v = .singleton x := SortedSet.eq_singleton (h.live v) (h.fixed v x given)

theorem Ahead.remainingValues_eq {net : Network V n} {inference : Inference} {s : Store V n}
    (h : net.Ahead inference s) {v : Fin n} (free : s.value? v = none) :
    net.remainingValues s v = (s.domain v).size :=
  List.countP_eq_length.mpr (h.legal v free)

theorem Ahead.arcConsistent {net : Network V n} {s : Store V n} (h : net.Ahead .mac s) :
    net.ArcConsistent s.sets :=
  fun v w adj x hx => isSupported_iff.mp (h.settled rfl ⟨v, w⟩ adj x hx)

/-- Where all arcs are settled and assigned variables have only their values left, no value left
conflicts with an assigned neighbour. -/
theorem isLegal_of_settled {net : Network V n} {s : Store V n}
    (settled : ∀ a, net.graph.Adj a.tail a.head → net.Settled s a)
    (fixed : ∀ v x, s.value? v = some x → ∀ y ∈ s.domain v, y = x) {v : Fin n} {y : V}
    (hy : y ∈ s.domain v) : net.isLegal s.value? v y = true := by
  apply isLegal_iff.mpr
  intro u z adj hz
  obtain ⟨w, hw, hconsistent⟩ := isSupported_iff.mp (settled ⟨v, u⟩ adj y hy)
  rw [fixed u z hz w hw] at hconsistent
  exact hconsistent

end Network

variable [DecidableEq V]

namespace Store

/-- Assigns `v = x` and leaves `v` no other value. -/
abbrev fix (s : Store V n) (v : Fin n) (x : V) : Store V n := (s.assign v x).narrow v x

theorem value?_fix (s : Store V n) (v w : Fin n) (x : V) :
    (s.fix v x).value? w = if w = v then some x else s.value? w := s.value?_assign v w x

theorem value?_fix_self (s : Store V n) (v : Fin n) (x : V) : (s.fix v x).value? v = some x :=
  (s.value?_fix v v x).trans (if_pos rfl)

theorem advances_fix {s : Store V n} {v : Fin n} (free : s.value? v = none) (x : V) :
    s.Advances (s.fix v x) := (advances_assign free x).trans (advances_prune ..)

theorem mem_domain_fix {s : Store V n} {v w : Fin n} {x y : V} :
    y ∈ (s.fix v x).domain w ↔ y ∈ s.domain w ∧ (w = v → y = x) := by
  rw [fix, narrow, mem_domain_prune, decide_eq_true_iff]
  rfl

theorem live_fix {s : Store V n} (live : s.Live) {v : Fin n} {x : V} (hx : x ∈ s.domain v) :
    (s.fix v x).Live := live_prune live ⟨x, mem_domain_fix.mpr ⟨hx, fun _ => rfl⟩⟩

/-- A variable that has one value left needs no narrowing to it. -/
theorem fix_eq_assign {s : Store V n} {v : Fin n} {x : V} (only : (s.domain v).only? = some x) :
    s.fix v x = s.assign v x := by
  apply prune_eq_self
  intro y hy
  exact decide_eq_true ((SortedSet.mem_iff_of_only? only).mp hy)

end Store

namespace Network

/-- Assigning a value that is left unsettles no arc but those from the free neighbours. -/
theorem Ahead.settled_fix {net : Network V n} {inference : Inference} {s : Store V n}
    (h : net.Ahead inference s) {v : Fin n} {x : V} (free : s.value? v = none)
    (hx : x ∈ s.domain v) {a : Arc (Fin n)} (adj : net.graph.Adj a.tail a.head)
    (before : net.Settled s a) :
    a.head = v ∧ (s.fix v x).value? a.tail = none ∨ net.Settled (s.fix v x) a := by
  by_cases hhead : a.head = v
  · have htail : a.tail ≠ v := by
      intro e
      rw [e, hhead] at adj
      exact Graph.not_adj_self adj
    rw [Store.value?_fix, if_neg htail]
    cases hvalue : s.value? a.tail with
    | none => exact Or.inl ⟨hhead, rfl⟩
    | some z =>
      -- the neighbour has one value left, and `x` was left because it goes with that value
      refine Or.inr fun y hy => ?_
      have hyz : y = z := h.fixed a.tail z hvalue y (Store.mem_domain_fix.mp hy).1
      have hxz : net.consistent v x a.tail z = true :=
        isLegal_iff.mp (h.legal v free x hx) a.tail z (Graph.adj_comm.mp (hhead ▸ adj)) hvalue
      refine isSupported_iff.mpr ⟨x, ?_, ?_⟩
      · rw [hhead]
        exact Store.mem_domain_fix.mpr ⟨hx, fun _ => rfl⟩
      · rw [hhead, hyz, consistent_comm]
        exact hxz
  -- the domain at the head is as it was
  · refine Or.inr fun y hy => ?_
    obtain ⟨z, hz, hyz⟩ := isSupported_iff.mp (before y (Store.mem_domain_fix.mp hy).1)
    exact isSupported_iff.mpr ⟨z, Store.mem_domain_fix.mpr ⟨hz, fun e => absurd e hhead⟩, hyz⟩

/-- Forward checking after `v = x` leaves the free variables no value that an assigned neighbour
rules out. -/
theorem Ahead.legal_of_forwardCheck {net : Network V n} {inference : Inference} {s t : Store V n}
    (h : net.Ahead inference s) {v : Fin n} {x : V}
    (ended : net.forwardCheck (s.fix v x) v = (t, .consistent)) {w : Fin n}
    (free : (s.fix v x).value? w = none) {y : V} (hy : y ∈ t.domain w) :
    net.isLegal (s.fix v x).value? w y = true := by
  have hinfers := net.infers_forwardCheck (s.fix v x) v
  rw [ended] at hinfers
  have hbefore : y ∈ s.domain w := (Store.mem_domain_fix.mp (hinfers.advances.descends.mem hy)).1
  apply isLegal_iff.mpr
  intro u z adj hz
  have hne : w ≠ v := by
    rintro rfl
    rw [Store.value?_fix, if_pos rfl] at free
    cases free
  by_cases hu : u = v
  · subst hu
    rw [Store.value?_fix, if_pos rfl] at hz
    cases hz
    exact consistent_of_forwardCheck (s.value?_fix_self u x) ended (Graph.adj_comm.mp adj) free hy
  · rw [Store.value?_fix, if_neg hu] at hz
    rw [Store.value?_fix, if_neg hne] at free
    exact isLegal_iff.mp (h.legal w free y hbefore) u z adj hz

/-- A variable that is assigned and left no other value has no other value after inference. -/
theorem fixed_of_infers {net : Network V n} {s t : Store V n} {v : Fin n} {x : V}
    (fixed : ∀ w z, s.value? w = some z → ∀ y ∈ s.domain w, y = z)
    (infers : net.Infers (s.fix v x) t) :
    ∀ w z, t.value? w = some z → ∀ y ∈ t.domain w, y = z := by
  intro w z hz y hy
  have hleft := Store.mem_domain_fix.mp (infers.advances.descends.mem hy)
  rw [Store.value?_congr infers.assignment_eq, Store.value?_fix] at hz
  by_cases hw : w = v
  · rw [if_pos hw] at hz
    exact (hleft.2 hw).trans (Option.some.inj hz)
  · rw [if_neg hw] at hz
    exact fixed w z hz y hleft.1

/-- Assigning a value that is left keeps what look-ahead knows, if the inference after it wipes out
nothing. -/
theorem Ahead.step {net : Network V n} {inference : Inference} {s t : Store V n}
    (h : net.Ahead inference s) (looks : inference.runsPerAssignment = true) {v : Fin n} {x : V}
    (free : s.value? v = none) (hx : x ∈ s.domain v)
    (ended : net.afterAssignment inference (s.fix v x) v = (t, .consistent)) :
    net.Ahead inference t := by
  have hinfers := net.infers_afterAssignment inference (s.fix v x) v
  have hlive := net.reports_afterAssignment inference (Store.live_fix h.live hx) v
  rw [ended] at hinfers hlive
  have hvalue : t.value? = (s.fix v x).value? := Store.value?_congr hinfers.assignment_eq
  have hfixed := fixed_of_infers h.fixed hinfers
  cases inference with
  | none | ac3Pre => cases looks
  | forwardChecking =>
    refine ⟨hlive, hfixed, ?_, fun e => by cases e⟩
    rw [hvalue]
    exact fun _ hw _ hy => h.legal_of_forwardCheck ended hw hy
  | mac =>
    have hsettled :=
      settled_of_mac (fun a adj => h.settled_fix free hx adj (h.settled rfl a adj)) ended
    exact ⟨hlive, hfixed, fun _ _ _ hy => isLegal_of_settled hsettled hfixed hy, fun _ => hsettled⟩

end Network

namespace Plan

omit [DecidableEq V] in
theorem afterAssignment_of_infer {plan : Plan} {net : Network V n} {r t : Run V n} {v : Fin n}
    {propagation : Propagation n} (inferred : plan.infer net r v = (t, propagation)) :
    net.afterAssignment plan.inference r.store v = (t.store, propagation) := by
  unfold infer at inferred
  split at inferred
  · cases inferred
    rfl
  -- an inference that does not run makes no change where it would
  · rename_i hidle
    cases inferred
    cases hinference : plan.inference with
    | none | ac3Pre => rfl
    | forwardChecking | mac => exact absurd (hinference ▸ rfl) hidle

/-- A value is tried by the inference after it has been fixed. -/
theorem afterAssignment_of_tryValue {plan : Plan} {net : Network V n} {r t : Run V n} {v : Fin n}
    {x : V} {propagation : Propagation n} (entered : plan.tryValue net r v x = (t, propagation)) :
    net.afterAssignment plan.inference (r.store.fix v x) v = (t.store, propagation) :=
  afterAssignment_of_infer (infer_of_tryValue entered)

/-- A forced value need not be fixed, as no other is left. -/
theorem afterAssignment_of_forced {plan : Plan} {net : Network V n} {r t : Run V n} {v : Fin n}
    {x : V} {propagation : Propagation n} (only : (r.store.domain v).only? = some x)
    (entered : plan.infer net (enter r v x) v = (t, propagation)) :
    net.afterAssignment plan.inference (r.store.fix v x) v = (t.store, propagation) := by
  rw [Store.fix_eq_assign only]
  exact afterAssignment_of_infer entered

omit [DecidableEq V] in
/-- With nothing assigned there is nothing that a value could conflict with, and `mac` has made
every arc consistent before the search. -/
theorem ahead_preprocess {plan : Plan} {net : Network V n} {r : Run V n} (live : r.store.Live)
    (fresh : r.store.assignment = ∅) (consistent : (plan.preprocess net r).2 = .consistent) :
    net.Ahead plan.inference (plan.preprocess net r).1.store := by
  have hlive := plan.reports_preprocess net live
  rw [consistent] at hlive
  have hfree (v : Fin n) : (plan.preprocess net r).1.store.value? v = none :=
    Store.value?_of_fresh ((plan.infers_preprocess net r).assignment_eq.trans fresh) v
  refine ⟨hlive, fun v x hx => ?_, fun v _ y _ => ?_, fun hmac a adj x hx => ?_⟩
  · rw [hfree] at hx
    cases hx
  · apply Network.isLegal_iff.mpr
    intro u z _ hz
    rw [hfree] at hz
    cases hz
  · have hpre : plan.inference.preprocesses = true := by rw [hmac]; rfl
    rw [preprocess, if_pos hpre] at consistent hx ⊢
    exact Network.isSupported_iff.mpr (Network.arcConsistent_ac3 consistent a.tail a.head adj x hx)

theorem Forces.ahead {plan : Plan} {net : Network V n} {l : List (Fin n)} {r r' : Run V n}
    {ok : Bool} (h : Forces plan net l r ok r')
    (looks : plan.inference.runsPerAssignment = true) :
    ok = true → net.Ahead plan.inference r.store → net.Ahead plan.inference r'.store := by
  induction h with
  | done => exact fun _ hahead => hahead
  | passed _ _ ih => exact ih
  | illegal | wiped => intro e; cases e
  | @forced r t r' v x _ _ free only _ entered _ ih =>
    intro e hahead
    have hx : x ∈ r.store.domain v := (SortedSet.mem_iff_of_only? only).mpr rfl
    exact ih e (hahead.step looks free hx (afterAssignment_of_forced only entered))

theorem Opens.ahead {plan : Plan} {net : Network V n} {r t : Run V n} (h : Opens plan net r t)
    (looks : plan.inference.runsPerAssignment = true) (live : r.store.Live)
    (fresh : r.store.assignment = ∅) : net.Ahead plan.inference t.store :=
  h.forces.ahead looks rfl (ahead_preprocess live fresh h.consistent)

theorem ahead_tryValue {plan : Plan} {net : Network V n} {r t : Run V n} {v : Fin n} {x : V}
    (looks : plan.inference.runsPerAssignment = true) (ahead : net.Ahead plan.inference r.store)
    (free : r.store.value? v = none) (hx : x ∈ r.store.domain v)
    (entered : plan.tryValue net r v x = (t, .consistent)) : net.Ahead plan.inference t.store :=
  ahead.step looks free hx (afterAssignment_of_tryValue entered)

/-- What look-ahead knows where a search begins, it knows wherever the search comes: a value taken
back leaves the store in which it was tried. -/
theorem Meets.ahead {plan : Plan} {net : Network V n} {token : Token} {task₀ task : Task V n}
    {r₀ r : Run V n} (h : Meets plan net token task₀ r₀ task r)
    (looks : plan.inference.runsPerAssignment = true) (sound : Sound net task₀ r₀)
    (ahead : net.Ahead plan.inference r₀.store) : net.Ahead plan.inference r.store := by
  induction h with
  | start => exact ahead
  | branch _ _ _ _ ih | illegal _ _ ih => exact ih
  | wiped met _ entered ih =>
    rw [store_retract_tryValue (met.sound sound).fits entered rfl]
    exact ih
  | @entered r t v length x left met _ entered ih =>
    have hmet := met.sound sound
    exact ahead_tryValue looks ih hmet.fits.1 (hmet.offered x List.mem_cons_self) entered
  | failed met _ entered below ih =>
    have hsame := (below.framed trivial).unchanged rfl
    rw [store_retract_tryValue (met.sound sound).fits entered hsame]
    exact ih

/-- A search that begins with nothing assigned and infers after each assignment keeps ahead of its
choices. At every node to which it comes, an assigned variable has its value as its domain, and an
unassigned one has a value left and none that its assigned neighbours rule out, so that counting
the remaining values counts the domain; if arcs are kept consistent, all of them are. No value that
it is about to try is passed over. -/
theorem search_looks_ahead (plan : Plan) (net : Network V n) (token : Token) (s : Store V n)
    (live : s.Live) (fresh : s.assignment = ∅)
    (looks : plan.inference = .forwardChecking ∨ plan.inference = .mac) :
    ∀ t, Opens plan net (plan.start s) t →
      (∀ r, Meets plan net token .node t .node r →
        (∀ v x, r.store.value? v = some x → r.store.domain v = .singleton x) ∧
          (∀ v, r.store.value? v = none →
            (∃ x, x ∈ r.store.domain v) ∧
              (∀ x ∈ r.store.domain v, net.isLegal r.store.value? v x = true) ∧
                net.remainingValues r.store v = (r.store.domain v).size) ∧
            (plan.inference = .mac → net.ArcConsistent r.store.sets)) ∧
        ∀ r v length x left, Meets plan net token .node t (.values v length (x :: left)) r →
          net.isLegal r.store.value? v x = true := by
  intro t hopens
  have hruns : plan.inference.runsPerAssignment = true := by
    rcases looks with e | e
    · rw [e]
      rfl
    · rw [e]
      rfl
  have hsound : Sound net .node t := hopens.sound (net.wellPosed_of_fresh live fresh).start
  have hahead := hopens.ahead hruns live fresh
  refine ⟨fun r hmet => ?_, fun r v length x left hmet => ?_⟩
  · have hr := hmet.ahead hruns hsound hahead
    refine ⟨fun v x => hr.domain_eq, fun v hfree => ?_, fun e => ?_⟩
    · exact ⟨hr.live v, hr.legal v hfree, hr.remainingValues_eq hfree⟩
    · exact (e ▸ hr).arcConsistent
  · have htask := hmet.sound hsound
    have hx : x ∈ r.store.domain v := htask.offered x List.mem_cons_self
    exact (hmet.ahead hruns hsound hahead).legal v htask.fits.1 x hx

end Plan

/-- Before the search, forward checking assigns the fixed end of the row and leaves its neighbour
one value. The first node finds the other two variables unassigned. -/
theorem Plan.search_looks_ahead_fixedEnd :
    fixedEnd.Live ∧ fixedEnd.assignment = ∅ ∧
      ∃ t, Opens ⟨.mrv, .lcv, .forwardChecking, 0⟩ (.onPath 3)
          (Plan.start ⟨.mrv, .lcv, .forwardChecking, 0⟩ fixedEnd) t ∧
        t.store.unassigned = [0, 1] ∧ t.store.domain 2 = .singleton 2 ∧
          (Network.onPath 3).remainingValues t.store 0 = 2 ∧
            (Network.onPath 3).remainingValues t.store 1 = 1 := by
  let plan : Plan := ⟨.mrv, .lcv, .forwardChecking, 0⟩
  let r := (plan.preprocess (.onPath 3) (plan.start fixedEnd)).1
  let t := (plan.assignForced (.onPath 3) r).2
  have live : fixedEnd.Live := by decide
  have hforced : (plan.assignForced (.onPath 3) r).1 = true := by decide +kernel
  have hforces : Forces plan (.onPath 3) (List.finRange 3) r true t := by
    rw [← hforced]
    exact plan.forces_assignForcedFrom (.onPath 3) (List.finRange 3) r
  have hopens : Opens plan (.onPath 3) (plan.start fixedEnd) t :=
    ⟨by decide +kernel, by decide +kernel, hforces⟩
  obtain ⟨hnodes, -⟩ :=
    plan.search_looks_ahead (.onPath 3) .never fixedEnd live rfl (Or.inl rfl) t hopens
  obtain ⟨hfixed, hfree, -⟩ := hnodes t .start
  have hvalue : t.store.value? 2 = some 2 := by decide +kernel
  have hcount (v : Fin 3) (hv : t.store.value? v = none) :
      (Network.onPath 3).remainingValues t.store v = (t.store.domain v).size := (hfree v hv).2.2
  refine ⟨live, rfl, t, hopens, by decide +kernel, hfixed 2 2 hvalue, ?_, ?_⟩
  · rw [hcount 0 (by decide +kernel)]
    decide +kernel
  · rw [hcount 1 (by decide +kernel)]
    decide +kernel

end ConstraintNet
