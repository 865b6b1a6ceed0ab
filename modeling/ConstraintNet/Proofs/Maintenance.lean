import ConstraintNet.Proofs.LookAhead

/-!
If the arcs were consistent before an assignment, an arc that waits in neither list is settled, so
`mac` and `ac3` both end in the greatest arc-consistent family within the domains.
-/

namespace ConstraintNet

variable {V : Type} [Value V] {n : Nat}

namespace Network

instance [DecidableEq V] (net : Network V n) (s : Store V n) :
    Decidable (net.ArcConsistent s.sets) :=
  inferInstanceAs (Decidable (∀ v w, net.graph.Adj v w → ∀ x ∈ (s.domain v).toList,
    ∃ y ∈ (s.domain w).toList, net.consistent v x w y = true))

theorem isWipeout_eq_false_iff {propagation : Propagation n} :
    propagation.isWipeout = false ↔ propagation = .consistent := by
  cases propagation with
  | consistent | wipeout v => simp [Propagation.isWipeout]

theorem Primed.isWipeout_eq {net : Network V n} {w₁ w₂ : WorkList (Arc (Fin n))} {s : Store V n}
    (h₁ : net.Primed w₁ s) (h₂ : net.Primed w₂ s) (live : s.Live) :
    (net.propagate w₁ s).2.isWipeout = (net.propagate w₂ s).2.isWipeout := by
  have hsame : (net.propagate w₁ s).2.isWipeout = false ↔
      (net.propagate w₂ s).2.isWipeout = false := by
    rw [isWipeout_eq_false_iff, isWipeout_eq_false_iff, h₁.consistent_iff live,
      h₂.consistent_iff live]
  exact Bool.eq_iff_iff.mpr (by simpa using not_congr hsame)

theorem Primed.domains_eq {net : Network V n} {w₁ w₂ : WorkList (Arc (Fin n))} {s : Store V n}
    (h₁ : net.Primed w₁ s) (h₂ : net.Primed w₂ s)
    (consistent₁ : (net.propagate w₁ s).2 = .consistent)
    (consistent₂ : (net.propagate w₂ s).2 = .consistent) :
    (net.propagate w₁ s).1.domains = (net.propagate w₂ s).1.domains := by
  have hsets : (net.propagate w₁ s).1.sets = (net.propagate w₂ s).1.sets :=
    (h₁.sets_eq_core consistent₁).trans (h₂.sets_eq_core consistent₂).symm
  apply Store.domains_ext
  intro v x
  exact Set.ext_iff.mp (congrFun hsets v) x

variable [DecidableEq V]

/-- If every arc is consistent and every assigned variable has its value as its domain, then no
value left to an unassigned variable conflicts with what is assigned. Once such a value is assigned,
looking again only at the arcs from the unassigned neighbours of the variable comes to the same
verdict as looking at all arcs, and, without a wipeout, to the same domains. -/
theorem mac_agrees_ac3 (net : Network V n) (s : Store V n) (live : s.Live)
    (consistent : net.ArcConsistent s.sets)
    (fixed : ∀ v x, s.value? v = some x → s.domain v = .singleton x) (v : Fin n) (x : V)
    (free : s.value? v = none) (hx : x ∈ s.domain v) :
    net.isLegal s.value? v x = true ∧
      (net.mac (s.fix v x) v).2.isWipeout = (net.ac3 (s.fix v x)).2.isWipeout ∧
        ((net.mac (s.fix v x) v).2.isWipeout = false →
          (net.mac (s.fix v x) v).1.domains = (net.ac3 (s.fix v x)).1.domains) := by
  have hsettled (a : Arc (Fin n)) (adj : net.graph.Adj a.tail a.head) : net.Settled s a :=
    fun y hy => isSupported_iff.mpr (consistent a.tail a.head adj y hy)
  have hfixed (w : Fin n) (z : V) (hz : s.value? w = some z) (y : V) (hy : y ∈ s.domain w) :
      y = z := by
    rw [fixed w z hz] at hy
    exact SortedSet.mem_singleton.mp hy
  have hahead : net.Ahead .mac s :=
    ⟨live, hfixed, fun _ _ _ hy => isLegal_of_settled hsettled hfixed hy, fun _ => hsettled⟩
  -- the assignment unsettles only arcs that wait in both lists
  have hmac := primed_toward fun a adj => hahead.settled_fix free hx adj (hsettled a adj)
  have hac3 := net.primed_arcs (s.fix v x)
  have hverdict : (net.mac (s.fix v x) v).2.isWipeout = (net.ac3 (s.fix v x)).2.isWipeout :=
    hmac.isWipeout_eq hac3 (Store.live_fix live hx)
  refine ⟨hahead.legal v free x hx, hverdict, fun hquiet => ?_⟩
  have hquiet' : (net.ac3 (s.fix v x)).2.isWipeout = false := hverdict.symm.trans hquiet
  exact hmac.domains_eq hac3 (isWipeout_eq_false_iff.mp hquiet) (isWipeout_eq_false_iff.mp hquiet')

end Network

/-- Four variables in a row, the last of which has a value that its neighbour knows of. -/
def anchored : Store UInt8 4 where
  domains := #v[.ofList [1, 2, 3], .ofList [1, 2, 3], .ofList [1, 3], .singleton 2]
  assignment := .ofPairs [(3, 2)]

/-- What the second variable takes away from its neighbours, both passes find. -/
theorem Network.mac_agrees_ac3_anchored :
    anchored.Live ∧ (onPath 4).ArcConsistent anchored.sets ∧
      (∀ v x, anchored.value? v = some x → anchored.domain v = .singleton x) ∧
        ((onPath 4).ac3 (anchored.fix 1 1)).2.isWipeout = false ∧
          ((onPath 4).ac3 (anchored.fix 1 1)).1.domains =
            #v[.ofList [2, 3], .singleton 1, .singleton 3, .singleton 2] := by
  have live : anchored.Live := by decide
  have consistent : (onPath 4).ArcConsistent anchored.sets := by decide
  have fixed (v : Fin 4) (x : UInt8) (h : anchored.value? v = some x) :
      anchored.domain v = .singleton x := by
    change Assignment.value? ((∅ : Assignment UInt8).insert (3 : Fin 4).val 2) v = some x at h
    rw [Assignment.value?_insert] at h
    split at h
    · rename_i hv
      cases h
      rw [hv]
      rfl
    · cases h
  obtain ⟨-, hverdict, hdomains⟩ :=
    (onPath 4).mac_agrees_ac3 anchored live consistent fixed 1 1 (by decide +kernel) (by decide)
  have hquiet : ((onPath 4).mac (anchored.fix 1 1) 1).2.isWipeout = false := by decide +kernel
  refine ⟨live, consistent, fixed, hverdict.symm.trans hquiet, (hdomains hquiet).symm.trans ?_⟩
  decide +kernel

namespace Network

theorem consistent_of_mem_reviseArc {net : Network V n} {s : Store V n} {u v : Fin n} {x y : V}
    (only : ∀ z ∈ s.domain v, z = x) (hy : y ∈ (net.reviseArc s ⟨u, v⟩).domain u) :
    net.consistent u y v x = true := by
  obtain ⟨z, hz, hconsistent⟩ := isSupported_iff.mp ((mem_domain_reviseArc.mp hy).2 rfl)
  rw [only z hz] at hconsistent
  exact hconsistent

/-- An arc that waits, towards a variable with no value but `x`, has been revised when the loop ends
without a wipeout. -/
theorem Settles.consistent {net : Network V n} {k : Nat} {w : WorkList (Arc (Fin n))}
    {s : Store V n} {e : Store V n × Propagation n} (h : net.Settles k w s e) {u v : Fin n} {x : V}
    (only : ∀ z ∈ s.domain v, z = x)
    (waits : ⟨u, v⟩ ∈ w.toList ∨ ∀ y ∈ s.domain u, net.consistent u y v x = true)
    (ended : e.2 = .consistent) : ∀ y ∈ e.1.domain u, net.consistent u y v x = true := by
  -- once the arc was revised its tail has only values that go with `x`, and no revision adds any
  have hstep {s : Store V n} {a : Arc (Fin n)} {rest : List (Arc (Fin n))}
      (only : ∀ z ∈ s.domain v, z = x)
      (waits : ⟨u, v⟩ ∈ a :: rest ∨ ∀ y ∈ s.domain u, net.consistent u y v x = true) :
      ⟨u, v⟩ ∈ rest ∨ ∀ y ∈ (net.reviseArc s a).domain u, net.consistent u y v x = true := by
    rcases waits with hmem | hdone
    · rcases List.mem_cons.mp hmem with rfl | hmem
      · exact Or.inr fun y hy => consistent_of_mem_reviseArc only hy
      · exact Or.inl hmem
    · exact Or.inr fun y hy => hdone y (mem_domain_reviseArc.mp hy).1
  induction h with
  | idle popped =>
    rw [WorkList.pop?_eq_none_iff.mp popped] at waits
    exact waits.resolve_left List.not_mem_nil
  | kept popped same _ ih =>
    rw [WorkList.toList_of_pop? popped] at waits
    have hrest := hstep only waits
    rw [same] at hrest
    exact ih only hrest ended
  | emptied => cases ended
  | @shrunk _ _ _ a s _ popped _ _ _ ih =>
    rw [WorkList.toList_of_pop? popped] at waits
    have hfewer : ∀ z ∈ (net.reviseArc s a).domain v, z = x :=
      fun z hz => only z (mem_domain_reviseArc.mp hz).1
    refine ih hfewer ?_ ended
    rcases hstep only waits with hmem | hdone
    · exact Or.inl (WorkList.mem_extend.mpr (Or.inl hmem))
    · exact Or.inr hdone

/-- If an assigned variable has no other value, then `mac` without a wipeout leaves its free
neighbours only values that go with the one assigned. -/
theorem consistent_of_mac {net : Network V n} {s : Store V n} {u v : Fin n} {x y : V}
    (only : ∀ z ∈ s.domain v, z = x) (ended : (net.mac s v).2 = .consistent)
    (adj : net.graph.Adj v u) (free : s.value? u = none) (hy : y ∈ (net.mac s v).1.domain u) :
    net.consistent u y v x = true := by
  have hwaits : ⟨u, v⟩ ∈ (WorkList.empty.extend (net.toward s v)).toList :=
    mem_extend_toward.mpr ⟨Graph.adj_comm.mp adj, free, rfl⟩
  obtain ⟨k, -, hsettles⟩ := net.settles_propagate (WorkList.empty.extend (net.toward s v)) s
  exact hsettles.consistent only (Or.inl hwaits) ended y hy

/-- Once a variable has its value as its domain, `mac` takes away all that forward checking does: it
reports a wipeout where forward checking reports one, and without a wipeout it leaves no variable a
value that forward checking would not. -/
theorem mac_dominates_forwardCheck (net : Network V n) (s : Store V n) (live : s.Live) (v : Fin n)
    (x : V) (given : s.value? v = some x) (fixed : s.domain v = .singleton x) :
    ((net.forwardCheck s v).2.isWipeout = true → (net.mac s v).2.isWipeout = true) ∧
      ((net.mac s v).2 = .consistent →
        ∀ u, ∀ y ∈ (net.mac s v).1.domain u, y ∈ (net.forwardCheck s v).1.domain u) := by
  have honly : ∀ z ∈ s.domain v, z = x := by
    intro z hz
    rw [fixed] at hz
    exact SortedSet.mem_singleton.mp hz
  have hle (ended : (net.mac s v).2 = .consistent) :
      (net.mac s v).1.sets ≤ (net.forwardCheck s v).1.sets := by
    have hwithin : (net.mac s v).1.sets ≤ s.sets :=
      fun _ _ hy => (net.infers_mac s v).advances.descends.mem hy
    exact (net.sweeps_forwardCheck given).le
      (fun u adj free y hy => consistent_of_mac honly ended adj free hy) hwithin
  refine ⟨fun hwipeout => ?_, fun ended u y hy => hle ended u hy⟩
  by_contra hquiet
  have ended := isWipeout_eq_false_iff.mp (Bool.eq_false_iff.mpr hquiet)
  -- what `mac` leaves, forward checking leaves too, so it cannot have emptied a domain
  have hmac := net.reports_mac live v
  have hcheck := net.reports_forwardCheck live v
  cases hverdict : (net.forwardCheck s v).2 with
  | consistent =>
    rw [hverdict] at hwipeout
    cases hwipeout
  | wipeout u =>
    simp only [Reports, ended] at hmac
    simp only [Reports, hverdict] at hcheck
    obtain ⟨y, hy⟩ := hmac u
    exact hcheck y (hle ended u hy)

end Network

/-- Three variables in a row, the first of which has taken the only value of the second. -/
def crowded : Store UInt8 3 where
  domains := #v[.singleton 1, .singleton 1, .ofList [1, 2]]
  assignment := .ofPairs [(0, 1)]

/-- The first of a row has a value that leaves the second one value, which the third then loses. -/
def chained : Store UInt8 3 where
  domains := #v[.singleton 1, .ofList [1, 2], .ofList [2, 3]]
  assignment := .ofPairs [(0, 1)]

/-- In the first row both report the wipeout; in the second only `mac` looks as far as the end. -/
theorem Network.mac_dominates_forwardCheck_chained :
    (crowded.Live ∧ crowded.value? 0 = some 1 ∧ crowded.domain 0 = .singleton 1 ∧
      ((onPath 3).forwardCheck crowded 0).2 = .wipeout 1 ∧
        ((onPath 3).mac crowded 0).2.isWipeout = true) ∧
      chained.Live ∧ chained.value? 0 = some 1 ∧ chained.domain 0 = .singleton 1 ∧
        ((onPath 3).mac chained 0).2 = .consistent ∧
          2 ∉ ((onPath 3).mac chained 0).1.domain 2 ∧
            2 ∈ ((onPath 3).forwardCheck chained 0).1.domain 2 ∧
              3 ∈ ((onPath 3).forwardCheck chained 0).1.domain 2 := by
  have hcrowded : crowded.Live ∧ crowded.value? 0 = some 1 ∧ crowded.domain 0 = .singleton 1 := by
    decide +kernel
  have hchained : chained.Live ∧ chained.value? 0 = some 1 ∧ chained.domain 0 = .singleton 1 := by
    decide +kernel
  have hwipeout : ((onPath 3).forwardCheck crowded 0).2 = .wipeout 1 := by decide +kernel
  have hended : ((onPath 3).mac chained 0).2 = .consistent := by decide +kernel
  have hleft : 3 ∈ ((onPath 3).mac chained 0).1.domain 2 := by decide +kernel
  obtain ⟨hreports, -⟩ := (onPath 3).mac_dominates_forwardCheck crowded hcrowded.1 0 1 hcrowded.2.1
    hcrowded.2.2
  obtain ⟨-, hle⟩ := (onPath 3).mac_dominates_forwardCheck chained hchained.1 0 1 hchained.2.1
    hchained.2.2
  refine ⟨⟨hcrowded.1, hcrowded.2.1, hcrowded.2.2, hwipeout, ?_⟩, hchained.1, hchained.2.1,
    hchained.2.2, hended, by decide +kernel, by decide +kernel, hle hended 2 3 hleft⟩
  apply hreports
  rw [hwipeout]
  rfl

end ConstraintNet
