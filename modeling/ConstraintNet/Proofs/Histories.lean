import ConstraintNet.Proofs.Inference
import Mathlib.Algebra.BigOperators.Fin
import Mathlib.Data.List.Nodup

namespace ConstraintNet

variable {V : Type} [Value V] {n : Nat}

/-- One change to a store. A restore names the length to which the trail is undone. -/
inductive Edit (V : Type) (n : Nat)
  | assign (id : Nat) (x : V)
  | unassign (id : Nat)
  | remove (v : Fin n) (x : V)
  | narrow (v : Fin n) (x : V)
  | revise (v : Fin n) (other : Nat) (y : V)
  | reviseArc (a : Arc (Fin n))
  | forwardCheck (v : Fin n)
  | ac3
  | mac (v : Fin n)
  | restore (length : Nat)

/-- The store after an edit. -/
def Edit.apply [DecidableEq V] (net : Network V n) (s : Store V n) : Edit V n → Store V n
  | assign id x => s.assign id x
  | unassign id => s.unassign id
  | remove v x => s.remove v x
  | narrow v x => s.narrow v x
  | revise v other y => net.revise s v other y
  | reviseArc a => net.reviseArc s a
  | forwardCheck v => (net.forwardCheck s v).1
  | ac3 => (net.ac3 s).1
  | mac v => (net.mac s v).1
  | restore length => s.restore length

/-- The store after a history, whose first edit comes first. -/
def Store.edited [DecidableEq V] (net : Network V n) (s : Store V n) (history : List (Edit V n)) :
    Store V n :=
  history.foldl (Edit.apply net) s

/-- The values that removals record for a variable, the latest first. -/
def valuesOf (removals : List (Removal V)) (v : Fin n) : List V :=
  (removals.filter fun r => r.var = v.val).map Removal.value

omit [Value V] in
theorem mem_valuesOf {removals : List (Removal V)} {v : Fin n} {x : V} :
    x ∈ valuesOf removals v ↔ ⟨v.val, x⟩ ∈ removals := by
  simp only [valuesOf, List.mem_map, List.mem_filter, decide_eq_true_eq]
  constructor
  · rintro ⟨⟨id, y⟩, ⟨hr, rfl⟩, rfl⟩
    exact hr
  · intro hr
    exact ⟨⟨v.val, x⟩, ⟨hr, rfl⟩, rfl⟩

omit [Value V] in
theorem nodup_valuesOf {removals : List (Removal V)} (once : removals.Nodup) (v : Fin n) :
    (valuesOf removals v).Nodup := by
  apply List.Nodup.map_on
  · rintro ⟨i, x⟩ hx ⟨j, y⟩ hy hxy
    have hi : i = v.val := by simpa using (List.mem_filter.mp hx).2
    have hj : j = v.val := by simpa using (List.mem_filter.mp hy).2
    rw [hi, hj]
    exact congrArg (Removal.mk v.val) hxy
  · exact once.filter _

omit [Value V] in
/-- Each removal is recorded for one variable. -/
theorem sum_length_valuesOf {removals : List (Removal V)} (named : ∀ r ∈ removals, r.var < n) :
    ∑ v : Fin n, (valuesOf removals v).length = removals.length := by
  induction removals with
  | nil => exact Finset.sum_eq_zero fun _ _ => rfl
  | cons r rest ih =>
    have hrest := ih fun q hq => named q (List.mem_cons_of_mem r hq)
    let u : Fin n := ⟨r.var, named r List.mem_cons_self⟩
    -- the first removal adds one entry for its own variable, and none for the others
    have hadds (v : Fin n) :
        (valuesOf (r :: rest) v).length = (valuesOf rest v).length + if v = u then 1 else 0 := by
      by_cases hvar : r.var = v.val
      · simp [valuesOf, u, hvar]
      · have hne : v ≠ u := fun e => hvar (congrArg Fin.val e).symm
        simp [valuesOf, hvar, hne]
    rw [Finset.sum_congr rfl fun v _ => hadds v, Finset.sum_add_distrib, hrest,
      Finset.sum_ite_eq' Finset.univ u, if_pos (Finset.mem_univ u), List.length_cons]

namespace Store

/-- What was in a domain is still in it, or recorded for it. -/
theorem Removed.perm {gone : List (Removal V)} {s t : Store V n} (h : Removed gone s t)
    (v : Fin n) : (s.domain v).toList.Perm ((t.domain v).toList ++ valuesOf gone v) := by
  have hapart : ∀ x ∈ (t.domain v).toList, ∀ y ∈ valuesOf gone v, x ≠ y := by
    rintro x hx y hy rfl
    exact h.absent v x (mem_valuesOf.mp hy) hx
  have hnodup : ((t.domain v).toList ++ valuesOf gone v).Nodup :=
    List.nodup_append.mpr ⟨(t.domain v).nodup, nodup_valuesOf h.once v, hapart⟩
  apply (List.perm_ext_iff_of_nodup (s.domain v).nodup hnodup).mpr
  intro x
  rw [List.mem_append, mem_valuesOf]
  exact h.mem_iff v x

/-- As many removals are recorded as values are lost. -/
theorem Removed.length_eq {gone : List (Removal V)} {s t : Store V n} (h : Removed gone s t) :
    gone.length = ∑ v, ((s.domain v).size - (t.domain v).size) := by
  rw [← sum_length_valuesOf h.named]
  apply Finset.sum_congr rfl
  intro v _
  have hlength := (h.perm v).length_eq
  rw [List.length_append] at hlength
  simp only [SortedSet.size]
  omega

theorem descends_unassign (s : Store V n) (id : Nat) : Descends s (s.unassign id) :=
  ⟨[], removed_of_same rfl rfl⟩

theorem Descends.restore {s t : Store V n} (h : Descends s t) {length : Nat}
    (above : s.trail.length ≤ length) : Descends s (t.restore length) := by
  obtain ⟨gone, h⟩ := h
  exact ⟨_, h.restore above⟩

variable [DecidableEq V]

theorem Descends.apply {net : Network V n} {s t : Store V n} (h : Descends s t) {e : Edit V n}
    (above : ∀ length, e = .restore length → s.trail.length ≤ length) :
    Descends s (e.apply net t) := by
  cases e with
  | assign id x => exact h.trans (t.descends_assign id x)
  | unassign id => exact h.trans (t.descends_unassign id)
  | remove v x | narrow v x | revise v other y => exact h.trans (t.descends_prune v _)
  | reviseArc a => exact h.trans (t.descends_prune a.tail _)
  | forwardCheck v => exact h.trans (net.infers_forwardCheck t v).advances.descends
  | ac3 => exact h.trans (net.infers_ac3 t).advances.descends
  | mac v => exact h.trans (net.infers_mac t v).advances.descends
  | restore length => exact h.restore (above length rfl)

theorem Descends.edited {net : Network V n} {s t : Store V n} (h : Descends s t)
    {history : List (Edit V n)}
    (above : ∀ length, .restore length ∈ history → s.trail.length ≤ length) :
    Descends s (t.edited net history) := by
  -- the checkpoint stays that of `s`, while the store it is held against moves on
  induction history generalizing t with
  | nil => exact h
  | cons e rest ih =>
    have hfirst : Descends s (e.apply net t) :=
      h.apply fun length he => above length (he ▸ List.mem_cons_self)
    exact ih hfirst fun length hmem => above length (List.mem_cons_of_mem e hmem)

/-- Whatever happens to a store after a checkpoint, if nothing is undone below it, then the trail
is that of the checkpoint with the values on top that the domains have lost since, each of them
once, and no domain has gained a value. Undoing the trail down to the checkpoint reads no variable
that does not exist, and gives the store of the checkpoint back, but for what is assigned. -/
theorem rewinds_exactly (net : Network V n) (s : Store V n) (history : List (Edit V n))
    (above : ∀ length, .restore length ∈ history → s.trail.length ≤ length) :
    Numbered.restore (s.edited net history) s.trail.length =
        .ok { s with assignment := (s.edited net history).assignment } ∧
      ∃ since, (s.edited net history).trail = since ++ s.trail ∧
        ∀ v : Fin n, (valuesOf since v).Nodup ∧
          (∀ x, x ∈ valuesOf since v ↔
            x ∈ s.domain v ∧ x ∉ (s.edited net history).domain v) ∧
          ∀ x ∈ (s.edited net history).domain v, x ∈ s.domain v := by
  have hdescends : Descends s (s.edited net history) := s.descends_refl.edited above
  constructor
  · rw [Numbered.restore_of_above hdescends (Nat.le_refl _), hdescends.restore_eq]
  · obtain ⟨since, h⟩ := hdescends
    refine ⟨since, h.trail, fun v => ⟨nodup_valuesOf h.once v, fun x => ?_, fun x hx => ?_⟩⟩
    · rw [mem_valuesOf]
      constructor
      · intro hr
        exact ⟨(h.mem_iff v x).mpr (Or.inr hr), h.absent v x hr⟩
      · rintro ⟨hbefore, hafter⟩
        exact ((h.mem_iff v x).mp hbefore).resolve_left hafter
    · exact (h.mem_iff v x).mpr (Or.inl hx)

end Store

/-- Three variables in a row, the first of which has lost a value before. -/
def worn : Store UInt8 3 where
  domains := #v[.ofList [1, 2], .ofList [1, 2, 3], .ofList [1, 2, 3]]
  trail := [⟨0, 3⟩]

/-- A value is tried, retracted with one checkpoint inside another, and a value is removed. -/
def trial : List (Edit UInt8 3) :=
  [.assign 0 1, .narrow 0 1, .forwardCheck 0, .restore 2, .restore 9, .restore 1, .unassign 0,
    .remove 2 3]

theorem Store.rewinds_exactly_worn :
    (∀ length, .restore length ∈ trial → worn.trail.length ≤ length) ∧
      (worn.edited (.onPath 3) trial).trail = [⟨2, 3⟩] ++ worn.trail ∧
      Numbered.restore (worn.edited (.onPath 3) trial) worn.trail.length =
        .ok { worn with assignment := (worn.edited (.onPath 3) trial).assignment } := by
  have above : ∀ length, .restore length ∈ trial → worn.trail.length ≤ length := by
    intro length h
    simp only [trial, List.mem_cons, List.not_mem_nil, reduceCtorEq, Edit.restore.injEq,
      false_or, or_false] at h
    rcases h with rfl | rfl | rfl
    · decide
    · decide
    · decide
  exact ⟨above, by decide +kernel, (rewinds_exactly (.onPath 3) worn trial above).1⟩

end ConstraintNet
