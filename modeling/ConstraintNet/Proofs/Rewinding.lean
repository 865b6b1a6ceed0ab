import ConstraintNet.Numbered
import ConstraintNet.Proofs.Entries

/-!
A store `t` descends from `s` if what the trail of `t` holds above the trail of `s` is exactly what
their domains differ by, each value once.
-/

namespace ConstraintNet.Store

variable {V : Type} [Value V] {n : Nat}

theorem mem_putBack {domains : Vector (Domain V) n} {r : Removal V} {v : Fin n} {x : V} :
    x ∈ (putBack domains r).get v ↔ x ∈ domains.get v ∨ r = ⟨v, x⟩ := by
  obtain ⟨id, y⟩ := r
  unfold putBack
  by_cases h : id < n
  · rw [dif_pos h, Family.get_set domains ⟨id, h⟩ v]
    by_cases hv : v = ⟨id, h⟩
    · subst hv
      rw [if_pos rfl, SortedSet.mem_insert]
      simp [or_comm, eq_comm]
    · rw [if_neg hv]
      have hne : id ≠ v.val := fun e => hv (Fin.ext e.symm)
      simp [hne]
  · rw [dif_neg h]
    have hne : id ≠ v.val := fun e => h (e ▸ v.isLt)
    simp [hne]

theorem mem_foldl_putBack {removals : List (Removal V)} {domains : Vector (Domain V) n}
    {v : Fin n} {x : V} :
    x ∈ (removals.foldl putBack domains).get v ↔ x ∈ domains.get v ∨ ⟨v, x⟩ ∈ removals := by
  -- the domains grow as removals are put back, so they are general in the induction
  induction removals generalizing domains with
  | nil => simp
  | cons r removals ih =>
    rw [List.foldl_cons, ih, mem_putBack, List.mem_cons, or_assoc, eq_comm (a := r)]

theorem mem_domain_restore {s : Store V n} {length : Nat} {v : Fin n} {x : V} :
    x ∈ (s.restore length).domain v ↔
      x ∈ s.domain v ∨ ⟨v, x⟩ ∈ s.trail.take (s.trail.length - length) := mem_foldl_putBack

theorem domains_ext {s t : Store V n} (same : ∀ v x, x ∈ s.domain v ↔ x ∈ t.domain v) :
    s.domains = t.domains :=
  Vector.ext fun i hi => SortedSet.ext (same ⟨i, hi⟩)

/-- The removals that pruning `v` records, the latest first. -/
def cut (s : Store V n) (v : Fin n) (keep : V → Bool) : List (Removal V) :=
  (((s.domain v).toList.filter fun x => !keep x).map fun x => ⟨v.val, x⟩).reverse

theorem mem_cut {s : Store V n} {v : Fin n} {keep : V → Bool} {r : Removal V} :
    r ∈ s.cut v keep ↔ r.var = v.val ∧ r.value ∈ s.domain v ∧ keep r.value = false := by
  obtain ⟨id, y⟩ := r
  simp only [cut, List.mem_reverse, List.mem_map, List.mem_filter, SortedSet.mem_toList,
    Bool.not_eq_true', Removal.mk.injEq]
  constructor
  · rintro ⟨x, ⟨hx, hkeep⟩, rfl, rfl⟩
    exact ⟨rfl, hx, hkeep⟩
  · rintro ⟨hid, hy, hkeep⟩
    exact ⟨y, ⟨hy, hkeep⟩, hid.symm, rfl⟩

theorem nodup_cut (s : Store V n) (v : Fin n) (keep : V → Bool) : (s.cut v keep).Nodup := by
  apply List.pairwise_reverse.mpr
  apply List.pairwise_map.mpr
  apply ((s.domain v).nodup.filter _).imp
  intro x y hne e
  exact hne ((Removal.mk.injEq ..).mp e).2.symm

theorem trail_prune (s : Store V n) (v : Fin n) (keep : V → Bool) :
    (s.prune v keep).trail = s.cut v keep ++ s.trail := by
  have fold : ∀ (gone : List V) (trail : Trail V),
      gone.foldl (fun trail x => (⟨v.val, x⟩ : Removal V) :: trail) trail =
        (gone.map fun x => (⟨v.val, x⟩ : Removal V)).reverse ++ trail := by
    intro gone
    induction gone with
    | nil => intro trail; rfl
    | cons x gone ih => intro trail; simp [ih]
  exact fold _ _

theorem mem_domain_prune {s : Store V n} {v w : Fin n} {keep : V → Bool} {x : V} :
    x ∈ (s.prune v keep).domain w ↔ x ∈ s.domain w ∧ (w = v → keep x = true) := by
  rw [domain_prune]
  by_cases h : w = v
  · simp [h]
  · simp [h]

/-- `t` has lost the values `gone` from the domains of `s`, and recorded each of them once. -/
structure Removed (gone : List (Removal V)) (s t : Store V n) : Prop where
  trail : t.trail = gone ++ s.trail
  mem_iff : ∀ (v : Fin n) (x : V), x ∈ s.domain v ↔ x ∈ t.domain v ∨ ⟨v, x⟩ ∈ gone
  absent : ∀ (v : Fin n) (x : V), ⟨v.val, x⟩ ∈ gone → x ∉ t.domain v
  named : ∀ r ∈ gone, r.var < n
  once : gone.Nodup

theorem removed_of_same {s t : Store V n} (domains : t.domains = s.domains)
    (trail : t.trail = s.trail) : Removed [] s t where
  trail := trail
  mem_iff v x := by simp [domain, domains]
  absent v x h := by cases h
  named r h := by cases h
  once := .nil

theorem removed_prune (s : Store V n) (v : Fin n) (keep : V → Bool) :
    Removed (s.cut v keep) s (s.prune v keep) where
  trail := s.trail_prune v keep
  mem_iff w x := by
    rw [mem_domain_prune, mem_cut]
    constructor
    · intro hx
      by_cases hkeep : w = v → keep x = true
      · exact Or.inl ⟨hx, hkeep⟩
      · have hw : w = v ∧ keep x = false := by simpa using hkeep
        exact Or.inr ⟨congrArg Fin.val hw.1, hw.1 ▸ hx, hw.2⟩
    · rintro (hx | ⟨hw, hx, -⟩)
      · exact hx.1
      · exact Fin.ext hw ▸ hx
  absent w x h hx := by
    obtain ⟨hw, -, hlost⟩ := mem_cut.mp h
    have hkept := (mem_domain_prune.mp hx).2 (Fin.ext hw)
    rw [show keep x = false from hlost] at hkept
    cases hkept
  named r h := (mem_cut.mp h).1 ▸ v.isLt
  once := s.nodup_cut v keep

theorem Removed.trans {first second : List (Removal V)} {s t u : Store V n}
    (hst : Removed first s t) (htu : Removed second t u) : Removed (second ++ first) s u where
  trail := by rw [htu.trail, hst.trail, List.append_assoc]
  mem_iff v x := by
    rw [hst.mem_iff, htu.mem_iff, List.mem_append, or_assoc]
  absent v x h hx := by
    rcases List.mem_append.mp h with h | h
    · exact htu.absent v x h hx
    · exact hst.absent v x h ((htu.mem_iff v x).mpr (Or.inl hx))
  named r h := (List.mem_append.mp h).elim (htu.named r) (hst.named r)
  once := by
    apply List.nodup_append.mpr
    refine ⟨htu.once, hst.once, ?_⟩
    intro r hr q hq e
    -- a value that is lost second was still there after the first losses
    subst e
    have hv := hst.named r hq
    exact hst.absent ⟨r.var, hv⟩ r.value hq ((htu.mem_iff ⟨r.var, hv⟩ r.value).mpr (Or.inr hr))

/-- Only removals recorded since `s` are undone as long as the length stays above its trail. -/
theorem Removed.undone {gone : List (Removal V)} {s t : Store V n} (h : Removed gone s t)
    {length : Nat} (above : s.trail.length ≤ length) :
    t.trail.length - length ≤ gone.length ∧
      t.trail.take (t.trail.length - length) = gone.take (t.trail.length - length) := by
  have hcount : t.trail.length - length ≤ gone.length := by
    have hlen : t.trail.length = gone.length + s.trail.length := by
      rw [h.trail, List.length_append]
    omega
  refine ⟨hcount, ?_⟩
  generalize t.trail.length - length = count at hcount ⊢
  rw [h.trail, List.take_append_of_le_length hcount]

/-- Undoing some of the latest removals leaves the earlier ones. -/
theorem Removed.restore {gone : List (Removal V)} {s t : Store V n} (h : Removed gone s t)
    {length : Nat} (above : s.trail.length ≤ length) :
    Removed (gone.drop (t.trail.length - length)) s (t.restore length) := by
  obtain ⟨hcount, htake⟩ := h.undone above
  let count := t.trail.length - length
  have split (r : Removal V) : r ∈ gone ↔ r ∈ gone.take count ∨ r ∈ gone.drop count := by
    rw [← List.mem_append, List.take_append_drop]
  refine ⟨?_, ?_, ?_, ?_, ?_⟩
  · change t.trail.drop count = gone.drop count ++ s.trail
    rw [h.trail, List.drop_append_of_le_length hcount]
  · intro v x
    rw [h.mem_iff, mem_domain_restore, htake, split, or_assoc]
  · intro v x hx hback
    -- a value that is still missing was not put back, as nothing was recorded twice
    rw [mem_domain_restore, htake] at hback
    rcases hback with hback | hback
    · exact h.absent v x (List.mem_of_mem_drop hx) hback
    · have hdistinct := h.once
      rw [← List.take_append_drop count gone] at hdistinct
      exact (List.nodup_append.mp hdistinct).2.2 _ hback _ hx rfl
  · intro r hr
    exact h.named r (List.mem_of_mem_drop hr)
  · exact h.once.sublist (List.drop_sublist ..)

/-- `t` comes from `s` by removals that its trail remembers, whatever is assigned in either. -/
def Descends (s t : Store V n) : Prop := ∃ gone, Removed gone s t

theorem descends_refl (s : Store V n) : Descends s s := ⟨[], removed_of_same rfl rfl⟩

theorem Descends.trans {s t u : Store V n} : Descends s t → Descends t u → Descends s u
  | ⟨_, hst⟩, ⟨_, htu⟩ => ⟨_, hst.trans htu⟩

theorem descends_prune (s : Store V n) (v : Fin n) (keep : V → Bool) :
    Descends s (s.prune v keep) := ⟨_, s.removed_prune v keep⟩

theorem descends_assign (s : Store V n) (id : Nat) (x : V) : Descends s (s.assign id x) :=
  ⟨[], removed_of_same rfl rfl⟩

theorem Descends.mem {s t : Store V n} (h : Descends s t) {v : Fin n} {x : V}
    (hx : x ∈ t.domain v) : x ∈ s.domain v := by
  obtain ⟨gone, h⟩ := h
  exact (h.mem_iff v x).mpr (Or.inl hx)

/-- `t` comes from `s` by recorded removals, and by assigning variables that had no value. -/
structure Advances (s t : Store V n) : Prop where
  descends : Descends s t
  grows : Assignment.Extends t.assignment s.assignment

theorem advances_refl (s : Store V n) : Advances s s :=
  ⟨s.descends_refl, Assignment.extends_refl _⟩

theorem Advances.trans {s t u : Store V n} (hst : Advances s t) (htu : Advances t u) :
    Advances s u := ⟨hst.descends.trans htu.descends, htu.grows.trans hst.grows⟩

theorem advances_prune (s : Store V n) (v : Fin n) (keep : V → Bool) :
    Advances s (s.prune v keep) := ⟨s.descends_prune v keep, Assignment.extends_refl _⟩

theorem advances_assign {s : Store V n} {v : Fin n} (free : s.value? v = none) (x : V) :
    Advances s (s.assign v x) :=
  ⟨s.descends_assign v x, Assignment.extends_insert x (not_mem_assignment free)⟩

/-- Undoing the trail down to the length it had in an ancestor gives the ancestor back, up to what
is assigned. -/
theorem Descends.restore_eq {s t : Store V n} (h : Descends s t) :
    t.restore s.trail.length = { s with assignment := t.assignment } := by
  obtain ⟨gone, h⟩ := h
  have hlen : t.trail.length - s.trail.length = gone.length := by
    rw [h.trail, List.length_append]
    omega
  -- what is undone is exactly what was removed on the way from `s`
  have domains : (t.restore s.trail.length).domains = s.domains := by
    apply domains_ext
    intro v x
    rw [mem_domain_restore, hlen, h.trail, List.take_left, h.mem_iff]
  have trail : (t.restore s.trail.length).trail = s.trail := by
    change t.trail.drop (t.trail.length - s.trail.length) = _
    rw [hlen, h.trail, List.drop_left]
  calc
    t.restore s.trail.length
      = ⟨(t.restore s.trail.length).domains, t.assignment,
          (t.restore s.trail.length).trail⟩ := rfl
    _ = ⟨s.domains, t.assignment, s.trail⟩ := by rw [domains, trail]

end ConstraintNet.Store

namespace ConstraintNet

variable {V : Type} [Value V] {n : Nat}

/-- Undoing removals that were all recorded since `s` puts nothing back where no domain is. -/
theorem Numbered.restore_of_above {s t : Store V n} (h : s.Descends t) {length : Nat}
    (above : s.trail.length ≤ length) : restore t length = .ok (t.restore length) := by
  obtain ⟨gone, h⟩ := h
  have hnone : (t.trail.take (t.trail.length - length)).find? (fun r => n ≤ r.var) = none := by
    apply List.find?_eq_none.mpr
    intro r hr
    rw [(h.undone above).2] at hr
    have hvar := h.named r (List.mem_of_mem_take hr)
    simpa using hvar
  unfold restore
  rw [hnone]

end ConstraintNet
