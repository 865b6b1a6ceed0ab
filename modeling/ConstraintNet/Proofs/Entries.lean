import ConstraintNet.Store

namespace ConstraintNet

theorem first_of_find? {α : Type} {R : α → α → Prop} {test : α → Bool} {l : List α} {a b : α}
    (ordered : l.Pairwise R) (found : l.find? test = some a) (hb : b ∈ l) (passes : test b = true) :
    b = a ∨ R a b := by
  obtain ⟨-, before, after, rfl, hbefore⟩ := List.find?_eq_some_iff_append.mp found
  rcases List.mem_append.mp hb with hb | hb
  · have hfails := hbefore b hb
    rw [passes] at hfails
    cases hfails
  · have hlater := (List.pairwise_append.mp ordered).2.1
    exact (List.mem_cons.mp hb).imp_right ((List.pairwise_cons.mp hlater).1 b)

variable {V : Type} {n : Nat}

namespace Assignment

/-- Every entry of `b` is an entry of `a`. -/
def Extends (a b : Assignment V) : Prop :=
  ∀ (id : Nat) (x : V), b[id]? = some x → a[id]? = some x

theorem extends_refl (a : Assignment V) : Extends a a := fun _ _ h => h

theorem Extends.trans {a b c : Assignment V} (hab : Extends a b) (hbc : Extends b c) :
    Extends a c := fun id x h => hab id x (hbc id x h)

theorem extends_empty (a : Assignment V) : Extends a ∅ := by
  intro id x hx
  rw [Std.ExtTreeMap.getElem?_empty] at hx
  cases hx

theorem extends_insert {a : Assignment V} {id : Nat} (x : V) (fresh : id ∉ a) :
    Extends (a.insert id x) a := by
  intro k y hk
  have hne : id ≠ k := by
    intro e
    rw [← e, Std.ExtTreeMap.getElem?_eq_none fresh] at hk
    cases hk
  rw [Std.ExtTreeMap.getElem?_insert, if_neg (by simpa using hne)]
  exact hk

theorem Extends.insert {a b : Assignment V} (h : Extends a b) {v : Fin n} {x : V}
    (hx : value? a v = some x) : Extends a (b.insert v.val x) := by
  intro id y hy
  rw [Std.ExtTreeMap.getElem?_insert] at hy
  split at hy
  · rename_i he
    rw [← Std.LawfulEqCmp.eq_of_compare he, ← hy]
    exact hx
  · exact h id y hy

theorem erase_insert {a : Assignment V} {id : Nat} (x : V) (fresh : id ∉ a) :
    (a.insert id x).erase id = a := by
  apply Std.ExtTreeMap.ext_getElem?
  intro k
  rw [Std.ExtTreeMap.getElem?_erase, Std.ExtTreeMap.getElem?_insert]
  by_cases h : id = k
  · subst h
    simp [Std.ExtTreeMap.getElem?_eq_none fresh]
  · simp [h]

theorem value?_insert (a : Assignment V) (v w : Fin n) (x : V) :
    value? (a.insert v.val x) w = if w = v then some x else value? a w := by
  unfold value?
  rw [Std.ExtTreeMap.getElem?_insert]
  by_cases h : w = v
  · simp [h]
  · have hval : v.val ≠ w.val := fun e => h (Fin.ext e.symm)
    simp [h, hval]

theorem value?_foldl_insert {f : Fin n → V} {l : List (Fin n)} {a : Assignment V} {w : Fin n}
    (h : w ∈ l ∨ value? a w = some (f w)) :
    value? ((l.map fun v => (v.val, f v)).foldl (fun a (id, x) => a.insert id x) a) w =
      some (f w) := by
  -- a variable listed twice is given the same value twice
  induction l generalizing a with
  | nil => exact h.resolve_left List.not_mem_nil
  | cons v l ih =>
    rw [List.map_cons, List.foldl_cons]
    apply ih
    by_cases hv : w = v
    · subst hv
      exact Or.inr (by rw [value?_insert, if_pos rfl])
    · rw [value?_insert, if_neg hv]
      exact h.imp_left fun hmem => (List.mem_cons.mp hmem).resolve_left hv

theorem value?_ofVector (values : Vector V n) (v : Fin n) :
    value? (ofVector values) v = some (values.get v) :=
  value?_foldl_insert (Or.inl (List.mem_finRange v))

theorem mem_foldl_insert {l : List (Nat × V)} {a : Assignment V} {id : Nat} :
    id ∈ l.foldl (fun a (id, x) => a.insert id x) a ↔ id ∈ a ∨ ∃ e ∈ l, e.1 = id := by
  induction l generalizing a with
  | nil => simp
  | cons e l ih =>
    rw [List.foldl_cons, ih, Std.ExtTreeMap.mem_insert, Std.LawfulEqCmp.compare_eq_iff_eq]
    simp only [List.mem_cons, or_and_right, exists_or, exists_eq_left]
    rw [or_assoc, or_left_comm]

theorem mem_ofVector {values : Vector V n} {id : Nat} : id ∈ ofVector values ↔ id < n := by
  rw [ofVector, ofPairs, mem_foldl_insert]
  simp only [Std.ExtTreeMap.not_mem_empty, false_or, List.mem_map, List.mem_finRange, true_and]
  constructor
  · rintro ⟨e, ⟨v, rfl⟩, rfl⟩
    exact v.isLt
  · intro hid
    exact ⟨_, ⟨⟨id, hid⟩, rfl⟩, rfl⟩

theorem size_eq {a : Assignment V} (ids : ∀ id, id ∈ a ↔ id < n) : a.size = n := by
  have perm : a.keys.Perm (List.range n) := by
    apply (List.perm_ext_iff_of_nodup a.nodup_keys List.nodup_range).mpr
    intro id
    rw [Std.ExtTreeMap.mem_keys, List.mem_range]
    exact ids id
  calc
    a.size = a.keys.length := Std.ExtTreeMap.length_keys.symm
    _ = (List.range n).length := perm.length_eq
    _ = n := List.length_range

end Assignment

namespace Store

variable [Value V]

theorem isAssigned_eq (s : Store V n) (v : Fin n) : s.isAssigned v = (s.value? v).isSome :=
  Std.ExtTreeMap.contains_eq_isSome_getElem?

theorem free_of_not_isAssigned {s : Store V n} {v : Fin n} (h : ¬ s.isAssigned v = true) :
    s.value? v = none := by
  rw [isAssigned_eq] at h
  simpa using h

theorem value?_of_fresh {s : Store V n} (fresh : s.assignment = ∅) (v : Fin n) :
    s.value? v = none := by
  rw [value?, fresh]
  exact Std.ExtTreeMap.getElem?_empty

theorem mem_unassigned {s : Store V n} {v : Fin n} : v ∈ s.unassigned ↔ s.value? v = none := by
  simp [unassigned, isAssigned_eq]

theorem nodup_unassigned (s : Store V n) : s.unassigned.Nodup :=
  (List.nodup_finRange n).filter _

theorem unassigned_congr {s t : Store V n} (same : s.assignment = t.assignment) :
    s.unassigned = t.unassigned := by
  simp only [unassigned, isAssigned, same]

theorem value?_congr {s t : Store V n} (same : s.assignment = t.assignment) :
    s.value? = t.value? := by
  funext v
  simp only [value?, same]

theorem not_mem_assignment {s : Store V n} {v : Fin n} (free : s.value? v = none) :
    v.val ∉ s.assignment := by
  intro h
  have hv : (s.value? v).isSome := Std.ExtTreeMap.mem_iff_isSome_getElem?.mp h
  rw [free] at hv
  cases hv

theorem value?_assign (s : Store V n) (v w : Fin n) (x : V) :
    (s.assign v.val x).value? w = if w = v then some x else s.value? w :=
  Assignment.value?_insert s.assignment v w x

theorem unassigned_assign (s : Store V n) (v : Fin n) (x : V) :
    (s.assign v.val x).unassigned = s.unassigned.erase v := by
  rw [s.nodup_unassigned.erase_eq_filter v, unassigned, unassigned, List.filter_filter]
  apply List.filter_congr
  intro w _
  rw [isAssigned_eq, isAssigned_eq, value?_assign]
  by_cases h : w = v
  · simp [h]
  · simp [h]

end Store

end ConstraintNet
