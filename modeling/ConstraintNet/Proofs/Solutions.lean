import ConstraintNet.Proofs.Entries
import ConstraintNet.Solution
import Mathlib.Data.List.Perm.Subperm

namespace ConstraintNet

variable {V : Type} {n : Nat}

theorem Assignment.mem_iff_exists {a : Assignment V} {id : Nat} :
    id ∈ a ↔ ∃ x, a[id]? = some x := by
  rw [Std.ExtTreeMap.mem_iff_isSome_getElem?, Option.isSome_iff_exists]

theorem Assignment.exists_value? {a : Assignment V} {v : Fin n} (h : v.val ∈ a) :
    ∃ x, value? a v = some x := mem_iff_exists.mp h

theorem Assignment.mem_toList {a : Assignment V} {v : Fin n} {x : V} :
    (v.val, x) ∈ a.toList ↔ value? a v = some x := Std.ExtTreeMap.mem_toList_iff_getElem?_eq_some

theorem Assignment.mem_of_mem_toList {a : Assignment V} {id : Nat} {x : V}
    (h : (id, x) ∈ a.toList) : id ∈ a := by
  rw [Std.ExtTreeMap.mem_toList_iff_getElem?_eq_some] at h
  exact mem_iff_exists.mpr ⟨x, h⟩

theorem Assignment.exists_mem_toList {a : Assignment V} {id : Nat} (h : id ∈ a) :
    ∃ x, (id, x) ∈ a.toList := by
  obtain ⟨x, hx⟩ := mem_iff_exists.mp h
  exact ⟨x, Std.ExtTreeMap.mem_toList_iff_getElem?_eq_some.mpr hx⟩

theorem Assignment.subperm_range {a : Assignment V} (below : ∀ id ∈ a, id < n) :
    a.keys.Subperm (List.range n) := by
  apply List.subperm_of_subset a.nodup_keys
  intro id hid
  exact List.mem_range.mpr (below id (Std.ExtTreeMap.mem_keys.mp hid))

theorem Assignment.size_le {a : Assignment V} (below : ∀ id ∈ a, id < n) : a.size ≤ n := by
  have hlength := (subperm_range below).length_le
  rwa [Std.ExtTreeMap.length_keys, List.length_range] at hlength

/-- An assignment of `n` entries, all to numbers below `n`, leaves none of them out. -/
theorem Assignment.mem_iff_lt_of_size {a : Assignment V} (below : ∀ id ∈ a, id < n)
    (size : a.size = n) (id : Nat) : id ∈ a ↔ id < n := by
  have hlength : (List.range n).length ≤ a.keys.length := by
    rw [List.length_range, Std.ExtTreeMap.length_keys]
    exact Nat.le_of_eq size.symm
  -- `n` different numbers below `n` are all of them
  have hperm : a.keys.Perm (List.range n) := (subperm_range below).perm_of_length_le hlength
  rw [← Std.ExtTreeMap.mem_keys, hperm.mem_iff, List.mem_range]

namespace Network

/-- No two neighbours have values under `value?` that rule each other out. As adjacency is
symmetric, the relation holds in both directions along every edge. -/
def Compatible (net : Network V n) (value? : Fin n → Option V) : Prop :=
  ∀ v w x y, net.graph.Adj v w → value? v = some x → value? w = some y →
    net.relation v x w y = true

theorem Compatible.consistent {net : Network V n} {value? : Fin n → Option V}
    (h : net.Compatible value?) {v w : Fin n} {x y : V} (adj : net.graph.Adj v w)
    (hv : value? v = some x) (hw : value? w = some y) : net.consistent v x w y = true := by
  rw [Network.consistent, h v w x y adj hv hw, h w v y x (Graph.adj_comm.mp adj) hw hv]
  rfl

theorem compatible_of_consistent {net : Network V n} {value? : Fin n → Option V}
    (h : ∀ v w x y, net.graph.Adj v w → value? v = some x → value? w = some y →
      net.consistent v x w y = true) : net.Compatible value? :=
  fun v w x y adj hv hw => (Bool.and_eq_true_iff.mp (h v w x y adj hv hw)).1

theorem isLegal_iff {net : Network V n} {value? : Fin n → Option V} {v : Fin n} {x : V} :
    net.isLegal value? v x = true ↔
      ∀ u y, net.graph.Adj v u → value? u = some y → net.consistent v x u y = true := by
  simp only [isLegal, List.all_eq_true, Option.all_eq_true]
  exact ⟨fun h u y adj hy => h u adj y hy, fun h u adj y hy => h u y adj hy⟩

theorem isLegalUpward_iff {net : Network V n} {a : Assignment V} {v : Fin n} {x : V} :
    net.isLegalUpward a v x = true ↔
      ∀ u y, net.graph.Adj v u → v < u → Assignment.value? a u = some y →
        net.consistent v x u y = true := by
  simp only [isLegalUpward, List.all_eq_true, Bool.or_eq_true, decide_eq_true_eq,
    Option.all_eq_true]
  constructor
  · intro h u y adj hlt hy
    exact (h u adj).resolve_left (by omega) y hy
  · intro h u adj
    by_cases hle : u ≤ v
    · exact Or.inl hle
    · exact Or.inr fun y hy => h u y adj (by omega) hy

theorem isConsistentFrom_of_below {net : Network V n} {a : Assignment V} {l : List (Nat × V)}
    (below : ∀ e ∈ l, e.1 < n) :
    (net.isConsistentFrom a l = .ok true ↔
        ∀ (v : Fin n) (x : V), (v.val, x) ∈ l → net.isLegalUpward a v x = true) ∧
      ∃ b, net.isConsistentFrom a l = .ok b := by
  induction l with
  | nil => simp [isConsistentFrom]
  | cons e rest ih =>
    obtain ⟨id, x⟩ := e
    have hid : id < n := below (id, x) List.mem_cons_self
    have hrest := ih fun e he => below e (List.mem_cons_of_mem _ he)
    unfold isConsistentFrom
    rw [dif_pos hid]
    by_cases hlegal : net.isLegalUpward a ⟨id, hid⟩ x = true
    · rw [if_pos hlegal]
      refine ⟨hrest.1.trans ⟨?_, ?_⟩, hrest.2⟩
      · intro h v y hy
        rcases List.mem_cons.mp hy with e | hy
        · cases e
          exact hlegal
        · exact h v y hy
      · exact fun h v y hy => h v y (List.mem_cons_of_mem _ hy)
    · rw [if_neg hlegal]
      refine ⟨⟨fun h => (by cases h), ?_⟩, false, rfl⟩
      intro h
      exact absurd (h ⟨id, hid⟩ x List.mem_cons_self) hlegal

theorem isConsistent_iff {net : Network V n} {a : Assignment V} (below : ∀ id ∈ a, id < n) :
    net.isConsistent a = .ok true ↔ net.Compatible (Assignment.value? a) := by
  have hbelow : ∀ e ∈ a.toList, e.1 < n := fun e he => below e.1 (Assignment.mem_of_mem_toList he)
  rw [isConsistent, (isConsistentFrom_of_below hbelow).1]
  simp only [Assignment.mem_toList]
  constructor
  · intro h
    apply compatible_of_consistent
    intro v w x y adj hv hw
    -- the check looks upward only, and sees a conflict from the lower end of the edge
    rcases Nat.lt_trichotomy v.val w.val with hlt | heq | hgt
    · exact isLegalUpward_iff.mp (h v x hv) w y adj hlt hw
    · exact absurd (Fin.ext heq ▸ adj) Graph.not_adj_self
    · rw [consistent_comm]
      exact isLegalUpward_iff.mp (h w y hw) v x (Graph.adj_comm.mp adj) hgt hv
  · intro h v x hv
    exact isLegalUpward_iff.mpr fun u y adj _ hu => h.consistent adj hv hu

theorem exists_isConsistent {net : Network V n} {a : Assignment V} (below : ∀ id ∈ a, id < n) :
    ∃ b, net.isConsistent a = .ok b :=
  (isConsistentFrom_of_below fun e he => below e.1 (Assignment.mem_of_mem_toList he)).2

variable [Value V] [DecidableEq V]

omit [DecidableEq V] in
/-- `a` gives a value to every variable and to nothing else, each from the domain that the variable
has in `s`, and no constraint is broken. -/
structure IsSolution (net : Network V n) (s : Store V n) (a : Assignment V) : Prop where
  whole : ∀ id, id ∈ a ↔ id < n
  within : ∀ (v : Fin n) (x : V), Assignment.value? a v = some x → x ∈ s.domain v
  compatible : net.Compatible (Assignment.value? a)

/-- The violation is the first thing that keeps `a` from being a solution: its size, then the
entries in the order of their numbers, then the constraints. -/
inductive Violates (net : Network V n) (s : Store V n) (a : Assignment V) : Violation → Prop
  | wrongSize (differs : a.size ≠ n) : Violates net s a (.wrongSize a.size n)
  | outsideDomain {id : Nat} {x : V} (size : a.size = n) (entry : a[id]? = some x)
      (outside : ∀ h : id < n, x ∉ s.domain ⟨id, h⟩)
      (first : ∀ k y, k < id → a[k]? = some y → ∃ h : k < n, y ∈ s.domain ⟨k, h⟩) :
      Violates net s a (.outsideDomain id (Value.text x))
  | brokenConstraint {v w : Fin n} {x y : V} (size : a.size = n)
      (within : ∀ k z, a[k]? = some z → ∃ h : k < n, z ∈ s.domain ⟨k, h⟩)
      (adj : net.graph.Adj v w) (hx : Assignment.value? a v = some x)
      (hy : Assignment.value? a w = some y) (broken : net.relation v x w y = false) :
      Violates net s a .brokenConstraint

theorem isOutside_eq_false_iff {s : Store V n} {id : Nat} {x : V} :
    s.isOutside (id, x) = false ↔ ∃ h : id < n, x ∈ s.domain ⟨id, h⟩ := by
  unfold Store.isOutside
  split
  · rename_i h
    simp [h]
  · rename_i h
    simp [h]

/-- The entry outside its domain that the check names has the least number of all. -/
theorem violates_of_find? {net : Network V n} {s : Store V n} {a : Assignment V} {id : Nat} {x : V}
    (size : a.size = n) (found : a.toList.find? s.isOutside = some (id, x)) :
    net.Violates s a (.outsideDomain id (Value.text x)) := by
  have houtside : s.isOutside (id, x) = true := List.find?_some found
  have hentry : a[id]? = some x :=
    Std.ExtTreeMap.mem_toList_iff_getElem?_eq_some.mp (List.mem_of_find?_eq_some found)
  refine .outsideDomain size hentry (fun hid hx => ?_) fun k y hk hy => ?_
  · rw [isOutside_eq_false_iff.mpr ⟨hid, hx⟩] at houtside
    cases houtside
  · have hmem : (k, y) ∈ a.toList := Std.ExtTreeMap.mem_toList_iff_getElem?_eq_some.mpr hy
    apply isOutside_eq_false_iff.mp
    by_contra hpasses
    rcases first_of_find? a.ordered_keys_toList found hmem (Bool.of_not_eq_false hpasses) with
      heq | hlater
    · exact Nat.ne_of_lt hk (congrArg Prod.fst heq)
    · exact Nat.lt_asymm hk (Nat.compare_eq_lt.mp hlater)

theorem find?_isOutside_eq_none {s : Store V n} {a : Assignment V} :
    a.toList.find? s.isOutside = none ↔
      (∀ id ∈ a, id < n) ∧
        ∀ (v : Fin n) (x : V), Assignment.value? a v = some x → x ∈ s.domain v := by
  simp only [List.find?_eq_none, Bool.not_eq_true]
  constructor
  · intro h
    refine ⟨fun id hid => ?_, fun v x hx => ?_⟩
    · obtain ⟨x, hx⟩ := Assignment.exists_mem_toList hid
      obtain ⟨hlt, -⟩ := isOutside_eq_false_iff.mp (h (id, x) hx)
      exact hlt
    · obtain ⟨_, hdomain⟩ := isOutside_eq_false_iff.mp (h (v.val, x) (Assignment.mem_toList.mpr hx))
      exact hdomain
  · rintro ⟨below, within⟩ ⟨id, x⟩ he
    have hid : id < n := below id (Assignment.mem_of_mem_toList he)
    exact isOutside_eq_false_iff.mpr ⟨hid, within ⟨id, hid⟩ x (Assignment.mem_toList.mp he)⟩

omit [DecidableEq V] in
theorem Violates.not_isSolution {net : Network V n} {s : Store V n} {a : Assignment V}
    {violation : Violation} (h : net.Violates s a violation) : ¬ net.IsSolution s a := by
  intro hsolution
  cases h with
  | wrongSize differs => exact differs (Assignment.size_eq hsolution.whole)
  | @outsideDomain id x _ entry outside _ =>
    have hmem : id ∈ a := Assignment.mem_iff_exists.mpr ⟨x, entry⟩
    have hid := (hsolution.whole id).mp hmem
    exact outside hid (hsolution.within ⟨id, hid⟩ x entry)
  | brokenConstraint _ _ adj hx hy broken =>
    rw [hsolution.compatible _ _ _ _ adj hx hy] at broken
    cases broken

/-- What is accepted is a solution, and what is refused has the violation that is named. -/
theorem verify_cases (net : Network V n) (s : Store V n) (a : Assignment V) :
    net.verify s a = .ok () ∧ net.IsSolution s a ∨
      ∃ violation, net.verify s a = .error (.invariantViolation violation) ∧
        net.Violates s a violation := by
  unfold verify
  -- in the order of the checks: the size, then ids and domains, then the constraints
  by_cases size : a.size = n
  · rw [if_pos size]
    cases hfind : a.toList.find? s.isOutside with
    | some e => exact Or.inr ⟨_, rfl, violates_of_find? size hfind⟩
    | none =>
      obtain ⟨below, within⟩ := find?_isOutside_eq_none.mp hfind
      obtain ⟨answer, hanswer⟩ := net.exists_isConsistent below
      have hiff : net.isConsistent a = .ok true ↔ _ := isConsistent_iff below
      rw [hanswer] at hiff ⊢
      cases answer with
      | true => exact Or.inl ⟨rfl, Assignment.mem_iff_lt_of_size below size, within, hiff.mp rfl⟩
      | false =>
        have hbroken : ¬ net.Compatible (Assignment.value? a) := fun h => (by cases hiff.mpr h)
        unfold Compatible at hbroken
        push Not at hbroken
        obtain ⟨v, w, x, y, adj, hx, hy, hbroken⟩ := hbroken
        refine Or.inr ⟨_, rfl, .brokenConstraint size (fun k z hz => ?_) adj hx hy
          (Bool.eq_false_iff.mpr hbroken)⟩
        have hentry := Std.ExtTreeMap.mem_toList_iff_getElem?_eq_some.mpr hz
        exact isOutside_eq_false_iff.mp
          (Bool.eq_false_iff.mpr (List.find?_eq_none.mp hfind (k, z) hentry))
  · rw [if_neg size]
    exact Or.inr ⟨_, rfl, .wrongSize size⟩

theorem verify_eq (net : Network V n) (s : Store V n) (a : Assignment V) :
    (net.verify s a = .ok () ↔ net.IsSolution s a) ∧
      (net.verify s a = .ok () ∨
        ∃ violation, net.verify s a = .error (.invariantViolation violation)) := by
  rcases net.verify_cases s a with ⟨hok, hsolution⟩ | ⟨violation, hrefused, hviolates⟩
  · exact ⟨⟨fun _ => hsolution, fun _ => hok⟩, Or.inl hok⟩
  · refine ⟨⟨fun hok => ?_, fun h => absurd h hviolates.not_isSolution⟩, Or.inr ⟨_, hrefused⟩⟩
    rw [hrefused] at hok
    cases hok

theorem verify_eq_ok_iff {net : Network V n} {s : Store V n} {a : Assignment V} :
    net.verify s a = .ok () ↔ net.IsSolution s a := (net.verify_eq s a).1

/-- The check accepts an assignment exactly if it names the variables and nothing else, keeps within
their domains and breaks no constraint in either direction. Anything else it refuses as a violation,
and it names the first one. -/
theorem verify_exact (net : Network V n) (s : Store V n) (a : Assignment V) :
    (net.verify s a = .ok () ↔
      (∀ id, id ∈ a ↔ id < n) ∧
        (∀ (v : Fin n) (x : V), a.value? v = some x → x ∈ s.domain v) ∧
          ∀ (v w : Fin n) (x y : V), net.graph.Adj v w → a.value? v = some x →
            a.value? w = some y → net.relation v x w y = true ∧ net.relation w y v x = true) ∧
      (net.verify s a = .ok () ∨
        ∃ violation, net.verify s a = .error (.invariantViolation violation) ∧
          net.Violates s a violation) := by
  refine ⟨verify_eq_ok_iff.trans ⟨?_, ?_⟩, (net.verify_cases s a).imp_left And.left⟩
  · rintro ⟨whole, within, compatible⟩
    refine ⟨whole, within, fun v w x y adj hx hy => ⟨compatible v w x y adj hx hy, ?_⟩⟩
    exact compatible w v y x (Graph.adj_comm.mp adj) hy hx
  · rintro ⟨whole, within, both⟩
    exact ⟨whole, within, fun v w x y adj hx hy => (both v w x y adj hx hy).1⟩

end Network

end ConstraintNet
