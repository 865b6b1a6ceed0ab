/-!
Finite sets kept as strictly ascending lists. There is one list for each set, so two sets with the
same members are equal (`SortedSet.ext`).
-/

namespace ConstraintNet

/-- A finite set of `α`, listed in strictly ascending order. -/
structure SortedSet (α : Type) [Ord α] where
  toList : List α
  ascending : toList.Pairwise (fun a b => compare a b = .lt)

namespace SortedSet

variable {α : Type} [Ord α]

instance : Membership α (SortedSet α) := ⟨fun s a => a ∈ s.toList⟩

instance [DecidableEq α] (a : α) (s : SortedSet α) : Decidable (a ∈ s) :=
  inferInstanceAs (Decidable (a ∈ s.toList))

instance [DecidableEq α] : DecidableEq (SortedSet α) := fun s t =>
  decidable_of_iff (s.toList = t.toList)
    ⟨fun h => by cases s; cases t; cases h; rfl, fun h => h ▸ rfl⟩

def empty : SortedSet α := ⟨[], .nil⟩

instance : EmptyCollection (SortedSet α) := ⟨empty⟩

def singleton (a : α) : SortedSet α := ⟨[a], by simp⟩

def size (s : SortedSet α) : Nat := s.toList.length

def isEmpty (s : SortedSet α) : Bool := s.toList.isEmpty

/-- The one member of a set that has exactly one. -/
def only? (s : SortedSet α) : Option α :=
  match s.toList with
  | [a] => some a
  | _ => none

/-- Keeps the members that pass the test. -/
def filter (keep : α → Bool) (s : SortedSet α) : SortedSet α :=
  ⟨s.toList.filter keep, s.ascending.sublist List.filter_sublist⟩

/-- Places `a` before the first larger element of an ascending list, once. -/
def place (a : α) : List α → List α
  | [] => [a]
  | b :: l =>
    match compare a b with
    | .lt => a :: b :: l
    | .eq => b :: l
    | .gt => b :: place a l

@[simp] theorem mem_toList {a : α} {s : SortedSet α} : a ∈ s.toList ↔ a ∈ s := Iff.rfl

@[simp] theorem toList_filter (keep : α → Bool) (s : SortedSet α) :
    (s.filter keep).toList = s.toList.filter keep := rfl

@[simp] theorem mem_filter {keep : α → Bool} {a : α} {s : SortedSet α} :
    a ∈ s.filter keep ↔ a ∈ s ∧ keep a := List.mem_filter

@[simp] theorem mem_singleton {a b : α} : a ∈ singleton b ↔ a = b := List.mem_singleton

@[simp] theorem not_mem_empty {a : α} : a ∉ (∅ : SortedSet α) := List.not_mem_nil

theorem isEmpty_iff {s : SortedSet α} : s.isEmpty ↔ s.toList = [] := List.isEmpty_iff

theorem only?_eq_some_iff {a : α} {s : SortedSet α} : s.only? = some a ↔ s.toList = [a] := by
  unfold only?
  split <;> simp_all

theorem mem_iff_of_only? {a b : α} {s : SortedSet α} (only : s.only? = some a) : b ∈ s ↔ b = a := by
  rw [← mem_toList, only?_eq_some_iff.mp only, List.mem_singleton]

section Lawful

variable [Std.TransOrd α] [Std.LawfulEqOrd α]

omit [Std.TransOrd α] in
theorem mem_place {a b : α} {l : List α} : b ∈ place a l ↔ b = a ∨ b ∈ l := by
  induction l with
  | nil => simp [place]
  | cons c l ih =>
    simp only [place]
    cases h : compare a c with
    | lt => simp
    | eq =>
      have hac : a = c := Std.LawfulEqOrd.eq_of_compare h
      simp [hac]
    | gt => simp [ih, or_left_comm]

theorem ascending_place (a : α) {l : List α} (hl : l.Pairwise (fun x y => compare x y = .lt)) :
    (place a l).Pairwise (fun x y => compare x y = .lt) := by
  induction l with
  | nil => simp [place]
  | cons b l ih =>
    obtain ⟨hb, hl⟩ := List.pairwise_cons.1 hl
    simp only [place]
    cases h : compare a b with
    | lt =>
      refine .cons (fun x hx => ?_) (.cons hb hl)
      rcases List.mem_cons.1 hx with rfl | hx
      · exact h
      · exact Std.TransCmp.lt_trans h (hb x hx)
    | eq => exact .cons hb hl
    | gt =>
      refine .cons (fun x hx => ?_) (ih hl)
      rcases mem_place.1 hx with rfl | hx
      · exact Std.OrientedCmp.lt_of_gt h
      · exact hb x hx

/-- Adds a member, if it is not one already. -/
def insert (a : α) (s : SortedSet α) : SortedSet α :=
  ⟨place a s.toList, ascending_place a s.ascending⟩

@[simp] theorem mem_insert {a b : α} {s : SortedSet α} : b ∈ s.insert a ↔ b = a ∨ b ∈ s :=
  mem_place

/-- The set of the entries of a list, in whatever order and however often they are listed. -/
def ofList (l : List α) : SortedSet α := l.foldl (fun s a => s.insert a) ∅

@[simp] theorem mem_ofList {a : α} {l : List α} : a ∈ ofList l ↔ a ∈ l := by
  have fold : ∀ (l : List α) (s : SortedSet α),
      a ∈ l.foldl (fun s a => s.insert a) s ↔ a ∈ s ∨ a ∈ l := by
    intro l
    induction l with
    | nil => simp
    | cons b l ih => intro s; simp [ih, or_assoc, or_comm, or_left_comm]
  simp [ofList, fold]

omit [Std.TransOrd α] in
theorem nodup (s : SortedSet α) : s.toList.Nodup :=
  s.ascending.imp fun {a b} h hab => by
    subst hab
    rw [Std.ReflOrd.compare_self] at h
    cases h

theorem ext {s t : SortedSet α} (h : ∀ a, a ∈ s ↔ a ∈ t) : s = t := by
  have lists : s.toList = t.toList := by
    refine List.Perm.eq_of_pairwise ?_ s.ascending t.ascending
      ((List.perm_ext_iff_of_nodup s.nodup t.nodup).2 h)
    intro a b _ _ hab hba
    rw [Std.OrientedCmp.gt_of_lt hab] at hba
    cases hba
  cases s
  cases t
  cases lists
  rfl

end Lawful

end SortedSet

end ConstraintNet
