import Std.Data.TreeSet

/-!
A queue in which nothing waits twice. The set of what waits is kept beside the queue, so that a push
need not search it.
-/

namespace ConstraintNet

variable {α : Type} [Ord α]

/-- The queue is `front` followed by `back` read from its end. -/
structure WorkList (α : Type) [Ord α] where
  front : List α
  back : List α
  waiting : Std.TreeSet α
  mem_waiting : ∀ a, a ∈ waiting ↔ a ∈ front ++ back.reverse
  nodup : (front ++ back.reverse).Nodup

namespace WorkList

/-- What waits, next first. -/
def toList (w : WorkList α) : List α := w.front ++ w.back.reverse

def size (w : WorkList α) : Nat := w.front.length + w.back.length

@[simp] theorem length_toList (w : WorkList α) : w.toList.length = w.size := by
  simp [toList, size]

def isEmpty (w : WorkList α) : Bool := w.front.isEmpty && w.back.isEmpty

@[simp] theorem isEmpty_toList (w : WorkList α) : w.toList.isEmpty = w.isEmpty := by
  cases hf : w.front <;> simp [toList, isEmpty, hf]

def empty : WorkList α where
  front := []
  back := []
  waiting := ∅
  mem_waiting a := by simp
  nodup := by simp

@[simp] theorem toList_empty : (empty : WorkList α).toList = [] := rfl

@[simp] theorem size_empty : (empty : WorkList α).size = 0 := rfl

variable [Std.TransOrd α] [Std.LawfulEqOrd α]

def push (w : WorkList α) (a : α) : WorkList α :=
  if h : a ∈ w.waiting then w
  else
    { front := w.front
      back := a :: w.back
      waiting := w.waiting.insert a
      mem_waiting := fun b => by
        have old := w.mem_waiting b
        simp only [List.mem_append, List.mem_reverse] at old
        simp only [Std.TreeSet.mem_insert, Std.LawfulEqOrd.compare_eq_iff_eq, old,
          List.mem_append, List.reverse_cons, List.mem_reverse, List.mem_singleton]
        grind
      nodup := by
        have new : a ∉ w.front ++ w.back.reverse := fun m => h ((w.mem_waiting a).2 m)
        rw [List.reverse_cons, ← List.append_assoc]
        exact List.nodup_append.2 ⟨w.nodup, by simp, fun x hx y hy e =>
          new (by simp only [List.mem_singleton] at hy; exact hy ▸ e ▸ hx)⟩ }

def extend (w : WorkList α) (l : List α) : WorkList α := l.foldl push w

/-- Takes the first entry `a` out of a queue, whose other entries are `front` and `back`. -/
def drop (w : WorkList α) (a : α) (front back : List α)
    (h : w.toList = a :: (front ++ back.reverse)) : WorkList α where
  front := front
  back := back
  waiting := w.waiting.erase a
  mem_waiting b := by
    have old : b ∈ w.waiting ↔ b ∈ a :: (front ++ back.reverse) := h ▸ w.mem_waiting b
    have distinct : (a :: (front ++ back.reverse)).Nodup := h ▸ w.nodup
    simp only [Std.TreeSet.mem_erase, old, List.mem_cons, ne_eq,
      Std.LawfulEqOrd.compare_eq_iff_eq]
    grind
  nodup := by
    have distinct : (a :: (front ++ back.reverse)).Nodup := h ▸ w.nodup
    exact (List.nodup_cons.1 distinct).2

/-- The entry that has waited longest, and the rest. -/
def pop? (w : WorkList α) : Option (α × WorkList α) :=
  match hf : w.front with
  | a :: rest => some (a, w.drop a rest w.back (by simp [toList, hf]))
  | [] =>
    match hb : w.back.reverse with
    | a :: rest => some (a, w.drop a rest [] (by simp [toList, hf, hb]))
    | [] => none

theorem toList_push (w : WorkList α) (a : α) :
    (w.push a).toList = if a ∈ w.waiting then w.toList else w.toList ++ [a] := by
  unfold push
  split <;> simp [toList]

theorem size_push_le (w : WorkList α) (a : α) : (w.push a).size ≤ w.size + 1 := by
  rw [← length_toList, toList_push, ← length_toList]
  split <;> simp

theorem size_extend_le (w : WorkList α) (l : List α) : (w.extend l).size ≤ w.size + l.length := by
  induction l generalizing w with
  | nil => simp [extend]
  | cons a l ih =>
    have first := size_push_le w a
    have rest := ih (w.push a)
    simp only [extend, List.foldl_cons, List.length_cons] at rest ⊢
    omega

theorem toList_of_pop? {w rest : WorkList α} {a : α} (h : w.pop? = some (a, rest)) :
    w.toList = a :: rest.toList := by
  unfold pop? at h
  split at h
  · rename_i hf
    cases h
    simp [toList, drop, hf]
  · split at h
    · rename_i hf _ _ hb
      cases h
      simp [toList, drop, hf, hb]
    · cases h

theorem size_of_pop? {w rest : WorkList α} {a : α} (h : w.pop? = some (a, rest)) :
    w.size = rest.size + 1 := by
  rw [← length_toList, toList_of_pop? h, List.length_cons, length_toList]

theorem pop?_eq_none_iff {w : WorkList α} : w.pop? = none ↔ w.toList = [] := by
  unfold pop?
  split
  · rename_i hf
    simp [toList, hf]
  · split
    · rename_i hf _ _ hb
      simp [toList, hf, hb]
    · rename_i hf hb
      simp [toList, hf, hb]

end WorkList

end ConstraintNet
