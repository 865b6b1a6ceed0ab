import ConstraintNet.Proofs.Inference

namespace ConstraintNet

/-- What can be asked of a queue. -/
inductive Request (α : Type)
  | push (a : α)
  | extend (l : List α)
  | pop

/-- The entries that a request pushes. -/
def Request.pushed {α : Type} : Request α → List α
  | push a => [a]
  | extend l => l
  | pop => []

/-- Serves one request after another. This gives the state after the last, and what each of them
was handed. -/
def serveAll {σ α : Type} (serve : σ → Request α → σ × Option α) (s : σ) :
    List (Request α) → σ × List (Option α)
  | [] => (s, [])
  | r :: rest =>
    let next := serve s r
    let others := serveAll serve next.1 rest
    (others.1, next.2 :: others.2)

section Serving

variable {σ τ α : Type}

theorem serveAll_append (serve : σ → Request α → σ × Option α) (s : σ)
    (first second : List (Request α)) :
    serveAll serve s (first ++ second) =
      ((serveAll serve (serveAll serve s first).1 second).1,
        (serveAll serve s first).2 ++ (serveAll serve (serveAll serve s first).1 second).2) := by
  induction first generalizing s with
  | nil => rfl
  | cons r rest ih =>
    rw [List.cons_append, serveAll, ih]
    rfl

/-- What serves each request as seen through a view of its state serves all of them so. -/
theorem serveAll_view {serve : σ → Request α → σ × Option α}
    {serve' : τ → Request α → τ × Option α} {view : σ → τ}
    (step : ∀ s r, serve' (view s) r = (view (serve s r).1, (serve s r).2)) (s : σ)
    (requests : List (Request α)) :
    serveAll serve' (view s) requests =
      (view (serveAll serve s requests).1, (serveAll serve s requests).2) := by
  induction requests generalizing s with
  | nil => rfl
  | cons r rest ih =>
    rw [serveAll, step, ih]
    rfl

end Serving

namespace Line

variable {α : Type} [DecidableEq α]

/-- Takes `a` in at the end of a line, unless it stands there already. -/
def join (line : List α) (a : α) : List α := if a ∈ line then line else line ++ [a]

/-- A line is served at its head. -/
def serve (line : List α) : Request α → List α × Option α
  | .push a => (join line a, none)
  | .extend l => (l.foldl join line, none)
  | .pop => (line.tail, line.head?)

end Line

namespace WorkList

variable {α : Type} [Ord α] [Std.TransOrd α] [Std.LawfulEqOrd α]

def serve (w : WorkList α) : Request α → WorkList α × Option α
  | .push a => (w.push a, none)
  | .extend l => (w.extend l, none)
  | .pop =>
    match w.pop? with
    | none => (w, none)
    | some (a, rest) => (rest, some a)

theorem toList_serve_pop (w : WorkList α) : (w.serve .pop).1.toList = w.toList.tail := by
  cases popped : w.pop? with
  | none => simp only [serve, popped, pop?_eq_none_iff.mp popped, List.tail_nil]
  | some p => simp only [serve, popped, toList_of_pop? popped, List.tail_cons]

theorem handed_serve_pop (w : WorkList α) : (w.serve .pop).2 = w.toList.head? := by
  cases popped : w.pop? with
  | none => simp only [serve, popped, pop?_eq_none_iff.mp popped, List.head?_nil]
  | some p => simp only [serve, popped, toList_of_pop? popped, List.head?_cons]

theorem not_mem_of_handed {w : WorkList α} {a : α} (handed : (w.serve .pop).2 = some a) :
    a ∉ (w.serve .pop).1.toList := by
  have distinct : w.toList.Nodup := w.nodup
  rw [handed_serve_pop] at handed
  obtain ⟨rest, hcons⟩ := List.head?_eq_some_iff.mp handed
  -- it stood at the head, and nothing waits twice
  rw [hcons] at distinct
  rw [toList_serve_pop, hcons]
  exact (List.nodup_cons.mp distinct).1

theorem toList_push_of_not_mem {w : WorkList α} {a : α} (absent : a ∉ w.toList) :
    (w.push a).toList = w.toList ++ [a] := by
  have hwaiting : a ∉ w.waiting := fun h => absent ((w.mem_waiting a).mp h)
  rw [toList_push, if_neg hwaiting]

section Line

variable [DecidableEq α]

theorem join_toList (w : WorkList α) (a : α) : Line.join w.toList a = (w.push a).toList := by
  by_cases h : a ∈ w.toList
  · have hwaiting : a ∈ w.waiting := (w.mem_waiting a).mpr h
    rw [Line.join, if_pos h, toList_push, if_pos hwaiting]
  · rw [Line.join, if_neg h, toList_push_of_not_mem h]

theorem serve_toList (w : WorkList α) (r : Request α) :
    Line.serve w.toList r = ((w.serve r).1.toList, (w.serve r).2) := by
  cases r with
  | push a =>
    rw [Line.serve, join_toList]
    rfl
  | extend l =>
    have hfold : l.foldl Line.join w.toList = (l.foldl push w).toList :=
      List.foldl_hom toList join_toList
    rw [Line.serve, hfold]
    rfl
  | pop => rw [toList_serve_pop, handed_serve_pop, Line.serve]

/-- A work list serves as the line of its entries does. -/
theorem serveAll_toList (w : WorkList α) (requests : List (Request α)) :
    serveAll Line.serve w.toList requests =
      ((serveAll serve w requests).1.toList, (serveAll serve w requests).2) :=
  serveAll_view serve_toList w requests

end Line

theorem mem_serve_of_pushed (w : WorkList α) {r : Request α} {a : α} (h : a ∈ r.pushed) :
    a ∈ (w.serve r).1.toList := by
  cases r with
  | push b => exact mem_push.mpr (Or.inr (List.mem_singleton.mp h))
  | extend l => exact mem_extend.mpr (Or.inr h)
  | pop => cases h

theorem not_mem_serve {w : WorkList α} {r : Request α} {a : α} (absent : a ∉ w.toList)
    (unpushed : a ∉ r.pushed) : a ∉ (w.serve r).1.toList := by
  cases r with
  | push b =>
    intro h
    rcases mem_push.mp h with h | rfl
    · exact absent h
    · exact unpushed (List.mem_singleton.mpr rfl)
  | extend l =>
    intro h
    rcases mem_extend.mp h with h | h
    · exact absent h
    · exact unpushed h
  | pop =>
    rw [toList_serve_pop]
    exact fun h => absent (List.mem_of_mem_tail h)

theorem not_mem_serveAll {w : WorkList α} {requests : List (Request α)} {a : α}
    (absent : a ∉ w.toList) (unpushed : ∀ r ∈ requests, a ∉ r.pushed) :
    a ∉ (serveAll serve w requests).1.toList := by
  induction requests generalizing w with
  | nil => exact absent
  | cons r rest ih =>
    have hfirst : a ∉ (w.serve r).1.toList := not_mem_serve absent (unpushed r List.mem_cons_self)
    exact ih hfirst fun q hq => unpushed q (List.mem_cons_of_mem r hq)

theorem mem_serve_or_handed {w : WorkList α} (r : Request α) {a : α} (h : a ∈ w.toList) :
    a ∈ (w.serve r).1.toList ∨ (w.serve r).2 = some a := by
  cases r with
  | push b => exact Or.inl (mem_push.mpr (Or.inl h))
  | extend l => exact Or.inl (mem_extend.mpr (Or.inl h))
  | pop =>
    obtain ⟨b, rest, hcons⟩ := List.exists_cons_of_ne_nil (List.ne_nil_of_mem h)
    rw [toList_serve_pop, handed_serve_pop, hcons]
    rw [hcons] at h
    rcases List.mem_cons.mp h with rfl | h
    · exact Or.inr rfl
    · exact Or.inl h

theorem mem_serveAll_or_handed {w : WorkList α} (requests : List (Request α)) {a : α}
    (h : a ∈ w.toList) :
    a ∈ (serveAll serve w requests).1.toList ∨ some a ∈ (serveAll serve w requests).2 := by
  induction requests generalizing w with
  | nil => exact Or.inl h
  | cons r rest ih =>
    rcases mem_serve_or_handed r h with hwaits | hhanded
    · rcases ih hwaits with hwaits | hhanded
      · exact Or.inl hwaits
      · exact Or.inr (List.mem_cons_of_mem _ hhanded)
    · exact Or.inr (hhanded ▸ List.mem_cons_self)

theorem size_serve_pop (w : WorkList α) : (w.serve .pop).1.size = w.size - 1 := by
  rw [← length_toList, toList_serve_pop, List.length_tail, length_toList]

theorem size_serveAll_pops (w : WorkList α) (k : Nat) :
    (serveAll serve w (List.replicate k .pop)).1.size = w.size - k := by
  induction k generalizing w with
  | zero => rfl
  | succ k ih =>
    have hfirst := w.size_serve_pop
    have hrest := ih (w.serve .pop).1
    change (serveAll serve (w.serve .pop).1 (List.replicate k .pop)).1.size = _
    omega

/-- What waits is handed out in the end, whatever else is asked first, once there are as many pops
as entries wait then. -/
theorem handed_of_mem {w : WorkList α} {requests : List (Request α)} {a : α} (h : a ∈ w.toList)
    {pops : Nat} (enough : (serveAll serve w requests).1.size ≤ pops) :
    some a ∈ (serveAll serve w (requests ++ List.replicate pops .pop)).2 := by
  have hsize := size_serveAll_pops (serveAll serve w requests).1 pops
  -- the pops leave nothing, so what waited before them has been handed out
  have hnil : (serveAll serve w (requests ++ List.replicate pops .pop)).1.toList = [] := by
    apply List.eq_nil_of_length_eq_zero
    rw [length_toList, serveAll_append, hsize]
    omega
  rcases mem_serveAll_or_handed (requests ++ List.replicate pops .pop) h with hwaits | hhanded
  · rw [hnil] at hwaits
    cases hwaits
  · exact hhanded

/-- Whatever was asked of an empty work list, each request was handed what the line would have
handed it, and the same entries wait as stand in the line, in the same order, none of them twice;
the set of what waits has these entries and no others. An entry that is popped then can be pushed
again, at once or after requests that do not push it, and comes last. What a request pushes is
handed out after it, at the latest by as many pops as entries wait when only pops follow. -/
theorem serves_in_turn [DecidableEq α] (requests : List (Request α)) :
    let served := serveAll serve (empty : WorkList α) requests
    let w := served.1
    let expected := serveAll Line.serve [] requests
    served.2 = expected.2 ∧
    w.toList = expected.1 ∧ w.size = expected.1.length ∧ w.isEmpty = expected.1.isEmpty ∧
    (∀ a, a ∈ w.waiting ↔ a ∈ w.toList) ∧ w.toList.Nodup ∧
    (∀ a later, (w.serve .pop).2 = some a → (∀ r ∈ later, a ∉ r.pushed) →
      let v := (serveAll serve w (.pop :: later)).1
      (v.push a).toList = v.toList ++ [a]) ∧
    (∀ r, ∀ a ∈ r.pushed, ∀ later pops, (serveAll serve w (r :: later)).1.size ≤ pops →
      some a ∈ (serveAll serve (w.serve r).1 (later ++ List.replicate pops .pop)).2) := by
  intro served w expected
  have hexpected : expected = (w.toList, served.2) := serveAll_toList empty requests
  refine ⟨?_, ?_, ?_, ?_, w.mem_waiting, w.nodup, ?_, ?_⟩
  · rw [hexpected]
  · rw [hexpected]
  · rw [hexpected, length_toList]
  · rw [hexpected, isEmpty_toList]
  · intro a later handed unpushed
    apply toList_push_of_not_mem
    change a ∉ (serveAll serve (w.serve .pop).1 later).1.toList
    exact not_mem_serveAll (not_mem_of_handed handed) unpushed
  · intro r a ha later pops enough
    exact handed_of_mem (w.mem_serve_of_pushed ha) enough

/-- Of three arcs pushed, the third waits already. The first is popped, the other is pushed in vain,
and the first can be pushed again; when it is pushed while it waits, it is still handed out. -/
theorem serves_in_turn_repeated :
    let there : Arc (Fin 2) := ⟨0, 1⟩
    let back : Arc (Fin 2) := ⟨1, 0⟩
    let w := (serveAll serve empty [.extend [there, back, there]]).1
    let v := (serveAll serve w [.pop, .push back]).1
    w.toList = [there, back] ∧
    ((w.serve .pop).2 = some there ∧ (∀ r ∈ [.push back], there ∉ Request.pushed r) ∧
      (v.push there).toList = v.toList ++ [there]) ∧
    (there ∈ (Request.push there).pushed ∧ (serveAll serve w [.push there, .pop]).1.size ≤ 1 ∧
      some there ∈ (serveAll serve (w.serve (.push there)).1 [.pop, .pop]).2) := by
  intro there back w v
  obtain ⟨-, hline, -, -, -, -, hagain, hhanded⟩ := serves_in_turn [.extend [there, back, there]]
  have hpop : (w.serve .pop).2 = some there := by decide
  have hunpushed : ∀ r ∈ [.push back], there ∉ Request.pushed r := by decide
  have hpushed : there ∈ (Request.push there).pushed := List.mem_cons_self
  have hsize : (serveAll serve w [.push there, .pop]).1.size ≤ 1 := by decide
  refine ⟨hline, ⟨hpop, hunpushed, ?_⟩, hpushed, hsize, ?_⟩
  · exact hagain there [.push back] hpop hunpushed
  · exact hhanded (.push there) there hpushed [.pop] 1 hsize

end WorkList

end ConstraintNet
