/-
Guards that are dropped in the order of a stack. A guard brings back all of the context that it found, not only what
it has changed itself. If none is ever dropped before one that was made after it, this does no harm: phase and file are
at every moment those of the latest guards that are still there, and without guards the context is what it was at the
start (`Guarded.guards_nest`).
-/
import AlphaCodemod.Activity

namespace AlphaCodemod

def Activity.phase? : Activity → Option Phase
  | .phase p => some p
  | .file _ => none

def Activity.file? : Activity → Option Path
  | .phase _ => none
  | .file p => some p

namespace Guarded

/-! ## Steps -/

/-- The number of the latest guard that has not been dropped. -/
def latest? (g : Guarded) : Option Nat := (g.saved.zipIdx.filter (·.1.isSome)).getLast?.map (·.2)

/-- What is done with guards in the order of a stack. -/
inductive Step where
  | enter (a : Activity)
  /-- Drops the latest guard that has not been dropped. -/
  | dropLatest
deriving DecidableEq, Repr

def step (g : Guarded) : Step → Guarded
  | .enter a => g.enter a
  | .dropLatest =>
    match g.latest? with
    | some i => g.drop i
    | none => g

/-- The activities of the guards that are there, the latest first, before and after a step. -/
def Step.onStack (stack : List Activity) : Step → List Activity
  | .enter a => a :: stack
  | .dropLatest => stack.tail

/-! ## What guards remember -/

/-- Guards as steps leave them, with the activities of those that are there and the context of the moment: a guard
that is there remembers the context that those before it make. -/
inductive Stacked (start : Context) : List Activity → List (Option Context) → Context → Prop where
  | nil : Stacked start [] [] start
  | live {stack : List Activity} {saved : List (Option Context)} {c : Context} (a : Activity) :
      Stacked start stack saved c → Stacked start (a :: stack) (saved ++ [some c]) (c.enter a)
  | dropped {stack : List Activity} {saved : List (Option Context)} {c : Context} :
      Stacked start stack saved c → Stacked start stack (saved ++ [none]) c

variable {start c : Context} {stack : List Activity} {saved : List (Option Context)} {g : Guarded} {i : Nat}

theorem latest?_live (c c' : Context) (saved : List (Option Context)) :
    latest? ⟨c', saved ++ [some c]⟩ = some saved.length := by
  simp [latest?, List.zipIdx_append]

theorem latest?_dropped (c c' : Context) (saved : List (Option Context)) :
    latest? ⟨c', saved ++ [none]⟩ = latest? ⟨c, saved⟩ := by
  simp [latest?, List.zipIdx_append]

theorem lt_of_latest? (h : g.latest? = some i) : i < g.saved.length := by
  obtain ⟨⟨s, j⟩, hlast, rfl⟩ := Option.map_eq_some_iff.1 h
  have hmem := (List.mem_filter.1 (List.mem_of_getLast? hlast)).1
  have := List.snd_lt_of_mem_zipIdx hmem
  simpa using this

theorem drop_last (c c' : Context) (saved : List (Option Context)) :
    drop ⟨c', saved ++ [some c]⟩ saved.length = ⟨c, saved ++ [none]⟩ := by
  simp [drop]

/-- A guard at the end that has been dropped makes no difference to dropping another one. -/
theorem drop_dropped (hi : i < saved.length) :
    drop ⟨c, saved ++ [none]⟩ i = ⟨(drop ⟨c, saved⟩ i).current, (drop ⟨c, saved⟩ i).saved ++ [none]⟩ := by
  simp only [drop, List.getElem?_append_left hi]
  split <;> simp [List.set_append_left, hi]

theorem length_saved_drop (g : Guarded) (i : Nat) : (g.drop i).saved.length = g.saved.length := by
  unfold drop
  split <;> simp

namespace Stacked

theorem drop (h : Stacked start stack saved c) (hi : latest? ⟨c, saved⟩ = some i) :
    Stacked start stack.tail (Guarded.drop ⟨c, saved⟩ i).saved (Guarded.drop ⟨c, saved⟩ i).current := by
  induction h with
  | nil => cases hi
  | live a h _ =>
    rw [latest?_live] at hi
    obtain rfl := Option.some.inj hi
    rw [drop_last]
    exact .dropped h
  | dropped _ ih =>
    rw [latest?_dropped] at hi
    rw [drop_dropped (lt_of_latest? hi)]
    exact .dropped (ih hi)

theorem eq_nil (h : Stacked start stack saved c) (hnone : latest? ⟨c, saved⟩ = none) : stack = [] := by
  induction h with
  | nil => rfl
  | live a _ _ =>
    rw [latest?_live] at hnone
    cases hnone
  | dropped _ ih =>
    rw [latest?_dropped] at hnone
    exact ih hnone

/-- A step keeps to the order of the stack. -/
theorem step (h : Stacked start stack g.saved g.current) (s : Step) :
    Stacked start (s.onStack stack) (g.step s).saved (g.step s).current := by
  cases s with
  | enter a => exact h.live a
  | dropLatest =>
    show Stacked start stack.tail _ _
    rw [Guarded.step]
    split
    · rename_i i hi
      exact h.drop hi
    · rename_i hnone
      obtain rfl := h.eq_nil hnone
      exact h

/-- Any number of steps. -/
theorem steps (h : Stacked start stack g.saved g.current) (steps : List Step) :
    Stacked start (steps.foldl Step.onStack stack) (steps.foldl Guarded.step g).saved
      (steps.foldl Guarded.step g).current := by
  induction steps generalizing stack g with
  | nil => exact h
  | cons s steps ih => exact ih (h.step s)

theorem countP_saved (h : Stacked start stack saved c) : saved.countP (·.isSome) = stack.length := by
  induction h with
  | nil => rfl
  | live a _ ih => simp [ih]
  | dropped _ ih => simp [ih]

/-- What an activity may set is as the latest guard that sets it has left it, and without one as at the start. -/
theorem field {α : Type} {read : Context → Option α} {sets : Activity → Option α}
    (henter : ∀ c a, read (c.enter a) = (sets a).or (read c)) (h : Stacked start stack saved c) :
    read c = (stack.findSome? sets).or (read start) := by
  induction h with
  | nil => rfl
  | live a _ ih =>
    rw [henter, ih]
    cases hsets : sets a <;> simp [hsets]
  | dropped _ ih => exact ih

theorem eq_start (h : Stacked start stack saved c) (hnone : ∀ s ∈ saved, s = none) : c = start := by
  induction h with
  | nil => rfl
  | live a _ _ => cases hnone (some _) (List.mem_append_right _ (List.mem_singleton.2 rfl))
  | dropped _ ih => exact ih fun s hs => hnone s (List.mem_append_left _ hs)

end Stacked

/-! ## All guards -/

theorem foldl_drop_dropped (numbers : List Nat) (hn : ∀ i ∈ numbers, i < g.saved.length) :
    (numbers.foldl drop ⟨g.current, g.saved ++ [none]⟩).current = (numbers.foldl drop g).current := by
  induction numbers generalizing g with
  | nil => rfl
  | cons i numbers ih =>
    obtain ⟨hi, hn⟩ := List.forall_mem_cons.1 hn
    rw [List.foldl_cons, List.foldl_cons, drop_dropped hi]
    exact ih fun j hj => by rw [length_saved_drop]; exact hn j hj

/-- Dropping all guards starts with the last of them, and goes on as if that one had never been made. -/
theorem current_dropAll_concat {c' : Context} {s : Option Context}
    (hlast : drop ⟨c', saved ++ [s]⟩ saved.length = ⟨c, saved ++ [none]⟩) :
    (dropAll ⟨c', saved ++ [s]⟩).current = (dropAll ⟨c, saved⟩).current := by
  have hnumbers : (List.range (saved ++ [s]).length).reverse = saved.length :: (List.range saved.length).reverse := by
    simp [List.range_succ]
  rw [dropAll, hnumbers, List.foldl_cons, hlast]
  exact foldl_drop_dropped (g := ⟨c, saved⟩) _ (by simp)

theorem Stacked.dropAll (h : Stacked start stack saved c) : (Guarded.dropAll ⟨c, saved⟩).current = start := by
  induction h with
  | nil => rfl
  | live a _ ih => exact (current_dropAll_concat (drop_last _ _ _)).trans ih
  | dropped _ ih => exact (current_dropAll_concat (by simp [Guarded.drop])).trans ih

/-- After any steps in the order of a stack, from any context, as many guards are there as on the stack. The phase is
that of the latest of them that has set one, and so is the file; where none has, it is the one of the start. When all
guards have been dropped, or are dropped then from the latest on, the context is the one of the start. -/
theorem guards_nest (start : Context) (steps : List Step) :
    let g := steps.foldl step { current := start }
    let stack := steps.foldl Step.onStack []
    g.saved.countP (·.isSome) = stack.length ∧
    g.current.phase = (stack.findSome? Activity.phase?).or start.phase ∧
    g.current.file = (stack.findSome? Activity.file?).or start.file ∧
    ((∀ s ∈ g.saved, s = none) → g.current = start) ∧
    g.dropAll.current = start := by
  intro g stack
  have h : Stacked start stack g.saved g.current := Stacked.steps (g := { current := start }) .nil steps
  refine ⟨h.countP_saved, h.field ?_, h.field ?_, h.eq_start, h.dropAll⟩
  · rintro c (p | p) <;> rfl
  · rintro c (p | p) <;> rfl

/-- Out of the order of a stack, a phase may come back whose guard has been dropped. -/
example :
    ((((({} : Guarded).enter (.phase .editing)).enter (.file ⟨[]⟩)).drop 0).drop 1).current =
      ⟨some .editing, none⟩ := by
  decide

end Guarded
end AlphaCodemod
