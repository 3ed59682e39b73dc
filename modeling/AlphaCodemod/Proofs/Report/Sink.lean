/-
What a sink holds. Whether it has a limit or not, it holds what it has room for of all that it has been given
(`Sink.given`), although a write may be cut anywhere and the first one that is cut ends a call. So a call of the
console comes to one write of all its lines, and to a flush if it is the last one (`Sink.run_console`).
-/
import AlphaCodemod.Program

namespace AlphaCodemod

theorem Program.lines_append (ts us : List String) : lines (ts ++ us) = lines ts ++ lines us := by
  simp [lines, Utf8.encode]

/-- Whether a call is the one at the end. -/
def ReportCall.isLast : ReportCall → Bool
  | .fileChanged _ => false
  | .finished _ => true

namespace Sink

variable {k : Sink} {all bs : Bytes}

/-! ## What fits -/

/-- What a sink has room for of all that it is given. -/
def kept (k : Sink) (all : Bytes) : Bytes :=
  match k.limit with
  | none => all
  | some n => all.take n

/-- Whether that is less than all. -/
def exceeded (k : Sink) (all : Bytes) : Bool :=
  match k.limit with
  | none => false
  | some n => decide (n < all.length)

/-- The sink when it has been given all this, and nothing else. -/
def given (k : Sink) (all : Bytes) : Sink := { k with held := k.kept all }

theorem kept_append_kept (k : Sink) (all bs : Bytes) : k.kept (k.kept all ++ bs) = k.kept (all ++ bs) := by
  unfold kept
  cases k.limit with
  | none => rfl
  | some n =>
    rcases Nat.le_total all.length n with h | h
    · simp [List.take_of_length_le h]
    · simp [List.take_append_of_le_length, h]

/-- Where there is no room for all, more is not held. -/
theorem given_append_of_exceeded (h : k.exceeded all = true) (bs : Bytes) : k.given (all ++ bs) = k.given all := by
  unfold exceeded at h
  unfold given kept
  cases hlimit : k.limit with
  | none => simp [hlimit] at h
  | some n =>
    simp only [hlimit, decide_eq_true_eq] at h
    simp [List.take_append_of_le_length (Nat.le_of_lt h)]

theorem exceeded_append (h : k.exceeded all = true) (bs : Bytes) : k.exceeded (all ++ bs) = true := by
  unfold exceeded at h ⊢
  cases hlimit : k.limit with
  | none => simp [hlimit] at h
  | some n =>
    simp only [hlimit, decide_eq_true_eq, List.length_append] at h ⊢
    omega

/-! ## Writes -/

theorem push_given (k : Sink) (all bs : Bytes) : (k.given all).push bs = k.given (all ++ bs) := by
  have hpush : (k.given all).push bs = k.given (k.kept all ++ bs) := by
    unfold push given kept
    cases k.limit <;> rfl
  rw [hpush, given, given, kept_append_kept]

/-- A write that brings anything goes beyond the limit exactly if all that is given then does, also if the sink has
been full before. -/
theorem overflows_given (hbs : bs ≠ []) : (k.given all).overflows bs = k.exceeded (all ++ bs) := by
  have hpos := List.length_pos_iff.2 hbs
  unfold overflows exceeded given kept
  cases k.limit with
  | none => rfl
  | some n =>
    simp only [List.length_append, List.length_take, decide_eq_decide]
    omega

theorem run_write (hbs : bs ≠ []) :
    (write bs).run (k.given all) =
      if k.exceeded (all ++ bs) then .error .full (k.given (all ++ bs)) else .ok () (k.given (all ++ bs)) := by
  simp only [write, EStateM.run_bind, EStateM.run_get, EStateM.run_set, overflows_given hbs, push_given]
  cases k.exceeded (all ++ bs) <;> rfl

theorem writeLine_eq (t : String) : writeLine t = write (Program.lines [t]) := by
  simp [writeLine, Program.lines]

theorem lines_ne_nil (t : String) (ts : List String) : Program.lines (t :: ts) ≠ [] := by
  have hbreak : Utf8.encodeChar '\n' ≠ [] := by decide
  simp [Program.lines, Utf8.encode, hbreak]

theorem run_writeLines_cons (t : String) (ts : List String) :
    ((t :: ts).forM writeLine).run (k.given all) =
      if k.exceeded (all ++ Program.lines [t]) then .error .full (k.given (all ++ Program.lines [t]))
      else (ts.forM writeLine).run (k.given (all ++ Program.lines [t])) := by
  rw [List.forM_eq_forM, List.forM_cons, EStateM.run_bind, writeLine_eq, run_write (lines_ne_nil t [])]
  cases k.exceeded (all ++ Program.lines [t]) <;> rfl

/-- Lines one after the other come to one write of all of them: the first that does not fit is cut where all of them
would be, and ends the rest. -/
theorem run_writeLines (t : String) (ts : List String) :
    ((t :: ts).forM writeLine).run (k.given all) = (write (Program.lines (t :: ts))).run (k.given all) := by
  induction ts generalizing t all with
  | nil =>
    rw [run_writeLines_cons, run_write (lines_ne_nil t [])]
    rfl
  | cons u us ih =>
    have hlines : Program.lines (t :: u :: us) = Program.lines [t] ++ Program.lines (u :: us) :=
      Program.lines_append [t] _
    rw [run_writeLines_cons, ih, run_write (lines_ne_nil u us), run_write (lines_ne_nil t _), hlines,
      ← List.append_assoc]
    cases hfits : k.exceeded (all ++ Program.lines [t]) with
    | true => simp only [exceeded_append hfits, given_append_of_exceeded hfits, if_true]
    | false => simp only [Bool.false_eq_true, if_false]

/-! ## Calls of the console -/

/-- A call of the console gives the sink all its lines. It fails if there is no room for them, and, if it is the last
one, if flushing fails. -/
theorem run_console (k : Sink) (all : Bytes) (dryRun : Bool) (call : ReportCall) :
    (consoleReporter dryRun call).run (k.given all) =
      let after := k.given (all ++ Program.lines (call.lines dryRun))
      if k.exceeded (all ++ Program.lines (call.lines dryRun)) then .error .full after
      else if call.isLast && k.flushFails then .error .flushFailed after
      else .ok () after := by
  have hlines : ((call.lines dryRun).forM writeLine).run (k.given all) =
      (write (Program.lines (call.lines dryRun))).run (k.given all) ∧ Program.lines (call.lines dryRun) ≠ [] := by
    cases call with
    | fileChanged c => exact ⟨run_writeLines _ _, lines_ne_nil _ _⟩
    | finished s => exact ⟨run_writeLines _ _, lines_ne_nil _ _⟩
  unfold consoleReporter
  rw [EStateM.run_bind, hlines.1, run_write hlines.2]
  cases k.exceeded (all ++ Program.lines (call.lines dryRun)) with
  | true => rfl
  | false =>
    cases call with
    | fileChanged c => rfl
    | finished s =>
      -- flushing asks the sink and changes nothing of it
      simp only [flush, EStateM.run_bind, EStateM.run_get]
      show _ = if k.flushFails then _ else _
      cases hflush : k.flushFails <;> simp [given, hflush]

end Sink
end AlphaCodemod
