/-
What is told, and what becomes of the reporter. A scan does nothing to the reporter's state but by the calls
that are among its actions (`ScanOptions.relays_scan`). If it ends well, these are the changes of its visits,
in order, and then their summary (`ScanOptions.reported_of_scan`). The console gives the lines of the calls to its
sink (`Sink.after_console`), which holds them all if it has no limit (`Program.held_after_console`).
-/
import AlphaCodemod.Proofs.Report.Sink
import AlphaCodemod.Proofs.Scan.Law

namespace AlphaCodemod

variable {ρ α β : Type}

/-! ## After calls -/

namespace Reporter

variable {φ : Type}

/-- The state of a reporter after a call, whether it fails at it or not. -/
def next (reporter : Reporter φ ρ) (r : ρ) (call : ReportCall) : ρ :=
  match (reporter call).run r with
  | .ok _ r' => r'
  | .error _ r' => r'

/-- The state of a reporter after calls. -/
def after (reporter : Reporter φ ρ) (r : ρ) (told : List ReportCall) : ρ := told.foldl reporter.next r

theorem next_withFaults {ψ : Type} (reporter : Reporter φ ρ) (f : φ → ψ) (r : ρ) (call : ReportCall) :
    (reporter.withFaults f).next r call = reporter.next r call := by
  have hrun : (reporter.withFaults f call).run r = (reporter call).adaptExcept f r := rfl
  rw [next, next, hrun, EStateM.adaptExcept, EStateM.run]
  cases reporter call r <;> rfl

theorem after_withFaults {ψ : Type} (reporter : Reporter φ ρ) (f : φ → ψ) (r : ρ) (told : List ReportCall) :
    (reporter.withFaults f).after r told = reporter.after r told := by
  rw [after, after, funext₂ (next_withFaults reporter f)]

end Reporter

namespace Run

variable {reporter : Reporter Cause ρ} {act : Run ρ α} {f : α → Run ρ β}

/-- A run does nothing to the reporter but by the calls among its actions. -/
def Relays (reporter : Reporter Cause ρ) (act : Run ρ α) : Prop :=
  ∀ w, ∃ done, (act.world w).actions = w.actions ++ done ∧
    (act.world w).reporter = reporter.after w.reporter (calls done)

theorem relays_of_keeps (h : ∀ w, ∃ done, (act.world w).actions = w.actions ++ done ∧ calls done = [] ∧
    (act.world w).reporter = w.reporter) : Relays reporter act := by
  intro w
  obtain ⟨done, hactions, hcalls, hreporter⟩ := h w
  refine ⟨done, hactions, ?_⟩
  rw [hcalls, hreporter]
  rfl

theorem relays_pure (a : α) : Relays reporter (pure a : Run ρ α) :=
  relays_of_keeps fun _ => ⟨[], (List.append_nil _).symm, rfl, rfl⟩

theorem relays_throw (e : MigrationError) : Relays reporter (throw e : Run ρ α) :=
  relays_of_keeps fun _ => ⟨[], (List.append_nil _).symm, rfl, rfl⟩

theorem relays_files : Relays reporter (files : Run ρ FileSystem) :=
  relays_of_keeps fun _ => ⟨[], (List.append_nil _).symm, rfl, rfl⟩

theorem relays_note {a : Action} (ha : a.call? = none) : Relays reporter (note a) := by
  refine relays_of_keeps fun w => ⟨[(w.context, a)], rfl, ?_, rfl⟩
  simp [calls, ha]

theorem relays_log (event : Log.Event) : Relays reporter (log event) :=
  relays_of_keeps fun _ => ⟨[], (List.append_nil _).symm, rfl, rfl⟩

theorem relays_writeSource (p : Path) (cs : List Char) : Relays reporter (writeSource p cs) := by
  refine relays_of_keeps fun w => ?_
  rw [world, run_writeSource]
  cases (FileSystem.replace p (Utf8.encode cs)).run w.files <;> exact ⟨[(w.context, .write p)], rfl, rfl, rfl⟩

theorem relays_tell (call : ReportCall) : Relays reporter (tell reporter call) := by
  intro w
  have hnext : reporter.after w.reporter (calls [(w.context, .report call)]) = reporter.next w.reporter call := rfl
  refine ⟨[(w.context, .report call)], ?_⟩
  rw [hnext, world, run_tell, Reporter.next]
  cases (reporter call).run w.reporter <;> exact ⟨rfl, rfl⟩

theorem Relays.bind (h : Relays reporter act) (hf : ∀ a, Relays reporter (f a)) : Relays reporter (act >>= f) := by
  intro w
  obtain ⟨done, hactions, hreporter⟩ := h w
  rcases world_bind act f w with ⟨a, -, hworld, -⟩ | ⟨e, -, hworld, -⟩
  · -- what follows starts from where the first has left the reporter
    obtain ⟨more, hactions', hreporter'⟩ := hf a (act.world w)
    rw [hworld]
    refine ⟨done ++ more, ?_, ?_⟩
    · rw [hactions', hactions, List.append_assoc]
    · rw [hreporter', hreporter, calls_append]
      exact (List.foldl_append ..).symm
  · rw [hworld]
    exact ⟨done, hactions, hreporter⟩

theorem Relays.within (h : Relays reporter act) (activity : Activity) : Relays reporter (within activity act) := by
  intro w
  obtain ⟨done, hactions, hreporter⟩ := h { w with context := w.context.enter activity }
  rw [world_within]
  exact ⟨done, hactions, hreporter⟩

theorem law_relays : Law reporter fun _ _ act => Relays reporter act where
  pure := relays_pure
  throw := fun _ => relays_throw _
  bind := Relays.bind
  within := fun activity h => h.within activity
  files := relays_files
  log := relays_log
  note := fun ha _ => relays_note ha
  writeSource := fun cs _ => relays_writeSource _ cs
  tell := fun _ => relays_tell _

end Run

/-- A scan does nothing to the reporter but by its calls. -/
theorem ScanOptions.relays_scan (o : ScanOptions) (reporter : Reporter Cause ρ) :
    Run.Relays reporter (o.scan reporter) := Run.law_relays.scan o

/-! ## Changes that are told -/

/-- The paths with changes to be made, and how many. -/
def FileSystem.pending (fs : FileSystem) (ps : List Path) : List FileChange :=
  (ps.map fun p => ⟨p, fs.changes p⟩).filter fun c => c.changes ≠ 0

theorem FileSystem.pending_cons (fs : FileSystem) (p : Path) (ps : List Path) :
    fs.pending (p :: ps) = fs.pending [p] ++ fs.pending ps := by
  rw [pending, ← List.singleton_append, List.map_append, List.filter_append]
  rfl

/-- The summary of a number of files, of which some have changed. -/
def Summary.ofChanges (scanned : Nat) (told : List FileChange) : Summary :=
  ⟨scanned, told.length, (told.map (·.changes)).sum⟩

/-- A run that ends well has told of changes, then of their summary, and of nothing else. -/
structure Reported (reporter : Reporter Cause ρ) (w : World ρ) (scanned : Nat) (told : List FileChange) (s : Summary)
    (w' : World ρ) : Prop where
  summary : s = .ofChanges scanned told
  actions : ∃ done, w'.actions = w.actions ++ done ∧ calls done = told.map .fileChanged ++ [.finished s]
  reporter : w'.reporter = reporter.after w.reporter (told.map .fileChanged ++ [.finished s])

namespace ScanOptions

variable (o : ScanOptions) (fs : FileSystem) (ps : List Path)

/-- The changes of visits. Each finds the files as the visits before have left them. -/
def changesOf (o : ScanOptions) (fs : FileSystem) : List Path → List FileChange
  | [] => []
  | p :: ps => fs.pending [p] ++ o.changesOf (fs.settled o.dryRun [p]) ps

theorem calls_accesses (dryRun : Bool) (c : Context) (p : Path) (n : Nat) : calls (accesses dryRun c p n) = [] := by
  unfold accesses
  split <;> rfl

theorem calls_deeds (c : Context) (p : Path) :
    calls (o.deeds c p (fs.changes p)) = (fs.pending [p]).map .fileChanged := by
  rw [deeds, calls_append, calls_accesses, FileSystem.pending]
  by_cases h : fs.changes p = 0
  · simp [h, calls]
  · simp [h]

theorem calls_deedsOf (c : Context) : calls (o.deedsOf c fs ps) = (o.changesOf fs ps).map .fileChanged := by
  induction ps generalizing fs with
  | nil => rfl
  | cons p ps ih => rw [deedsOf, calls_append, calls_deeds, ih, changesOf, List.map_append]

theorem tally_eq (s : Summary) :
    o.tally s fs ps = ⟨s.filesScanned + ps.length, s.filesChanged + (o.changesOf fs ps).length,
      s.replacements + ((o.changesOf fs ps).map (·.changes)).sum⟩ := by
  induction ps generalizing s fs with
  | nil => rfl
  | cons p ps ih =>
    rw [tally, ih, changesOf]
    by_cases h : fs.changes p = 0 <;> simp [Summary.record, FileSystem.pending, h, Nat.add_assoc, Nat.add_comm 1]

variable {o}

theorem reported_of_scan {reporter : Reporter Cause ρ} {w w' : World ρ} {s : Summary}
    (h : (o.scan reporter).run w = .ok s w') :
    ∃ ps, o.candidates w.files = .ok ps ∧ (∀ p ∈ ps, ∃ cs, w.files.source p = .ok cs) ∧
      Reported reporter w ps.length (o.changesOf w.files ps) s w' := by
  have hexit := exit_scan o reporter w
  obtain ⟨done, hactions, hreporter⟩ := relays_scan o reporter w
  rw [Run.world, h] at hactions hreporter
  rw [h] at hexit
  cases hexit with
  | @complete ps r _ _ hfound hread hafter =>
    obtain rfl := List.append_cancel_left (hactions.symm.trans hafter.actions)
    rw [calls_deedsUpTo, calls_deedsOf, calls_report] at hreporter
    refine ⟨ps, hfound, hread, ?_, ⟨_, hactions, ?_⟩, hreporter⟩
    · rw [tally_eq]
      simp [Summary.ofChanges]
    · rw [calls_deedsUpTo, calls_deedsOf, calls_report]

end ScanOptions

/-! ## The console -/

namespace Sink

variable (k : Sink) (all : Bytes) (dryRun : Bool)

theorem next_console (call : ReportCall) :
    (consoleReporter dryRun).next (k.given all) call = k.given (all ++ Program.lines (call.lines dryRun)) := by
  rw [Reporter.next, run_console]
  cases k.exceeded (all ++ Program.lines (call.lines dryRun)) with
  | true => rfl
  | false => cases hlast : call.isLast && k.flushFails <;> rfl

/-- The console gives its sink the lines of all calls, whether it has failed at some of them or not. -/
theorem after_console (told : List ReportCall) :
    (consoleReporter dryRun).after (k.given all) told =
      k.given (all ++ Program.lines (told.flatMap (ReportCall.lines dryRun))) := by
  induction told generalizing all with
  | nil => simp [Reporter.after, Program.lines, Utf8.encode]
  | cons call told ih =>
    show (consoleReporter dryRun).after ((consoleReporter dryRun).next (k.given all) call) told = _
    rw [next_console, ih, List.flatMap_cons, Program.lines_append, List.append_assoc]

theorem given_held {k : Sink} (h : k.limit = none) : k.given k.held = k := by
  cases k
  cases h
  rfl

end Sink

namespace Program

theorem lines_of_calls (dryRun : Bool) (told : List FileChange) (s : Summary) :
    (told.map ReportCall.fileChanged ++ [ReportCall.finished s]).flatMap (ReportCall.lines dryRun) =
      told.map (FileChange.line dryRun) ++ ReportCall.lines dryRun (.finished s) := by
  rw [List.flatMap_append, List.flatMap_singleton, List.flatMap_map, List.map_eq_flatMap]
  rfl

theorem line_dry : FileChange.line true = fun c => "[DRY RUN] " ++ c.line false := by
  funext c
  simp only [FileChange.line, if_true, Bool.false_eq_true, if_false, String.empty_append, String.append_assoc]

/-- On a sink without a limit the console prints the lines of all calls, whether it can be flushed then or not. -/
theorem held_after_console {k : Sink} (h : k.limit = none) (dryRun : Bool) (told : List ReportCall) :
    ((console dryRun).after k told).held = k.held ++ lines (told.flatMap (ReportCall.lines dryRun)) := by
  have hafter := k.after_console k.held dryRun told
  rw [Sink.given_held h] at hafter
  rw [console, Reporter.after_withFaults, hafter]
  simp [Sink.given, Sink.kept, h]

end Program
end AlphaCodemod
