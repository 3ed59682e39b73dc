/-
Logging never interferes. No act of a run looks at the log (`Run.law_deaf`), so which of its events are shown,
and what has been logged before, makes no difference but to what is printed of it: two command lines that differ
in how much of the log they ask for have one outcome (`Program.logging_never_interferes`).
-/
import AlphaCodemod.Program
import AlphaCodemod.Proofs.Scan.Law
import AlphaCodemod.Proofs.Arguments.Verbosity

namespace AlphaCodemod

variable {ρ α β : Type}

/-! ## Runs that do not look at the log -/

/-- The world, with events logged before those that are there. -/
def World.loggedBefore (w : World ρ) (events : List Log.Event) : World ρ := { w with log := events ++ w.log }

namespace Run

/-- The end of a run, with events logged before it. -/
def loggedBefore (events : List Log.Event) :
    EStateM.Result MigrationError (World ρ) α → EStateM.Result MigrationError (World ρ) α
  | .ok a w => .ok a (w.loggedBefore events)
  | .error e w => .error e (w.loggedBefore events)

/-- What has been logged before makes no difference to a run. -/
def Deaf (act : Run ρ α) : Prop :=
  ∀ (w : World ρ) (events : List Log.Event), act.run (w.loggedBefore events) = loggedBefore events (act.run w)

variable {reporter : Reporter Cause ρ} {act : Run ρ α} {f : α → Run ρ β}

theorem deaf_log (event : Log.Event) : Deaf (log event : Run ρ Unit) := by
  intro w events
  simp [loggedBefore, World.loggedBefore]

theorem deaf_writeSource (p : Path) (cs : List Char) : Deaf (writeSource p cs : Run ρ Unit) := by
  intro w events
  have hfiles : (w.loggedBefore events).files = w.files := rfl
  rw [run_writeSource, run_writeSource, hfiles]
  cases (FileSystem.replace p (Utf8.encode cs)).run w.files <;> rfl

theorem deaf_tell (call : ReportCall) : Deaf (tell reporter call) := by
  intro w events
  have hreporter : (w.loggedBefore events).reporter = w.reporter := rfl
  rw [run_tell, run_tell, hreporter]
  cases (reporter call).run w.reporter <;> rfl

theorem Deaf.bind (h : Deaf act) (hf : ∀ a, Deaf (f a)) : Deaf (act >>= f) := by
  intro w events
  rw [EStateM.run_bind, EStateM.run_bind, h w events]
  cases act.run w with
  | ok a w' => exact hf a w' events
  | error e w' => rfl

theorem Deaf.within (h : Deaf act) (activity : Activity) : Deaf (within activity act) := by
  intro w events
  have hact : act.run { w.loggedBefore events with context := w.context.enter activity } =
    loggedBefore events (act.run { w with context := w.context.enter activity }) :=
    h { w with context := w.context.enter activity } events
  have hcontext : (w.loggedBefore events).context = w.context := rfl
  rw [run_within, run_within, hcontext, hact]
  cases act.run { w with context := w.context.enter activity } <;> rfl

theorem law_deaf (reporter : Reporter Cause ρ) : Law reporter fun _ _ act => Deaf act where
  pure := fun _ _ _ => rfl
  throw := fun _ _ _ => rfl
  bind := Deaf.bind
  within := fun activity h => h.within activity
  files := fun _ _ => rfl
  log := deaf_log
  note := fun _ _ _ _ => rfl
  writeSource := fun cs _ => deaf_writeSource _ cs
  tell := fun _ => deaf_tell _

end Run

/-! ## The program -/

namespace Program

/-- The migration that arguments ask for. -/
def migration (fs : FileSystem) (a : Arguments) : Run Sink Summary :=
  (Migration.ofArguments a (.absolute fs.cwd)).run (console a.dryRun)

/-- The events that a migration logs. -/
def logOf (fs : FileSystem) (a : Arguments) : List Log.Event :=
  ((migration fs a).world { files := fs, reporter := {} }).log

variable {fs : FileSystem} {a a' : Arguments} {args : List String}

theorem run_of_parse (env : Environment) (h : Arguments.parse env.config args = .ok a) :
    run env fs args = runWith env fs a := by
  rw [run, h]

/-- The verbosity has no part in a migration. -/
theorem migration_of_quieted (h : a'.quieted = a.quieted) (fs : FileSystem) : migration fs a' = migration fs a := by
  have hquieted : ∀ b : Arguments, migration fs b.quieted = migration fs b := fun _ => rfl
  rw [← hquieted a', h, hquieted]

theorem runWith_of_ok {s : Summary} {w : World Sink}
    (h : (migration fs a).run { files := fs, reporter := {} } = .ok s w) (env : Environment) :
    runWith env fs a =
      ⟨0, w.reporter.held, lines (logLines (Log.Filter.choose env.log a.verbosity) w.log), w.files⟩ := by
  simp only [EStateM.run, migration] at h
  simp only [runWith, h]

theorem runWith_of_error {e : MigrationError} {w : World Sink}
    (h : (migration fs a).run { files := fs, reporter := {} } = .error e w) (env : Environment) :
    runWith env fs a =
      ⟨1, w.reporter.held, lines (logLines (Log.Filter.choose env.log a.verbosity) w.log ++ errorLines e), w.files⟩ := by
  simp only [EStateM.run, migration] at h
  simp only [runWith, h]

/-- All of an outcome comes from the migration, but for which of its log is shown. -/
theorem exists_runWith (fs : FileSystem) (a : Arguments) :
    ∃ exit output rest files, ∀ env a', a'.quieted = a.quieted →
      runWith env fs a' =
        ⟨exit, output, lines (logLines (Log.Filter.choose env.log a'.verbosity) (logOf fs a) ++ rest), files⟩ := by
  unfold logOf
  cases hend : (migration fs a).run { files := fs, reporter := {} } with
  | ok s w =>
    refine ⟨0, w.reporter.held, [], w.files, fun env a' h => ?_⟩
    rw [← migration_of_quieted h] at hend
    rw [runWith_of_ok hend, ← migration_of_quieted h, Run.world_of_run_ok hend, List.append_nil]
  | error e w =>
    refine ⟨1, w.reporter.held, errorLines e, w.files, fun env a' h => ?_⟩
    rw [← migration_of_quieted h] at hend
    rw [runWith_of_error hend, ← migration_of_quieted h, Run.world_of_run_error hend]

/-- Two command lines that differ only in how often they ask for more of the log, under any two filters for it, print
the same, end with the same exit code and leave the same files. The errors differ only in which events of the one
log are shown, and what has been logged makes no difference to a migration. -/
theorem logging_never_interferes (config log log' : Option String) (fs : FileSystem) {args args' : List String}
    {a a' : Arguments} (h : Arguments.parse config args = .ok a) (h' : Arguments.parse config args' = .ok a')
    (hquiet : Arguments.withoutVerbose args = Arguments.withoutVerbose args') :
    let out := run ⟨config, log⟩ fs args
    let out' := run ⟨config, log'⟩ fs args'
    out.output = out'.output ∧ out.exit = out'.exit ∧ out.files = out'.files ∧
    (∃ rest, out.errors = lines (logLines (Log.Filter.choose log a.verbosity) (logOf fs a) ++ rest) ∧
      out'.errors = lines (logLines (Log.Filter.choose log' a'.verbosity) (logOf fs a) ++ rest)) ∧
    ∀ w events, (migration fs a).run (World.loggedBefore w events) = Run.loggedBefore events ((migration fs a).run w) := by
  have hsame : a'.quieted = a.quieted := by
    have hparse := Arguments.parse_withoutVerbose h
    rw [hquiet, Arguments.parse_withoutVerbose h'] at hparse
    exact Except.ok.inj hparse
  obtain ⟨exit, output, rest, files, hrun⟩ := exists_runWith fs a
  intro out out'
  have hout : out = _ := (run_of_parse ⟨config, log⟩ h).trans (hrun _ a rfl)
  have hout' : out' = _ := (run_of_parse ⟨config, log'⟩ h').trans (hrun _ a' hsame)
  rw [hout, hout']
  exact ⟨rfl, rfl, rfl, ⟨rest, rfl, rfl⟩, (Run.law_deaf (console a.dryRun)).migration _⟩

/-- The filters and the ways to ask for more of the log may be as different as they like. -/
theorem logging_of_a_linked_source :
    Arguments.parse none ["-v", "/p"] = .ok { path := some "/p", verbosity := 1 } ∧
    Arguments.parse none ["/p", "--verbose", "-vv"] = .ok { path := some "/p", verbosity := 3 } ∧
    Arguments.withoutVerbose ["-v", "/p"] = Arguments.withoutVerbose ["/p", "--verbose", "-vv"] ∧
    let out := run ⟨none, some "off"⟩ ScanOptions.linkedSource ["-v", "/p"]
    let out' := run ⟨none, none⟩ ScanOptions.linkedSource ["/p", "--verbose", "-vv"]
    out.output = out'.output ∧ out.exit = out'.exit ∧ out.files = out'.files := by
  have h : Arguments.parse none ["-v", "/p"] = .ok { path := some "/p", verbosity := 1 } := by decide
  have h' : Arguments.parse none ["/p", "--verbose", "-vv"] = .ok { path := some "/p", verbosity := 3 } := by decide
  have hquiet : Arguments.withoutVerbose ["-v", "/p"] = Arguments.withoutVerbose ["/p", "--verbose", "-vv"] := by decide
  obtain ⟨houtput, hexit, hfiles, -⟩ :=
    logging_never_interferes none (some "off") none ScanOptions.linkedSource h h' hquiet
  exact ⟨h, h', hquiet, houtput, hexit, hfiles⟩

end Program
end AlphaCodemod
