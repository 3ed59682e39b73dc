/-
The program as a whole: from a command line, an environment and a file system to what is printed,
the exit code and the file system afterwards.
-/
import AlphaCodemod.Arguments.Reader
import AlphaCodemod.Arguments.Help
import AlphaCodemod.Log.Filter
import AlphaCodemod.Migration

namespace AlphaCodemod

/-- The variables that the program looks at. -/
structure Environment where
  config : Option String := none
  log : Option String := none
deriving DecidableEq, Repr

/-- How a run of the program ends. -/
structure Outcome where
  exit : Nat
  output : Bytes
  errors : Bytes
  files : FileSystem
deriving DecidableEq, Repr

namespace Program

def lines (texts : List String) : Bytes :=
  Utf8.encode (texts.flatMap fun t => t.toList ++ ['\n'])

/-- The lines of the log that a filter shows. -/
def logLines (f : Log.Filter) (log : List Log.Event) : List String :=
  (log.filter f.shows).map Log.Event.line

/-- The lines of an error, its cause set apart. -/
def errorLines (e : MigrationError) : List String :=
  ("Error: " ++ e.message) ::
    match e.cause? with
    | some c => ["", "Caused by:", "    " ++ c.message]
    | none => []

/-- The console, which never runs full. -/
def console (dryRun : Bool) : Reporter Cause Sink := (consoleReporter dryRun).withFaults .sink

/-- A run for arguments that have been read. -/
def runWith (env : Environment) (fs : FileSystem) (a : Arguments) : Outcome :=
  let m := Migration.ofArguments a (.absolute fs.cwd)
  let f := Log.Filter.choose env.log a.verbosity
  match m.run (console a.dryRun) { files := fs, reporter := {} } with
  | .ok _ w => ⟨0, w.reporter.held, lines (logLines f w.log), w.files⟩
  | .error e w => ⟨1, w.reporter.held, lines (logLines f w.log ++ errorLines e), w.files⟩

/-- Runs the program. -/
def run (env : Environment) (fs : FileSystem) (args : List String) : Outcome :=
  match Arguments.parse env.config args with
  | .ok a => runWith env fs a
  | .error (.refused why) => ⟨2, [], lines [why.message .stream], fs⟩
  | .error (.help long) =>
    ⟨0, Utf8.encode (Arguments.helpText .stream long env.config).toList, [], fs⟩
  | .error .version => ⟨0, Utf8.encode Arguments.versionText.toList, [], fs⟩

end Program
end AlphaCodemod
