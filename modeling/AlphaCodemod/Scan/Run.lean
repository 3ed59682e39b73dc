/-
Runs: computations that read and replace files, call a reporter, keep the context up to date and
make log events, and that an error may end at any point. What a run has done up to then stays
done.
-/
import AlphaCodemod.Error
import AlphaCodemod.FileSystem.Replace
import AlphaCodemod.Activity
import AlphaCodemod.Log.Event
import AlphaCodemod.Report.Console

namespace AlphaCodemod

/-- What a run does to its surroundings. -/
inductive Action where
  | readSettings (path : Path)
  | checkSettings (settings : Settings)
  | walk (root : Path)
  | read (path : Path)
  | write (path : Path)
  | report (call : ReportCall)
deriving DecidableEq, Repr

/-- The surroundings of a run: the file system, the reporter's own state and the context of the
moment; and what the run has left behind there, its log and its actions, each with the context in
which it took place. -/
structure World (ρ : Type) where
  files : FileSystem
  reporter : ρ
  context : Context := {}
  log : List Log.Event := []
  actions : List (Context × Action) := []
deriving Repr

abbrev Run (ρ α : Type) := EStateM MigrationError (World ρ) α

namespace Run

variable {ρ α : Type}

/-- Does something under a change of the context. The context before it comes back at the end,
whether the end is an error or not. -/
def within (a : Activity) (act : Run ρ α) : Run ρ α := fun w =>
  match act { w with context := w.context.enter a } with
  | .ok x after => .ok x { after with context := w.context }
  | .error e after => .error e { after with context := w.context }

/-- Notes an action that is about to take place. -/
def note (a : Action) : Run ρ Unit :=
  modify fun w => { w with actions := w.actions ++ [(w.context, a)] }

/-- Makes a log event. -/
def log (e : Log.Event) : Run ρ Unit := modify fun w => { w with log := w.log ++ [e] }

def files : Run ρ FileSystem := do return (← get).files

/-- The text of a source file. -/
def readSource (p : Path) : Run ρ (List Char) := do
  note (.read p)
  match (← files).read p with
  | .error f => throw (.io p (.fileSystem f))
  | .ok bytes =>
    match Utf8.decode? bytes with
    | some cs => return cs
    | none => throw (.notText p)

/-- Works on the files. -/
def onFiles (work : FileSystem.Work α) : Run ρ α := fun w =>
  match work w.files with
  | .ok a fs => .ok a { w with files := fs }
  | .error f fs => .error (.io f.path (.fileSystem f.fault)) { w with files := fs }

/-- Puts a new text in place of that of a source file. -/
def writeSource (p : Path) (content : List Char) : Run ρ Unit := do
  note (.write p)
  onFiles (FileSystem.replace p (Utf8.encode content))

/-- Calls the reporter. -/
def tell (reporter : Reporter Cause ρ) (call : ReportCall) : Run ρ Unit := do
  note (.report call)
  fun w =>
    match reporter call w.reporter with
    | .ok _ r => .ok () { w with reporter := r }
    | .error c r => .error (.report c) { w with reporter := r }

end Run
end AlphaCodemod
