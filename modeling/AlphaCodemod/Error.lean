/-
What ends a run: an error says what failed and where, and carries its cause if there is one.
-/
import AlphaCodemod.FileSystem.Fault
import AlphaCodemod.Path
import AlphaCodemod.Report.Sink
import AlphaCodemod.Settings.Document

namespace AlphaCodemod

/-- Why something outside the program failed; `said` is for causes that come in words of their
own. -/
inductive Cause where
  | fileSystem (f : FileSystem.Fault)
  | sink (f : SinkFault)
  | said (message : String)
deriving DecidableEq, Repr

def Cause.message : Cause → String
  | .fileSystem f => f.message
  | .sink f => f.message
  | .said m => m

/-- Why there are no settings to work with. -/
inductive ConfigFault where
  | unreadable (f : FileSystem.Fault)
  | notText
  | malformed (document : List Char) (f : Toml.Fault)
  | unusable (f : SettingsFault)
  | said (message : String)
deriving DecidableEq, Repr

def ConfigFault.message : ConfigFault → String
  | .unreadable f => "cannot read config: " ++ f.message
  | .notText => "cannot read config: stream did not contain valid UTF-8"
  | .malformed document f => Settings.documentFaultText document f
  | .unusable f => f.message
  | .said m => m

/-- The errors that end a run. -/
inductive MigrationError where
  | io (path : Path) (cause : Cause)
  | notText (path : Path)
  | config (fault : ConfigFault) (path : Option Path)
  | report (cause : Cause)
  | rootNotFound (path : Path)
deriving DecidableEq, Repr

namespace MigrationError

def message : MigrationError → String
  | .io p _ => "I/O error on " ++ p.display
  | .notText p => p.display ++ " is not valid UTF-8"
  | .config f none => "Configuration error: " ++ f.message
  | .config f (some p) => "Configuration error: " ++ f.message ++ " (" ++ p.display ++ ")"
  | .report _ => "Failed to write report"
  | .rootNotFound p => "Scan root " ++ p.display ++ " does not exist or is not a directory"

/-- The path that an error is about. -/
def path? : MigrationError → Option Path
  | .io p _ => some p
  | .notText p => some p
  | .config _ p => p
  | .report _ => none
  | .rootNotFound p => some p

def cause? : MigrationError → Option Cause
  | .io _ c => some c
  | .report c => some c
  | _ => none

end MigrationError
end AlphaCodemod
