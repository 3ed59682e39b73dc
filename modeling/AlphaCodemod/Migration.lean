/-
Migrations: a scan with its settings. The settings are settled first, from the settings file and
what was asked for beside it; only then is any source file looked at.
-/
import AlphaCodemod.Scan.Basic
import AlphaCodemod.Settings.Load
import AlphaCodemod.Arguments.Basic

namespace AlphaCodemod

/-- What is asked for. -/
structure Migration where
  root : Path
  dryRun : Bool := false
  settingsFile : Option Path := none
  extension : Option String := none
  exclude : List String := []
deriving DecidableEq, Repr

namespace Migration

variable {ρ : Type}

/-- The migration that a command line asks for; without a path it is the working directory's. -/
def ofArguments (a : Arguments) (cwd : Path) : Migration :=
  { root := (a.path.map Path.ofString).getD cwd
    dryRun := a.dryRun
    settingsFile := a.config.map Path.ofString
    extension := a.extension
    exclude := a.exclude }

/-- The settings that a migration starts from: a settings file that is named takes the place of
the root's own. -/
def base (m : Migration) : Run ρ Settings :=
  match m.settingsFile with
  | some p => Settings.loadFile p
  | none => Settings.load m.root

/-- The settings of a migration: the root has to be a directory, what was asked for comes on top
of the settings it starts from, and all is checked. -/
def settle (m : Migration) : Run ρ Settings :=
  Run.within (.phase .configuration) do
    if !(← Run.files).isDirectory m.root then throw (.rootNotFound m.root)
    let s := (← m.base).override m.extension m.exclude
    Run.note (.checkSettings s)
    match s.validate with
    | .ok _ => return s
    | .error f => throw (.config (.unusable f) none)

/-- The scan of a migration under given settings. -/
def options (m : Migration) (s : Settings) : Except SettingsFault ScanOptions := do
  return {
    root := m.root
    extension := s.normalized
    exclude := ← s.patterns
    dryRun := m.dryRun }

def run (m : Migration) (reporter : Reporter Cause ρ) : Run ρ Summary := do
  let s ← m.settle
  match m.options s with
  | .ok o => o.scan reporter
  | .error f => throw (.config (.unusable f) none)

end Migration
end AlphaCodemod
