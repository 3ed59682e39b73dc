/-
Settings files. The one in the scan root need not be there; one that is asked for by name has to
be.
-/
import AlphaCodemod.Scan.Run

namespace AlphaCodemod

variable {ρ : Type}

namespace Log.Event

def loaded (p : Path) : Log.Event := ⟨.settings, .debug, "Loaded config", [("path", p.display)]⟩

def noSettings (root : Path) : Log.Event :=
  ⟨.settings, .debug, "No config file, using defaults", [("root", root.display)]⟩

end Log.Event

namespace Settings

/-- The settings file of a scan root. -/
def fileIn (root : Path) : Path := root.join (Utf8.encode fileName.toList)

/-- The settings that the content of a file holds. -/
def ofContent (content : Bytes) : Except ConfigFault Settings :=
  match Utf8.decode? content with
  | none => .error .notText
  | some document =>
    match ofDocument document with
    | .ok s => .ok s
    | .error f => .error (.malformed document f)

/-- Reads a settings file. What is done if there is none, is for `absent` to say. -/
def loadOr (absent : Run ρ Settings) (p : Path) : Run ρ Settings := do
  Run.note (.readSettings p)
  match (← Run.files).read p with
  | .error .notFound => absent
  | .error f => throw (.config (.unreadable f) (some p))
  | .ok content =>
    match ofContent content with
    | .error f => throw (.config f (some p))
    | .ok s =>
      Run.log (.loaded p)
      return s

/-- The settings in a file that has to be there. -/
def loadFile (p : Path) : Run ρ Settings :=
  loadOr (throw (.config (.unreadable .notFound) (some p))) p

/-- The settings of a scan root: those in its settings file, or the defaults. -/
def load (root : Path) : Run ρ Settings :=
  loadOr (do Run.log (.noSettings root); return {}) (fileIn root)

end Settings
end AlphaCodemod
