/-
Settings: which files to scan and which to leave out. They start from the defaults or a settings
file, the command line adds to them, and they are checked as a whole before they are used.
-/
import AlphaCodemod.Glob.Reader
import AlphaCodemod.Glob.Search

namespace AlphaCodemod

structure Settings where
  extension : String := "dart"
  exclude : List String := []
deriving DecidableEq, Repr

/-- Why settings cannot be used. -/
inductive SettingsFault where
  | emptyExtension
  | compoundExtension (extension : String)
  | badPattern (pattern : String) (fault : Glob.Fault)
deriving DecidableEq, Repr

def SettingsFault.message : SettingsFault → String
  | .emptyExtension => "extension must not be empty"
  | .compoundExtension e => "extension '" ++ e ++ "' must be a single file extension"
  | .badPattern p f => "invalid exclude pattern '" ++ p ++ "': " ++ f.message

namespace Settings

/-- The extension without the dots before it. -/
def normalized (s : Settings) : String := String.ofList (s.extension.toList.dropWhile (· == '.'))

/-- Settings with overrides: an extension takes the place of the one there is, patterns are
added. -/
def override (s : Settings) (extension : Option String) (exclude : List String) : Settings :=
  ⟨extension.getD s.extension, s.exclude ++ exclude⟩

/-- The exclude patterns in order, or the first fault among them. -/
def patterns (s : Settings) : Except SettingsFault (List Glob.Pattern) :=
  s.exclude.mapM fun p =>
    match Glob.Pattern.read p with
    | .ok g => .ok g
    | .error f => .error (.badPattern p f)

/-- The extension is checked before the patterns: it has to be one, without a slash, backslash or
dot in it. -/
def checkExtension (s : Settings) : Except SettingsFault Unit :=
  let e := s.normalized.toList
  if e.isEmpty then throw .emptyExtension
  else if e.any (fun c => c == '/' || c == '\\' || c == '.') then
    throw (.compoundExtension s.extension)
  else pure ()

def validate (s : Settings) : Except SettingsFault Unit := do
  s.checkExtension
  let _ ← s.patterns

end Settings
end AlphaCodemod
