/-
The help texts. The short one has one line for each argument, the long one sets the texts below the
arguments, with blank lines between them. They are laid out for a terminal, with the names of the
options in bold, and given without what would steer one.
-/
import AlphaCodemod.Identity
import AlphaCodemod.Text.Terminal

namespace AlphaCodemod
namespace Arguments

/-- The environment variable that names a settings file. -/
def configVariable : String := "OPACITY_MIGRATE_CONFIG"

namespace Help

def spaces (n : Nat) : String := String.ofList (List.replicate n ' ')

/-- A text set off by an indent: all lines but its first one start there. -/
def indented (indent : Nat) (text : String) : String :=
  String.ofList (text.toList.flatMap fun c =>
    if c = '\n' then '\n' :: List.replicate indent ' ' else [c])

/-- A text in bold. -/
def bold (text : String) : String := "\x1b[1m" ++ text ++ "\x1b[0m"

/-- An argument as it is listed, with the text about it. The name of an option is set in bold. -/
structure Item where
  indent : Nat
  name : String := ""
  rest : String
  about : String

def Item.spelling (i : Item) : String :=
  spaces i.indent ++ (if i.name.isEmpty then "" else bold i.name) ++ i.rest

/-- The width of the spelling as it is seen. -/
def Item.width (i : Item) : Nat := i.indent + i.name.length + i.rest.length

/-- The column where the texts of the short help start. -/
def aboutColumn : Nat := 31

/-- The indent of the texts of the long help. -/
def aboutIndent : Nat := 10

def Item.short (column : Nat) (i : Item) : String :=
  i.spelling ++ spaces (column - i.width) ++ indented column i.about ++ "\n"

def Item.long (i : Item) : String :=
  i.spelling ++ "\n" ++ spaces aboutIndent ++ indented aboutIndent i.about ++ "\n"

/-- The scanned directory. -/
def path : Item := ⟨2, "", "[PATH]", "Directory to scan (defaults to the current directory)"⟩

/-- The options in the order of the help. The current value of the environment variable is shown
with it. -/
def options (long : Bool) (environment : Option String) : List Item :=
  [⟨6, "--dry-run", "", "Report what would change without modifying any file"⟩,
    ⟨6, "--config", " <CONFIG>",
      "Config file to use instead of <PATH>/.opacity-migrate.toml" ++
        (if long then "\n\n" else " ") ++ "[env: " ++ configVariable ++ "=" ++
        environment.getD "" ++ "]"⟩,
    ⟨6, "--extension", " <EXTENSION>", "File extension to scan (default: dart)"⟩,
    ⟨6, "--exclude", " <GLOB>", "Glob, relative to PATH, of files to skip (repeatable)"⟩,
    ⟨2, "-v", ", --verbose...", "Increase log verbosity (can be repeated: -v, -vv, -vvv)"⟩,
    ⟨2, "-h", ", --help",
      if long then "Print help (see a summary with '-h')"
      else "Print help (see more with '--help')"⟩,
    ⟨2, "-V", ", --version", "Print version"⟩]

def usage : String := "Usage: " ++ programName ++ " [OPTIONS] [PATH]\n"

def shortText (environment : Option String) : String :=
  "Rewrite deprecated .withOpacity(x) calls to .withAlpha(n)\n\n" ++ usage ++
    "\nArguments:\n" ++ path.short (path.width + 2) ++ "\nOptions:\n" ++
    String.join ((options false environment).map (Item.short aboutColumn))

def longText (environment : Option String) : String :=
  "Scans a source tree and replaces every `.withOpacity(<number>)` call with " ++
    "`.withAlpha(<0-255>)`, computing alpha as round(opacity * 255) with the opacity clamped to " ++
    "[0, 1].\n\n" ++ usage ++ "\nArguments:\n" ++ path.long ++ "\nOptions:\n" ++
    String.intercalate "\n" ((options true environment).map Item.long)

end Help

def helpText (m : Medium) (long : Bool) (environment : Option String) : String :=
  withoutControls m (if long then Help.longText environment else Help.shortText environment)

def versionText : String := programName ++ " " ++ programVersion ++ "\n"

end Arguments
end AlphaCodemod
