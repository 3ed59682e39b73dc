/-
The command line. It takes in the files that a run can come upon, has the program work on them,
prints what there is to print, and writes the files that have become others.

The mode of a file can be neither asked for nor copied here. So a file is taken in with the bits that
opening it shows, and a content that has changed is written into the file itself, which keeps its
mode. That a file is replaced as a whole is true of the file systems that the program works on, and
not of this last step.
-/
import AlphaCodemod.Program

namespace AlphaCodemod
namespace CommandLine

/-- Where a link leads that leads nowhere: no file has such a name. -/
def nowhere : Path := .absolute [[0]]

/-- The name of a location outside the program. -/
def spelling (l : Location) : String := (Path.absolute l).display

/-- What kind of thing stands at a location. -/
def kindAt (l : Location) : IO IO.FS.FileType := do
  return (← ((← IO.currentDir) / spelling l).symlinkMetadata).type

/-- The names in a directory. -/
def namesAt (l : Location) : IO (List Name) := do
  let found ← ((← IO.currentDir) / spelling l).readDir
  return (found.map fun entry => Utf8.encode entry.fileName.toList).toList

/-- Whether the file at a location can be opened in a way. -/
def opens (l : Location) (way : IO.FS.Mode) : IO Bool := do
  match ← (IO.FS.Handle.mk (spelling l) way).toBaseIO with
  | .ok _ => return true
  | .error _ => return false

/-- The file at a location. Its mode says what the caller may do with it, and its content is there
only if it may be read. -/
def fileAt (l : Location) : IO Node := do
  let isRead ← opens l .read
  let isWritten ← opens l .append
  let content ← if isRead then IO.FS.readBinFile (spelling l) else pure .empty
  return .file content.data.toList ((if isRead then 0o400 else 0) + if isWritten then 0o200 else 0)

/-- Takes in what the given names lead to from a directory on, and every link on the way. -/
partial def takePath (fs : FileSystem) (d : Location) : List Name → IO FileSystem
  | [] => return fs
  | n :: ns => do
    let l := d ++ [n]
    if n = Path.here then takePath fs d ns
    else if n = Path.up then takePath fs d.dropLast ns
    else
      match ← (kindAt l).toBaseIO with
      | .error _ => return fs
      | .ok .dir => takePath (fs.put l .directory) l ns
      | .ok .symlink =>
        match ← (IO.FS.realPath (spelling l)).toBaseIO with
        | .error _ => return fs.put l (.link nowhere)
        | .ok target =>
          let target := Path.ofString target.toString
          takePath (fs.put l (.link target)) [] (target.names ++ ns)
      | .ok _ => return fs.put l (← fileAt l)

/-- Takes in everything below a directory. -/
partial def takeTree (fs : FileSystem) (d : Location) : IO FileSystem := do
  (← namesAt d).foldlM
    (fun fs n => do
      let fs ← takePath fs d [n]
      if fs.node? (d ++ [n]) = some .directory then takeTree fs (d ++ [n]) else return fs)
    fs

/-- Takes in a path and, if it leads to a directory, everything below that. -/
def take (fs : FileSystem) (p : Path) : IO FileSystem := do
  let fs ← takePath fs (FileSystem.start fs.cwd p) p.names
  match fs.resolve true p with
  | .ok l => if fs.node? l = some .directory then takeTree fs l else return fs
  | .error _ => return fs

/-- The paths that a run for the given arguments starts from. -/
def startingPaths (env : Environment) (cwd : Path) (args : List String) : List Path :=
  match Arguments.parse env.config args with
  | .ok a =>
    let m := Migration.ofArguments a cwd
    m.root :: m.settingsFile.toList
  | .error _ => []

/-- Writes the files that are not what they were. -/
def writeChanges (before after : FileSystem) : IO Unit :=
  after.entries.forM fun (l, n) => do
    match n with
    | .file content _ =>
      if before.node? l ≠ some n then IO.FS.writeBinFile (spelling l) ⟨content.toArray⟩
    | _ => pure ()

end CommandLine
end AlphaCodemod

open AlphaCodemod in
def main (args : List String) : IO UInt32 := do
  let env : Environment := ⟨← IO.getEnv Arguments.configVariable, ← IO.getEnv "RUST_LOG"⟩
  let cwd := Path.ofString (← IO.currentDir).toString
  let empty ← CommandLine.takePath { cwd := cwd.names, privileged := false } [] cwd.names
  let fs ← (CommandLine.startingPaths env cwd args).foldlM CommandLine.take empty
  let outcome := Program.run env fs args
  CommandLine.writeChanges fs outcome.files
  (← IO.getStdout).write ⟨outcome.output.toArray⟩
  (← IO.getStderr).write ⟨outcome.errors.toArray⟩
  return outcome.exit.toUInt32
