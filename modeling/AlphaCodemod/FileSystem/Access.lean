/-
What programs ask of files: whether there is a file or a directory, what a file holds, and whether
it may be written. A mode has a bit for each thing that its owner may do with a file.
-/
import AlphaCodemod.FileSystem.Resolve

namespace AlphaCodemod
namespace FileSystem

/-- A fault with the path at which it came up. -/
structure FaultAt where
  path : Path
  fault : Fault
deriving DecidableEq, Repr

def isDirectory (fs : FileSystem) (p : Path) : Bool :=
  match fs.find true p with
  | .ok .directory => true
  | _ => false

def isFile (fs : FileSystem) (p : Path) : Bool :=
  match fs.find true p with
  | .ok (.file _ _) => true
  | _ => false

/-- Whether the caller may read a file of a mode. -/
def mayRead (fs : FileSystem) (mode : Nat) : Bool := fs.privileged || mode.testBit 8

/-- Whether the caller may write a file of a mode. -/
def mayWrite (fs : FileSystem) (mode : Nat) : Bool := fs.privileged || mode.testBit 7

/-- The content of the file that a path leads to. -/
def read (fs : FileSystem) (p : Path) : Except Fault Bytes := do
  match ← fs.find true p with
  | .file content mode => if fs.mayRead mode then return content else throw .permissionDenied
  | .directory => throw .isDirectory
  | .link _ => throw .tooManyLinks

/-- What is known of a file that has been opened. -/
structure Opened where
  location : Location
  mode : Nat
deriving DecidableEq, Repr

/-- Opens the file that a path leads to for writing, and leaves its content as it is. -/
def openToWrite (fs : FileSystem) (p : Path) : Except Fault Opened := do
  let l ← fs.resolve true p
  match fs.node? l with
  | some (.file _ mode) => if fs.mayWrite mode then return ⟨l, mode⟩ else throw .permissionDenied
  | some .directory => throw .isDirectory
  | _ => throw .notFound

end FileSystem
end AlphaCodemod
