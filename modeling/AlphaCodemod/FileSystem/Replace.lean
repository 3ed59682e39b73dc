/-
Putting new content in place of that of a file. The content does not go into the file itself but into
a temporary one in the same directory, which is given the mode of the file and then renamed, so that
it takes its place. If one of these steps fails, the temporary file is removed. Whoever looks at the
file meanwhile finds all of the old content or all of the new. What a fault in making or filling a
temporary file says of its path, behind the words of the interface, is left out.
-/
import AlphaCodemod.FileSystem.Access

namespace AlphaCodemod
namespace FileSystem

/-- Work on a file system, which a fault may end. What has been done up to then stays done. -/
abbrev Work (α : Type) := EStateM FaultAt FileSystem α

/-- Asks the file system something. If the answer is a fault, it came up at the path `p`. -/
def Work.ask {α : Type} (p : Path) (question : FileSystem → Except Fault α) : Work α := fun fs =>
  match question fs with
  | .ok a => .ok a fs
  | .error f => .error ⟨p, f⟩ fs

/-! ## Names for temporary files -/

/-- The digits, the large letters and the small letters, by number. -/
def letter (n : Nat) : UInt8 :=
  if n < 10 then .ofNat (48 + n) else if n < 36 then .ofNat (55 + n) else .ofNat (61 + n)

/-- That many letters, by the digits of a number. -/
def letters : Nat → Nat → Bytes
  | 0, _ => []
  | k + 1, n => letter (n % 62) :: letters k (n / 62)

/-- The name of a draw: `.tmp` and six letters. -/
def drawnName (draw : Nat) : Name := [46, 116, 109, 112] ++ letters 6 draw

/-- So many names are drawn before the search for a free one is given up. -/
def drawLimit : Nat := 65536

/-- The first name that is free, of a number of draws from the given one on. -/
def freeName? (isTaken : Name → Bool) : Nat → Nat → Option Name
  | 0, _ => none
  | tries + 1, draw =>
    if isTaken (drawnName draw) then freeName? isTaken tries (draw + 1) else some (drawnName draw)

/-! ## Temporary files -/

/-- A temporary file: its path, which is absolute, and where it is. -/
structure Temporary where
  path : Path
  location : Location
deriving DecidableEq, Repr

/-- The mode of a temporary file before it is given another. -/
def temporaryMode : Nat := 0o600

/-- A path from the root on. -/
def fromRoot (fs : FileSystem) (p : Path) : Path :=
  if p.isAbsolute then p else (Path.absolute fs.cwd).join p.bytes

/-- A name for a temporary file in the directory at a location. -/
def freeNameIn? (fs : FileSystem) (l : Location) : Option Name :=
  freeName? (fun n => (fs.node? (l ++ [n])).isSome) drawLimit fs.device.draw

/-- Where there is room for a temporary file in a directory. -/
def vacancy (fs : FileSystem) (d : Path) : Except Fault Temporary := do
  let l ← fs.resolve true (fs.fromRoot d)
  if fs.node? l ≠ some .directory then throw .notDirectory
  match fs.freeNameIn? l with
  | none => throw .exists
  | some n =>
    let path := (fs.fromRoot d).join n
    if pathLimit ≤ path.bytes.length then throw .nameTooLong
    return ⟨path, l ++ [n]⟩

/-- Makes an empty temporary file in a directory. -/
def makeTemporary (trouble : Option Trouble) (d : Path) : Work Temporary := do
  let temp ← Work.ask d fun fs => fs.vacancy d
  match trouble with
  | some (.making f) => throw ⟨d, f⟩
  | _ =>
    modify fun fs => fs.put temp.location (.file [] temporaryMode)
    return temp

namespace Temporary

variable (temp : Temporary) (trouble : Option Trouble)

/-- Writes the content, or as much of it as the device takes. -/
def fill (content : Bytes) : Work Unit := do
  match trouble with
  | some (.filling written f) =>
    modify fun fs => fs.put temp.location (.file (content.take written) temporaryMode)
    throw ⟨temp.path, f⟩
  | _ => modify fun fs => fs.put temp.location (.file content temporaryMode)

/-- Gives the file another mode. -/
def grant (mode : Nat) : Work Unit := do
  match trouble with
  | some (.granting f) => throw ⟨temp.path, f⟩
  | _ =>
    modify fun fs =>
      match fs.node? temp.location with
      | some (.file content _) => fs.put temp.location (.file content mode)
      | _ => fs

/-- Renames the file, so that it takes the place of what stands at a path. -/
def moveTo (p : Path) : Work Unit := do
  match trouble with
  | some (.moving f) => throw ⟨p, f⟩
  | _ =>
    let l ← Work.ask p fun fs => fs.resolve false p
    modify fun fs =>
      match fs.node? temp.location with
      | some n => (fs.put l n).erase temp.location
      | none => fs

/-- Has the file take the place of another one, with its content and mode complete by then. -/
def install (content : Bytes) (mode : Nat) (p : Path) : Work Unit := do
  temp.fill trouble content
  temp.grant trouble mode
  temp.moveTo trouble p

/-- Removes the file. -/
def remove : Work Unit := modify fun fs => fs.erase temp.location

end Temporary

/-! ## Replacements -/

/-- The path of the file that is replaced when `p` is written: `p` itself, or the one that spells
where it leads if it is a link. -/
def target (fs : FileSystem) (p : Path) : Except Fault Path := do
  match ← fs.find false p with
  | .link _ => fs.canonical p
  | _ => return p

/-- Puts a temporary file with the content in the place of a file that has been opened by the path
`t`. -/
def supplant (t : Path) (file : Opened) (content : Bytes) : Work Unit := do
  let trouble := (← get).device.troubles.lookup file.location
  let temp ← makeTemporary trouble t.directory
  try temp.install trouble content file.mode t
  catch f =>
    temp.remove
    throw f

/-- Replaces the file that a path leads to. A link stays as it is: the file it leads to is replaced,
and named in faults from then on. A file that may not be written is refused, although its directory
would let it be replaced. -/
def replace (p : Path) (content : Bytes) : Work Unit := do
  let t ← Work.ask p fun fs => fs.target p
  let file ← Work.ask t fun fs => fs.openToWrite t
  supplant t file content

end FileSystem
end AlphaCodemod
