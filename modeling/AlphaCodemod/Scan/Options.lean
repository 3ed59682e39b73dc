/-
What is scanned: the files below a root whose names have the extension, less those that a pattern
excludes.
-/
import AlphaCodemod.FileSystem.Access
import AlphaCodemod.Settings.Basic

namespace AlphaCodemod

/-- The settings of one scan. -/
structure ScanOptions where
  root : Path
  extension : String := "dart"
  exclude : List Glob.Pattern := []
  dryRun : Bool := false
deriving DecidableEq, Repr

namespace ScanOptions

/-- Whether the name of a file ends in a dot and the extension; nothing need stand before the
dot. -/
def hasExtension (o : ScanOptions) (n : Name) : Bool :=
  ('.' :: o.extension.toList).isSuffixOf (Utf8.decodeLossy n)

/-- Whether a pattern matches a path from the root on. Patterns are about text: what is none, none
matches. -/
def excludes (o : ScanOptions) (relative : List Name) : Bool :=
  match Utf8.decode? (Path.joinNames relative) with
  | some cs => o.exclude.any fun p => p.matches cs
  | none => false

/-- Whether what the given names lead to from the root on is to be looked into: a file, possibly
through a link, with the extension, and not excluded. -/
def isCandidate (o : ScanOptions) (fs : FileSystem) (relative : List Name) : Bool :=
  let p := o.root.below relative
  fs.isFile p && p.fileName?.any o.hasExtension && !o.excludes relative

/-! ## Walks -/

/-- What was met on a walk, in order, as names from the root on, and what ended it early. -/
structure Walk where
  met : List (List Name) := []
  fault : Option FileSystem.FaultAt := none
deriving DecidableEq, Repr

/-- Why a directory that was met cannot be read by its path, if it cannot: a path that leads to it
from the root may have grown too long. -/
def readFault? (o : ScanOptions) (fs : FileSystem) (l : Location) (relative : List Name) :
    Option FileSystem.FaultAt :=
  match fs.node? (l ++ relative), fs.resolve true (o.root.below relative) with
  | some .directory, .error f => some ⟨o.root.below relative, f⟩
  | _, _ => none

/-- The walk through what is below a location, up to the first directory that cannot be read. -/
def walkFrom (o : ScanOptions) (fs : FileSystem) (l : Location) : Walk :=
  let all := [] :: fs.below l
  let isRead relative := (o.readFault? fs l relative).isNone
  match all.dropWhile isRead with
  | [] => { met := all }
  | unread :: _ =>
    { met := all.takeWhile isRead ++ [unread], fault := o.readFault? fs l unread }

/-- The walk from the root. A root that is a link is followed; what it leads to has to be there. -/
def visited (o : ScanOptions) (fs : FileSystem) : Walk :=
  match fs.find false o.root, fs.resolve true o.root with
  | .error f, _ => { fault := some ⟨o.root, f⟩ }
  | .ok _, .error f => { fault := some ⟨o.root, f⟩ }
  | .ok _, .ok l =>
    match fs.node? l with
    | some .directory => o.walkFrom fs l
    | _ => { met := [[]] }

/-- The paths of the candidates among what a walk has met. -/
def candidatesAmong (o : ScanOptions) (fs : FileSystem) (met : List (List Name)) : List Path :=
  (met.filter (o.isCandidate fs)).map o.root.below

/-- The paths of the files to be looked into, in the order of the walk. -/
def candidates (o : ScanOptions) (fs : FileSystem) : Except FileSystem.FaultAt (List Path) :=
  match (o.visited fs).fault with
  | some f => .error f
  | none => .ok (o.candidatesAmong fs (o.visited fs).met)

end ScanOptions
end AlphaCodemod
