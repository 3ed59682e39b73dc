/-
What a path leads to. Names are followed one by one from the root or the working directory; a link
puts the names of its target before the names still to be followed. A path that leads through too
many links is refused, so that following always ends.
-/
import AlphaCodemod.FileSystem.Basic
import AlphaCodemod.FileSystem.Fault

namespace AlphaCodemod
namespace FileSystem

/-- A path has fewer bytes than this. -/
def pathLimit : Nat := 4096

/-- A path may lead through this many links. -/
def linkLimit : Nat := 40

/-- Where the names of a path start, for a path written in the directory `d`. -/
def start (d : Location) (p : Path) : Location := if p.isAbsolute then [] else d

/-- Follows names from a location on. Links are handed to `onLink`, with the place and the names to
go on with; a link at the end is left alone unless `last` is set. Only locations that are `within`
reach are entered. -/
def followWith (fs : FileSystem) (last : Bool) (within : Location → Bool)
    (onLink : Location → List Name → Except Fault Location) :
    Location → List Name → Except Fault Location
  | l, [] => .ok l
  | l, n :: ns =>
    match fs.node? l with
    | none => .error .notFound
    | some (.file _ _) => .error .notDirectory
    | some (.link _) => .error .notDirectory
    | some .directory =>
      if n = Path.here then fs.followWith last within onLink l ns
      else if n = Path.up then fs.followWith last within onLink l.dropLast ns
      else if nameLimit < n.length || !within (l ++ [n]) then .error .nameTooLong
      else
        match fs.node? (l ++ [n]) with
        | none => .error .notFound
        | some (.link target) =>
          if ns.isEmpty && !last then .ok (l ++ [n])
          else onLink (start l target) (target.names ++ ns)
        | some _ => fs.followWith last within onLink (l ++ [n]) ns

/-- Follows names through at most the given number of links. -/
def follow (fs : FileSystem) (last : Bool) (within : Location → Bool) :
    Nat → Location → List Name → Except Fault Location
  | 0 => fs.followWith last within fun _ _ => .error .tooManyLinks
  | links + 1 => fs.followWith last within (fs.follow last within links)

/-- The location that a path leads to through locations within reach. -/
def lead (fs : FileSystem) (last : Bool) (within : Location → Bool) (p : Path) :
    Except Fault Location :=
  if 0 ∈ p.bytes then .error .nulInPath
  else if p.bytes = [] then .error .notFound
  else if pathLimit ≤ p.bytes.length then .error .nameTooLong
  else fs.follow last within linkLimit (start fs.cwd p) p.names

/-- The location that a path leads to; whether a link at its end is followed is said by `last`. -/
def resolve (fs : FileSystem) (last : Bool) (p : Path) : Except Fault Location :=
  fs.lead last (fun _ => true) p

/-- Whether the path that spells a location from the root on is short enough for a path. -/
def isSpelled (l : Location) : Bool := (Path.absolute l).bytes.length < pathLimit

/-- The path that spells what `p` leads to from the root on. Each location on the way is asked about
by such a path, so that all of them need one. -/
def canonical (fs : FileSystem) (p : Path) : Except Fault Path := do
  return .absolute (← fs.lead true isSpelled p)

/-- What a path leads to, a link at its end followed or not. -/
def find (fs : FileSystem) (last : Bool) (p : Path) : Except Fault Node := do
  match fs.node? (← fs.resolve last p) with
  | some n => return n
  | none => throw .notFound

end FileSystem
end AlphaCodemod
