/-
Paths as they are written: bytes with slashes between names. A path keeps the spelling it was given
(`a//b`, `./a`), because reports show it; what it names is found by `FileSystem.resolve`.
-/
import AlphaCodemod.Text.Utf8

namespace AlphaCodemod

/-- A name in a directory. -/
abbrev Name := Bytes

structure Path where
  bytes : Bytes
deriving DecidableEq, Repr

namespace Path

/-! ## Text -/

def ofString (s : String) : Path := ⟨Utf8.encode s.toList⟩

/-- The path as reports show it. -/
def display (p : Path) : String := String.ofList (Utf8.decodeLossy p.bytes)

/-! ## Names -/

def slash : UInt8 := 47

/-- The parts between slashes, the empty ones included. -/
def parts : Bytes → List Name
  | [] => [[]]
  | b :: bs =>
    if b = slash then [] :: parts bs
    else
      match parts bs with
      | [] => [[b]]
      | n :: ns => (b :: n) :: ns

/-- The name `.` of a directory itself. -/
def here : Name := [46]

/-- The name `..` of the directory above. -/
def up : Name := [46, 46]

/-- The names of a path, in order. A slash at the end asks for a directory, as a `.` there would. -/
def names (p : Path) : List Name :=
  let ns := (parts p.bytes).filter (· ≠ [])
  if p.bytes.getLast? = some slash then ns ++ [here] else ns

def isAbsolute (p : Path) : Bool := p.bytes.head? = some slash

/-- The name of what the path leads to, unless the path ends in `..` or has no name at all. -/
def fileName? (p : Path) : Option Name :=
  (p.names.filter (· ≠ here)).getLast?.filter (· ≠ up)

/-! ## Longer paths -/

/-- The path of an entry of the directory `p`. -/
def join (p : Path) (n : Name) : Path :=
  match p.bytes.getLast? with
  | none => ⟨n⟩
  | some b => if b = slash then ⟨p.bytes ++ n⟩ else ⟨p.bytes ++ slash :: n⟩

/-- The path of what lies under `p` by way of the given names. -/
def below (p : Path) (ns : List Name) : Path := ns.foldl join p

/-- Names with slashes between them. -/
def joinNames : List Name → Bytes
  | [] => []
  | [n] => n
  | n :: ns => n ++ slash :: joinNames ns

/-- The absolute path with the given names. -/
def absolute (ns : List Name) : Path := ⟨slash :: joinNames ns⟩

/-! ## Shorter paths -/

/-- The path of the directory that has the last name of `p`: what is spelled before that name, or
`.` if nothing is. -/
def directory (p : Path) : Path :=
  let isPassed (n : Name) : Bool := n = [] || n = here
  let before := (((parts p.bytes).reverse.dropWhile isPassed).drop 1).dropWhile isPassed
  if before.isEmpty then if p.isAbsolute then absolute [] else ⟨here⟩
  else ⟨joinNames before.reverse⟩

end Path
end AlphaCodemod
