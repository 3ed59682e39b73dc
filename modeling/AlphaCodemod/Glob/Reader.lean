/-
Reading a pattern. Three or more stars in a row are refused; two stars have to stand for whole path
components, alone between slashes; a class has at least one member, so a bracket right behind its
opening is one.
-/
import AlphaCodemod.Glob.Basic

namespace AlphaCodemod
namespace Glob

/-- The members of a class: `a-z` is a range wherever three characters can be read so. -/
def classItems : List Char → List ClassItem
  | low :: '-' :: high :: cs => .range low high :: classItems cs
  | c :: cs => .single c :: classItems cs
  | [] => []

/-- The members of a class and what follows its closing bracket. The first character is a member,
whatever it is. -/
def closeClass? : List Char → Option (List Char × List Char)
  | [] => none
  | first :: cs =>
    match cs.dropWhile (· ≠ ']') with
    | ']' :: rest => some (first :: cs.takeWhile (· ≠ ']'), rest)
    | _ => none

/-- A class, from behind its opening bracket on. -/
def readClass? : List Char → Option (Token × List Char)
  | '!' :: cs => (closeClass? cs).map fun (members, rest) => (.outside (classItems members), rest)
  | cs => (closeClass? cs).map fun (members, rest) => (.within (classItems members), rest)

theorem length_lt_of_closeClass? {cs members rest : List Char}
    (h : closeClass? cs = some (members, rest)) : rest.length < cs.length := by
  cases cs with
  | nil => simp [closeClass?] at h
  | cons first cs =>
    rw [closeClass?] at h
    split at h
    · next rest' hd =>
      cases h
      have hlen := (List.dropWhile_sublist (l := cs) (· ≠ ']')).length_le
      rw [hd] at hlen
      simp only [List.length_cons] at hlen ⊢
      omega
    · cases h

theorem length_lt_of_readClass? {cs rest : List Char} {t : Token}
    (h : readClass? cs = some (t, rest)) : rest.length < cs.length := by
  unfold readClass? at h
  split at h
  · obtain ⟨⟨members, rest'⟩, hm, heq⟩ := Option.map_eq_some_iff.1 h
    cases heq
    have := length_lt_of_closeClass? hm
    simp only [List.length_cons]
    omega
  · obtain ⟨⟨members, rest'⟩, hm, heq⟩ := Option.map_eq_some_iff.1 h
    cases heq
    exact length_lt_of_closeClass? hm

/-- The tokens of a text. `position` is where the text starts, and `opens` says whether a path
component may start there. -/
def readFrom (position : Nat) (opens : Bool) (cs : List Char) : Except Fault (List Token) :=
  match cs with
  | [] => .ok []
  | '?' :: cs => return .anyChar :: (← readFrom (position + 1) false cs)
  | '*' :: '*' :: '*' :: _ => throw ⟨position + 2, .wildcards⟩
  | '*' :: '*' :: cs =>
    if opens then
      match cs with
      | [] => .ok [.anyDirs]
      | '/' :: cs => return .anyDirs :: (← readFrom (position + 3) true cs)
      | _ => throw ⟨position + 2, .recursiveWildcards⟩
    else throw ⟨position - 1, .recursiveWildcards⟩
  | '*' :: cs => return .anyRun :: (← readFrom (position + 1) false cs)
  | '[' :: cs =>
    match h : readClass? cs with
    | some (t, rest) =>
      have := length_lt_of_readClass? h
      return t :: (← readFrom (position + 1 + (cs.length - rest.length)) false rest)
    | none => throw ⟨position, .invalidRange⟩
  | c :: cs => return .char c :: (← readFrom (position + 1) (c == '/') cs)
termination_by cs.length

/-- The pattern with a given text. -/
def Pattern.read (text : String) : Except Fault Pattern :=
  return ⟨text, ← readFrom 0 true text.toList⟩

end Glob
end AlphaCodemod
