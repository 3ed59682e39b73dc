/-
Log filters: which events are shown. A filter is a list of directives. Of those that are about an
event the nearest decides; an event that none is about is not shown.
-/
import AlphaCodemod.Log.Directive

namespace AlphaCodemod
namespace Log

abbrev Filter := List Directive

namespace Filter

/-- The directive that decides about an event; of equally near ones the later. -/
def directive? (f : Filter) (e : Event) : Option Directive :=
  (f.filter (·.concerns e)).foldl
    (fun best d =>
      match best with
      | none => some d
      | some b => if b.yields d then some d else some b)
    none

def shows (f : Filter) (e : Event) : Bool := (f.directive? e).any (·.shows e)

/-- The parts of a text between commas. -/
def commaParts : List Char → List (List Char)
  | [] => [[]]
  | c :: cs =>
    if c = ',' then [] :: commaParts cs
    else
      match commaParts cs with
      | [] => [[c]]
      | part :: parts => (c :: part) :: parts

/-- A filter from directives with commas between them. Without any, errors are shown. -/
def read? (s : String) : Option Filter := do
  let directives ← ((commaParts s.toList).filter (!·.isEmpty)).mapM Directive.read?
  return if directives.isEmpty then [{ level := some .error }] else directives

/-- The filter that a number of `-v` asks for. -/
def ofVerbosity (verbosity : Nat) : Filter :=
  [{ target := some "opacity_migrate".toList, level := some (Level.ofVerbosity verbosity) }]

/-- The filter of a run: the one that is asked for in words, if there is one and it can be read, or
else that of the number of `-v`. -/
def choose (asked : Option String) (verbosity : Nat) : Filter :=
  (asked.bind read?).getD (ofVerbosity verbosity)

end Filter
end Log
end AlphaCodemod
