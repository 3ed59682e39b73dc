/-
What a run is doing at the moment: its phase and the file in hand. Each change of the context is
made under a guard that remembers the whole context before it; dropping the guard brings that
context back, whatever has happened since.
-/
import AlphaCodemod.Path

namespace AlphaCodemod

inductive Phase where
  | configuration
  | fileDiscovery
  | editing
  | reporting
deriving DecidableEq, Repr

def Phase.name : Phase → String
  | .configuration => "configuration"
  | .fileDiscovery => "file_discovery"
  | .editing => "rewriting"
  | .reporting => "reporting"

structure Context where
  phase : Option Phase := none
  file : Option Path := none
deriving DecidableEq, Repr

/-- One change of the context. -/
inductive Activity where
  | phase (p : Phase)
  | file (p : Path)
deriving DecidableEq, Repr

def Context.enter (c : Context) : Activity → Context
  | .phase p => { c with phase := some p }
  | .file p => { c with file := some p }

/-- A context with the guards made so far: guard number `i` remembers `saved[i]`, until it is
dropped. -/
structure Guarded where
  current : Context := {}
  saved : List (Option Context) := []
deriving DecidableEq, Repr

namespace Guarded

/-- Changes the context under a new guard. -/
def enter (g : Guarded) (a : Activity) : Guarded :=
  ⟨g.current.enter a, g.saved ++ [some g.current]⟩

/-- Drops guard number `i`; a guard that is not there, or has been dropped before, changes
nothing. -/
def drop (g : Guarded) (i : Nat) : Guarded :=
  match g.saved[i]? with
  | some (some c) => ⟨c, g.saved.set i none⟩
  | _ => g

/-- Drops all guards, the latest first. -/
def dropAll (g : Guarded) : Guarded :=
  (List.range g.saved.length).reverse.foldl drop g

end Guarded
end AlphaCodemod
