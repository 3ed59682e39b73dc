/-
Exclude patterns. A pattern is a list of tokens; `Glob.Matches` says which texts it stands for. A
slash is a character like any other for all tokens but the directory wildcard `**`.
-/
namespace AlphaCodemod
namespace Glob

/-! ## Tokens -/

/-- A member of a character class. -/
inductive ClassItem where
  | single (c : Char)
  | range (low high : Char)
deriving DecidableEq, Repr

def ClassItem.contains : ClassItem → Char → Bool
  | .single a, c => a == c
  | .range low high, c => decide (low ≤ c) && decide (c ≤ high)

inductive Token where
  | char (c : Char)
  | anyChar
  | within (items : List ClassItem)
  | outside (items : List ClassItem)
  /-- The wildcard `*`: any run of characters. -/
  | anyRun
  /-- The wildcard `**` with the slash behind it: any run of whole directories. -/
  | anyDirs
deriving DecidableEq, Repr

/-- Whether a token can stand for a single character; the two wildcards are not read so. -/
def Token.accepts : Token → Char → Bool
  | .char a, c => a == c
  | .anyChar, _ => true
  | .within items, c => items.any (·.contains c)
  | .outside items, c => !items.any (·.contains c)
  | .anyRun, _ => false
  | .anyDirs, _ => false

/-! ## Meaning -/

/-- The texts that a list of tokens stands for. -/
inductive Matches : List Token → List Char → Prop where
  | nil : Matches [] []
  | one {t : Token} {c : Char} {ts : List Token} {cs : List Char} :
      t.accepts c → Matches ts cs → Matches (t :: ts) (c :: cs)
  | run {ts : List Token} {taken cs : List Char} :
      Matches ts cs → Matches (.anyRun :: ts) (taken ++ cs)
  | noDirs {ts : List Token} {cs : List Char} :
      Matches ts cs → Matches (.anyDirs :: ts) cs
  | dirs {ts : List Token} {taken cs : List Char} :
      Matches ts cs → Matches (.anyDirs :: ts) (taken ++ '/' :: cs)
  /-- At the end of a pattern the directory wildcard takes all of the rest. -/
  | all {cs : List Char} : Matches [.anyDirs] cs

/-! ## Patterns -/

/-- A pattern that has been read, with its text. -/
structure Pattern where
  text : String
  tokens : List Token
deriving DecidableEq, Repr

/-- Why a text is no pattern. -/
inductive FaultKind where
  | wildcards
  | recursiveWildcards
  | invalidRange
deriving DecidableEq, Repr

/-- A fault with its position, counted in characters from zero. -/
structure Fault where
  position : Nat
  kind : FaultKind
deriving DecidableEq, Repr

def FaultKind.message : FaultKind → String
  | .wildcards => "wildcards are either regular `*` or recursive `**`"
  | .recursiveWildcards => "recursive wildcards must form a single path component"
  | .invalidRange => "invalid range pattern"

def Fault.message (f : Fault) : String :=
  "Pattern syntax error near position " ++ toString f.position ++ ": " ++ f.kind.message

end Glob
end AlphaCodemod
