/-
Numbers of a document: integers in four bases and floating-point numbers. Underscores may stand
between digits. What is written as an integer is one, even if no number can be made of it; that is a
matter for whoever needs its value.
-/
import AlphaCodemod.Number.Spelling

namespace AlphaCodemod
namespace Toml

/-! ## Underscores -/

/-- The parts of a text between underscores. -/
def underscoreParts : List Char → List (List Char)
  | [] => [[]]
  | c :: cs =>
    if c = '_' then [] :: underscoreParts cs
    else
      match underscoreParts cs with
      | [] => [[c]]
      | part :: parts => (c :: part) :: parts

/-- Whether underscores stand between digits. A sign alone may stand before one too. -/
def isWellSpaced (isDigit : Char → Bool) (cs : List Char) : Bool :=
  match underscoreParts cs with
  | [] => true
  | [_] => true
  | first :: later =>
    (first :: later).all (!·.isEmpty) && later.all (·.head?.any isDigit) &&
      (first :: later).dropLast.all fun part => part.length == 1 || part.getLast?.any isDigit

def withoutUnderscores (cs : List Char) : List Char := cs.filter (· ≠ '_')

/-! ## Digits -/

def isHexDigit (c : Char) : Bool := isDigit c || ('a' ≤ c && c ≤ 'f') || ('A' ≤ c && c ≤ 'F')

/-- The value of a digit in any base up to sixteen. -/
def anyDigitValue (c : Char) : Nat :=
  if c.toNat ≤ '9'.toNat then c.toNat - '0'.toNat
  else if c.toNat ≤ 'F'.toNat then c.toNat - 'A'.toNat + 10
  else c.toNat - 'a'.toNat + 10

def valueInBase (base : Nat) (ds : List Char) : Nat :=
  ds.foldl (fun n d => n * base + anyDigitValue d) 0

/-- More than one digit, the first of them zero. -/
def hasLeadingZero (ds : List Char) : Bool :=
  match ds with
  | '0' :: _ :: _ => true
  | _ => false

/-! ## Floating-point numbers -/

/-- A floating-point number, from behind its whole part on: it has a fraction or an exponent. -/
def floatTail? (whole : List Char) (cs : List Char) : Option Binary64 :=
  match cs with
  | '.' :: cs => do
    let fraction := cs.takeWhile isDigit
    guard (!fraction.isEmpty)
    let units := digitsValue (whole ++ fraction)
    match cs.dropWhile isDigit with
    | [] => return .scaled units (-(fraction.length : Int))
    | e :: cs =>
      guard (e = 'e' ∨ e = 'E')
      return .scaled units ((← Binary64.exponent? cs) - (fraction.length : Int))
  | e :: cs => do
    guard (e = 'e' ∨ e = 'E')
    return .scaled (digitsValue whole) (← Binary64.exponent? cs)
  | [] => none

/-- A floating-point number without a sign and underscores. -/
def float? (cs : List Char) : Option Binary64 := do
  let whole := cs.takeWhile isDigit
  guard (!whole.isEmpty && !hasLeadingZero whole)
  floatTail? whole (cs.dropWhile isDigit)

/-! ## Numbers -/

/-- A number. What is written as an integer or with a point, but stands for no number or for one
that is too great, has no value. -/
inductive Number where
  | integer (n : Option Int)
  | float (x : Option Binary64)
deriving DecidableEq, Repr

namespace Number

/-- The integer with the given digits, if they are digits all. -/
def ofInteger (negative : Bool) (ds : List Char) : Number :=
  if ds.isEmpty || !ds.all isDigit then .integer none
  else .integer (some (if negative then -(digitsValue ds : Int) else digitsValue ds))

/-- A floating-point number that was written with digits. -/
def ofFloat (negative : Bool) : Binary64 → Number
  | .infinite _ => .float none
  | x => .float (some (if negative then x.negate else x))

end Number

/-- A decimal number; `cs` is what follows its sign, and `raw` the whole of it. -/
def decimal? (raw : List Char) (negative : Bool) (cs : List Char) : Option Number := do
  let rest := cs.dropWhile isDigit
  if rest.any fun c => c == '.' || c == 'e' || c == 'E' then
    guard (isWellSpaced isDigit raw)
    return .ofFloat negative (← float? (withoutUnderscores cs))
  else
    guard (rest.head?.all (· == '_') && isWellSpaced isHexDigit raw && !hasLeadingZero cs)
    return .ofInteger negative (withoutUnderscores cs)

/-- A number without digits, or a decimal one. -/
def signed? (raw : List Char) (negative : Bool) (cs : List Char) : Option Number :=
  match cs with
  | [] => none
  | ['i', 'n', 'f'] => some (.float (some (.infinite negative)))
  | ['n', 'a', 'n'] => some (.float (some .nan))
  | _ => if cs.contains ' ' then none else decimal? raw negative cs

/-- A number in another base than ten, from behind its mark on. -/
def based? (base : Nat) (cs : List Char) : Option Number := do
  let isBased (c : Char) := isHexDigit c && decide (anyDigitValue c < base)
  guard (cs.all (fun c => isBased c || c == '_') && isWellSpaced isBased cs)
  if cs.isEmpty then return .integer none
  else return .integer (some (valueInBase base (withoutUnderscores cs)))

/-- A number; a sign goes with the decimal ones only. -/
def number? (cs : List Char) : Option Number :=
  match cs with
  | '0' :: 'x' :: ds => based? 16 ds
  | '0' :: 'o' :: ds => based? 8 ds
  | '0' :: 'b' :: ds => based? 2 ds
  | '+' :: ds => signed? cs false ds
  | '-' :: ds => signed? cs true ds
  | ds => signed? cs false ds

end Toml
end AlphaCodemod
