/-
The statements of a document: which keys are given which values, and under which headers. Brackets,
commas and line ends are settled here; words are left as they are written. A document that cannot be
read to its end has the statements before that place, and one more that says so.
-/
import AlphaCodemod.Toml.Value

namespace AlphaCodemod
namespace Toml

/-- A value as it is written. -/
inductive Expression where
  | word (w : Word)
  | array (items : List Expression) (span : Span)
  | inlineTable (pairs : List (List Word × Expression)) (span : Span)
deriving Repr

/-- A line of a document that says something. -/
inductive Statement where
  | assign (keys : List Word) (value : Expression)
  | header (many : Bool) (keys : List Word) (span : Span)
  | unreadable (opensTable : Bool) (fault : Fault)
deriving Repr

/-! ## Words -/

/-- The place before some tokens. -/
def placeOf : List Token → List Char
  | [] => []
  | t :: _ => t.span.start

def stuckAt (ts : List Token) : Fault := .unreadable ⟨placeOf ts, placeOf ts⟩

/-- Keys with dots between them, and what follows them and the gap behind them. The key before the
next dot may have been read already; where none is read, it is missing. -/
def readKeys (isGap : Token → Bool) (read : Option Word) : List Token → List Word × List Token
  | [] => ([read.getD (.missing [])], [])
  | t :: ts =>
    let stop := ([read.getD (.missing t.span.start)], t :: ts)
    if isGap t then readKeys isGap read ts
    else
      match t.kind with
      | .dot =>
        let (keys, rest) := readKeys isGap none ts
        (read.getD (.missing t.span.start) :: keys, rest)
      | .word style =>
        match read with
        | none => readKeys isGap (some ⟨style, t.text, t.span⟩) ts
        | some _ => stop
      | _ => stop

def isScalarPart (t : Token) : Bool := t.kind == .dot || t.kind == .word .bare

/-- The rest of a value that is no string: bare words and dots, and the space between them. -/
def moreOfScalar : List Token → List Char × List Token
  | [] => ([], [])
  | t :: ts =>
    if isScalarPart t || (t.kind == .space && ts.head?.any isScalarPart) then
      let (text, rest) := moreOfScalar ts
      (t.text ++ text, rest)
    else ([], t :: ts)

/-- A value without brackets. -/
def readWord (ts : List Token) : Word × List Token :=
  match ts with
  | [] => (.missing [], [])
  | t :: rest =>
    if isScalarPart t then
      let (text, rest) := moreOfScalar ts
      (⟨.bare, text, ⟨t.span.start, placeOf rest⟩⟩, rest)
    else
      match t.kind with
      | .word style => (⟨style, t.text, t.span⟩, rest)
      | _ => (.missing t.span.start, ts)

/-! ## Expressions -/

def dropFill (ts : List Token) : List Token := ts.dropWhile Token.isFill

/-- The items of an array, from behind its opening bracket or a comma on, and what follows its
closing bracket. -/
def readItems (readValue : List Token → Except Fault (Expression × List Token)) :
    Nat → List Token → Except Fault (List Expression × List Token)
  | 0, ts => .error (stuckAt ts)
  | bound + 1, ts => do
    match dropFill ts with
    | [] => throw (stuckAt [])
    | t :: rest =>
      if t.kind = .closeBracket then return ([], rest)
      let (item, rest) ← readValue (t :: rest)
      match dropFill rest with
      | [] => throw (stuckAt [])
      | t :: rest =>
        match t.kind with
        | .comma =>
          let (items, rest) ← readItems readValue bound rest
          return (item :: items, rest)
        | .closeBracket => return ([item], rest)
        | _ => throw (stuckAt (t :: rest))

/-- Keys with a value. -/
def readPair (isGap : Token → Bool)
    (readValue : List Token → Except Fault (Expression × List Token)) (ts : List Token) :
    Except Fault ((List Word × Expression) × List Token) := do
  let (keys, rest) := readKeys isGap none ts
  match rest with
  | [] => throw (stuckAt [])
  | t :: rest =>
    if t.kind = .equals then
      let (value, rest) ← readValue (rest.dropWhile isGap)
      return ((keys, value), rest)
    else throw (stuckAt (t :: rest))

/-- The pairs of an inline table, from behind its opening brace or a comma on, and what follows its
closing brace. -/
def readPairs (readValue : List Token → Except Fault (Expression × List Token)) :
    Nat → List Token → Except Fault (List (List Word × Expression) × List Token)
  | 0, ts => .error (stuckAt ts)
  | bound + 1, ts => do
    match dropFill ts with
    | [] => throw (stuckAt [])
    | t :: rest =>
      if t.kind = .closeBrace then return ([], rest)
      let (pair, rest) ← readPair Token.isFill readValue (t :: rest)
      match dropFill rest with
      | [] => throw (stuckAt [])
      | t :: rest =>
        match t.kind with
        | .comma =>
          let (pairs, rest) ← readPairs readValue bound rest
          return (pair :: pairs, rest)
        | .closeBrace => return ([pair], rest)
        | _ => throw (stuckAt (t :: rest))

/-- A value that may hold others down to a given depth. Every round of a loop takes a token, so the
number of tokens bounds it. -/
def readValue : Nat → List Token → Except Fault (Expression × List Token)
  | depth, ts =>
    match ts with
    | [] => .ok (.word (.missing []), [])
    | t :: inner =>
      match t.kind, depth with
      | .openBracket, 0 => .error (stuckAt ts)
      | .openBrace, 0 => .error (stuckAt ts)
      | .openBracket, depth + 1 => do
        let (items, rest) ← readItems (readValue depth) ts.length inner
        return (.array items ⟨t.span.start, placeOf rest⟩, rest)
      | .openBrace, depth + 1 => do
        let (pairs, rest) ← readPairs (readValue depth) ts.length inner
        return (.inlineTable pairs ⟨t.span.start, placeOf rest⟩, rest)
      | _, _ =>
        let (w, rest) := readWord ts
        .ok (.word w, rest)

/-- Brackets may be nested this deep, and as many keys may stand in a row with dots between them. -/
def maxDepth : Nat := 80

/-! ## Statements -/

def isGapOnLine (t : Token) : Bool := t.kind == .space

/-- What follows as many closing brackets. -/
def readClosing : Nat → List Token → Except Fault (List Token)
  | 0, ts => .ok ts
  | _ + 1, [] => .error (stuckAt [])
  | n + 1, t :: ts =>
    if t.kind = .closeBracket then readClosing n ts else .error (stuckAt (t :: ts))

/-- Whether a text goes on with an opening bracket. -/
def opensBracket (ts : List Token) : Bool := ts.head?.any fun t => t.kind == .openBracket

/-- A header, from its opening bracket on: two brackets are for a table among many. -/
def readHeader (ts : List Token) : Except Fault (Statement × List Token) := do
  let many := opensBracket (ts.drop 1)
  let brackets := if many then 2 else 1
  let (keys, rest) := readKeys isGapOnLine none (ts.drop brackets)
  let after ← readClosing brackets rest
  return (.header many keys ⟨placeOf ts, placeOf after⟩, after)

/-- What follows the rest of a line. -/
def readLineEnd (ts : List Token) : Except Fault (List Token) :=
  match ts.dropWhile Token.isTrailing with
  | [] => .ok []
  | t :: rest => if t.endsLine then .ok rest else .error (stuckAt (t :: rest))

/-- The statement of a line that has one, from its first token on. -/
def readStatement (ts : List Token) : Except Fault (Statement × List Token) :=
  if opensBracket ts then readHeader ts
  else do
    let ((keys, value), rest) ← readPair isGapOnLine (readValue maxDepth) ts
    return (.assign keys value, rest)

/-- The statements of a document, line by line. -/
def readStatements : Nat → List Token → List Statement
  | 0, _ => []
  | bound + 1, ts =>
    match dropFill ts with
    | [] => []
    | ts =>
      match readStatement ts with
      | .error f => [.unreadable (opensBracket ts) f]
      | .ok (statement, rest) =>
        match readLineEnd rest with
        | .error f => [statement, .unreadable false f]
        | .ok rest => statement :: readStatements bound rest

/-- The statements of a document; a byte order mark at its start is left out. -/
def statements (document : List Char) : List Statement :=
  let ts := match document with
    | '\uFEFF' :: cs => tokens cs
    | cs => tokens cs
  readStatements ts.length ts

end Toml
end AlphaCodemod
