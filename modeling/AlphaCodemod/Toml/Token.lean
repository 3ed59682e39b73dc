/-
The tokens of a document: marks, space, line ends, comments and words. A word is a string, or
whatever else stands between marks and space; what it says is not looked at here. Every text has
tokens, and they are its characters in order.
-/
import AlphaCodemod.Toml.Span
import AlphaCodemod.Toml.Text

namespace AlphaCodemod
namespace Toml

/-- How a word is written: bare, as a string on one line, or as a string of several lines. -/
inductive Style where
  | bare
  | line (q : Quote)
  | lines (q : Quote)
deriving DecidableEq, Repr

inductive TokenKind where
  | dot
  | equals
  | comma
  | openBracket
  | closeBracket
  | openBrace
  | closeBrace
  | space
  | lineEnd
  | comment
  | word (style : Style)
deriving DecidableEq, Repr

/-- A token: its kind, its characters and its place. -/
structure Token where
  kind : TokenKind
  text : List Char
  span : Span
deriving DecidableEq, Repr

/-! ## Lengths -/

/-- How many characters of a string on one line follow its opening quote. The string ends behind its
closing quote, or before the end of the line. -/
def lineLength (q : Quote) : List Char → Nat
  | [] => 0
  | c :: cs =>
    if c = q.char then 1
    else if c = '\n' then 0
    else if c = '\\' ∧ q = .double then
      match cs with
      | d :: rest =>
        if d = '"' ∨ d = '\\' then lineLength q rest + 2 else lineLength q (d :: rest) + 1
      | [] => 1
    else lineLength q cs + 1

/-- How many characters of a string of several lines follow its opening quotes. -/
def linesLength (q : Quote) : List Char → Nat
  | [] => 0
  | c :: cs =>
    match close? q.char (c :: cs) with
    | some (more, _) => more.length + 3
    | none =>
      if c = '\\' ∧ q = .double then
        match cs with
        | d :: rest =>
          if d = '"' ∨ d = '\\' then linesLength q rest + 2 else linesLength q (d :: rest) + 1
        | [] => 1
      else linesLength q cs + 1

/-- The characters of a bare word: all but marks, space and line ends. -/
def isBare (c : Char) : Bool :=
  c ∉ ['.', '=', ',', '[', ']', '{', '}', '#', ' ', '\t', '\r', '\n']

/-- A string between given quotes: one of several lines opens with three. -/
def stringToken (q : Quote) (cs : List Char) : TokenKind × Nat :=
  match cs with
  | a :: b :: rest =>
    if a = q.char ∧ b = q.char then (.word (.lines q), linesLength q rest + 2)
    else (.word (.line q), lineLength q cs)
  | _ => (.word (.line q), lineLength q cs)

/-- The kind of a token with a given first character, and how many more characters it has. -/
def firstToken (c : Char) (cs : List Char) : TokenKind × Nat :=
  match c with
  | '.' => (.dot, 0)
  | '=' => (.equals, 0)
  | ',' => (.comma, 0)
  | '[' => (.openBracket, 0)
  | ']' => (.closeBracket, 0)
  | '{' => (.openBrace, 0)
  | '}' => (.closeBrace, 0)
  | ' ' => (.space, (cs.takeWhile isSpace).length)
  | '\t' => (.space, (cs.takeWhile isSpace).length)
  | '\n' => (.lineEnd, 0)
  | '\r' => (.lineEnd, if cs.head? = some '\n' then 1 else 0)
  | '#' => (.comment, (cs.takeWhile fun c => c != '\r' && c != '\n').length)
  | '"' => stringToken .double cs
  | '\'' => stringToken .single cs
  | _ => (.word .bare, (cs.takeWhile isBare).length)

/-! ## Tokens -/

/-- The tokens of a text. -/
def tokens : List Char → List Token
  | [] => []
  | c :: cs =>
    let (kind, more) := firstToken c cs
    ⟨kind, c :: cs.take more, ⟨c :: cs, cs.drop more⟩⟩ :: tokens (cs.drop more)
termination_by cs => cs.length

/-- No character is lost. -/
theorem flatMap_text_tokens (cs : List Char) : (tokens cs).flatMap Token.text = cs := by
  fun_induction tokens cs with
  | case1 => rfl
  | case2 c cs kind more _ ih => simp [ih]

namespace Token

/-- Spaces and comments, as they may stand at the end of a line. A comment holds no control
characters. -/
def isTrailing (t : Token) : Bool :=
  match t.kind with
  | .space => true
  | .comment => t.text.all isPlain
  | _ => false

/-- A carriage return does not end a line on its own. -/
def endsLine (t : Token) : Bool := t.kind == .lineEnd && t.text != ['\r']

/-- Space, comments and line ends, as they may stand between brackets. -/
def isFill (t : Token) : Bool := t.isTrailing || t.endsLine

end Token
end Toml
end AlphaCodemod
