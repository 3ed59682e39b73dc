/-
Places in a document, and faults shown at them. A place is named by the text that follows it, so a
reader need not count; lines and columns are worked out when a fault is shown.
-/
import AlphaCodemod.Text.Utf8

namespace AlphaCodemod
namespace Toml

/-- A stretch of a document: what follows its start, and what follows its end. -/
structure Span where
  start : List Char
  stop : List Char
deriving DecidableEq, Repr

/-- Something read from a document, with its place. -/
structure Located (α : Type) where
  value : α
  span : Span
deriving DecidableEq, Repr

/-- A fault, with its place if it has one, and the reason in words. -/
structure Fault where
  span : Option Span
  reason : String
deriving DecidableEq, Repr

namespace Fault

/-- A fault at a place. -/
def located (span : Span) (reason : String) : Fault := ⟨some span, reason⟩

/-- What cannot be read. All such faults have one text: the words for what was expected in its place
are left out. -/
def unreadable (span : Span) : Fault := .located span "invalid syntax"

/-- Where a fault is: its line and column, the line itself, and the stretch marked below it as far
as it lies on that line. Columns count characters, marks count bytes. -/
def placeText (document : List Char) (span : Span) : String :=
  let before := document.take (document.length - span.start.length)
  let number := toString (before.count '\n' + 1)
  let onLine := (before.reverse.takeWhile (· ≠ '\n')).reverse
  let line := onLine ++ span.start.takeWhile (· ≠ '\n')
  let column := onLine.length
  let marked := Utf8.size (span.start.take (span.start.length - span.stop.length))
  let marks := max 1 (min marked (Utf8.size line - column))
  let gutter := String.ofList (List.replicate (number.length + 1) ' ')
  "TOML parse error at line " ++ number ++ ", column " ++ toString (column + 1) ++ "\n" ++
    gutter ++ "|\n" ++
    number ++ " | " ++ String.ofList line ++ "\n" ++
    gutter ++ "|" ++ String.ofList (List.replicate (column + 1) ' ') ++
    String.ofList (List.replicate marks '^') ++ "\n"

/-- The fault as it is shown: its place, if it has one, and the reason. -/
def text (document : List Char) (f : Fault) : String :=
  (f.span.map (placeText document)).getD "" ++ f.reason ++ "\n"

end Fault
end Toml
end AlphaCodemod
