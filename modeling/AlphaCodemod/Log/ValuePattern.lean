/-
Patterns for the values of fields. A directive of a log filter may ask for a field with a value,
given as a boolean, a number or a regular expression. No event here has a span to look for values
in, so only the form of a pattern matters.
-/
import AlphaCodemod.Number.Decimal
import AlphaCodemod.Regex.Basic

namespace AlphaCodemod
namespace Log

/-- Whether a text is a number once its plus sign is gone, as no regular expression is. -/
def isUnsigned (cs : List Char) : Bool :=
  let tail := cs.dropWhile isDigit
  let digits := cs.takeWhile isDigit
  let (fraction, tail) := match tail with
    | '.' :: tail => (tail.takeWhile isDigit, tail.dropWhile isDigit)
    | tail => ([], tail)
  let isExponent (es : List Char) : Bool :=
    let ds := match es with
      | '+' :: ds => ds
      | '-' :: ds => ds
      | ds => ds
    !ds.isEmpty && ds.all isDigit
  (["inf", "infinity", "nan"].map String.toList).contains (cs.map Char.toLower) ||
    (!(digits ++ fraction).isEmpty &&
      match tail with
      | [] => true
      | e :: es => (e == 'e' || e == 'E') && isExponent es)

/-- Whether a text can stand for the value of a field: it is a boolean, a number or a regular
expression. Of the former only a number with a plus sign is not among the latter. -/
def isValuePattern (cs : List Char) : Bool :=
  match cs with
  | '+' :: number => isUnsigned number
  | _ => isRegex cs

end Log
end AlphaCodemod
