/-
Values of a document, and the words that spell them. Keys and values know their places.
-/
import AlphaCodemod.Toml.Moment
import AlphaCodemod.Toml.Number
import AlphaCodemod.Toml.Token

namespace AlphaCodemod
namespace Toml

/-- A key; its place takes in the quotes. -/
abbrev Key := Located String

/-- A number that stands for none, or for one that is too great, has no value. What an inline table
holds is checked where it is read, and not kept. -/
inductive Value where
  | string (s : String)
  | integer (n : Option Int)
  | float (x : Option Binary64)
  | boolean (b : Bool)
  | moment
  | array (items : List (Located Value))
  | inlineTable
deriving Repr

/-- What a value is called where it cannot be extended. -/
def Value.kind : Value → String
  | .string _ => "string"
  | .integer _ => "integer"
  | .float _ => "float"
  | .boolean _ => "boolean"
  | .moment => "datetime"
  | .array _ => "array"
  | .inlineTable => "inline table"

/-- A key, or a value without brackets, as it is written. Where one is missing stands an empty
word. -/
structure Word where
  style : Style
  text : List Char
  span : Span
deriving DecidableEq, Repr

namespace Word

/-- The missing word at a place. -/
def missing (place : List Char) : Word := ⟨.bare, [], ⟨place, place⟩⟩

/-- What stands between the quotes of a string. -/
def string? (w : Word) : Option (List Char) :=
  let found := match w.style with
    | .bare => none
    | .line q => readLine? q (w.text.drop 1)
    | .lines q => readLines? q (dropFirstLineEnd (w.text.drop 3))
  match found with
  | some (text, []) => some text
  | _ => none

def isBareKey (c : Char) : Bool :=
  ('a' ≤ c && c ≤ 'z') || ('A' ≤ c && c ≤ 'Z') || isDigit c || c == '_' || c == '-'

/-- The key that a word spells: a bare one, or a string on one line. -/
def key? (w : Word) : Option (List Char) :=
  match w.style with
  | .bare => if w.text.isEmpty || !w.text.all isBareKey then none else some w.text
  | .line _ => w.string?
  | .lines _ => none

/-- The value that a bare word spells. -/
def scalar? (cs : List Char) : Option Value :=
  if cs = ['t', 'r', 'u', 'e'] then some (.boolean true)
  else if cs = ['f', 'a', 'l', 's', 'e'] then some (.boolean false)
  else if isMoment cs then some .moment
  else
    match number? cs with
    | some (.integer n) => some (.integer n)
    | some (.float x) => some (.float x)
    | none => none

def value? (w : Word) : Option Value :=
  match w.style with
  | .bare => scalar? w.text
  | _ => w.string?.map fun text => .string (String.ofList text)

/-- The key of a word, or that it is none. -/
def key (w : Word) : Except Fault Key :=
  match w.key? with
  | some text => .ok ⟨String.ofList text, w.span⟩
  | none => .error (.unreadable w.span)

/-- The value of a word, or that it has none. -/
def value (w : Word) : Except Fault (Located Value) :=
  match w.value? with
  | some v => .ok ⟨v, w.span⟩
  | none => .error (.unreadable w.span)

end Word
end Toml
end AlphaCodemod
