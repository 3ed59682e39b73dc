/-
Texts for a reader that is no terminal: the control characters and control sequences that would
steer one are left out. A sequence that is not finished takes what follows it along. A character
that lays out the text is kept within most sequences too; what becomes of the sequence then differs
between a text that is handed over and one that is printed.
-/
import AlphaCodemod.Text.Utf8

namespace AlphaCodemod

/-- What is made of a text without controls: it is handed over, or printed. -/
inductive Medium where
  | text
  | stream
deriving DecidableEq, Repr

namespace Terminal

/-- Where in a control sequence a text stands. -/
inductive State where
  /-- outside of any -/
  | text
  /-- behind an escape character -/
  | escape
  /-- behind an escape character and marks that call for one more character -/
  | escapeMarks
  /-- among the parameters of a command -/
  | parameters
  /-- in a title or a link -/
  | title
  /-- at the start of a command for the device -/
  | deviceStart
  /-- among the parameters of a command for the device -/
  | deviceParameters
  /-- behind the marks of a command for the device -/
  | deviceMarks
  /-- in a string for the device -/
  | device
deriving DecidableEq, Repr

/-- The control characters that lay out a text: tab, line feed, form feed and carriage return. -/
def isLayout (c : Char) : Bool := c == '\t' || c == '\n' || c == '\x0c' || c == '\r'

/-- Whether a character lies between two others. -/
def isWithin (low high c : Char) : Bool := low ≤ c && c ≤ high

/-- Whether a character ends a string for the device: the byte 9C is among its bytes. -/
def endsDevice (c : Char) : Bool := (Utf8.encode [c]).contains 0x9C

/-- The state behind a character that follows an escape character. -/
def afterEscape (c : Char) : State :=
  match c with
  | '[' => .parameters
  | ']' => .title
  | 'P' => .deviceStart
  | 'X' => .device
  | '^' => .device
  | '_' => .device
  | _ =>
    if isWithin ' ' '/' c then .escapeMarks
    else if isWithin '0' '~' c then .text
    else .escape

/-- The state behind a character in the head of a command for the device, for the state that digits
lead to. -/
def afterDevice (s digits : State) (c : Char) : State :=
  if isWithin ' ' '/' c then .deviceMarks
  else if isWithin '0' '9' c || c == ';' then digits
  else if isWithin '<' '?' c && s = .deviceStart then .deviceParameters
  else if isWithin ':' '~' c then .device
  else s

/-- The state behind a character. An escape character starts over wherever it stands. -/
def next (s : State) (c : Char) : State :=
  if c = '\x1b' then .escape
  else if c = '\x18' ∨ c = '\x1a' then .text
  else
    match s with
    | .text => .text
    | .escape => afterEscape c
    | .escapeMarks => if isWithin '0' '~' c then .text else .escapeMarks
    | .parameters => if isWithin '@' '~' c then .text else .parameters
    | .title => if c = '\x07' then .text else .title
    | .deviceStart => afterDevice .deviceStart .deviceParameters c
    | .deviceParameters => afterDevice .deviceParameters .deviceParameters c
    | .deviceMarks => afterDevice .deviceMarks .device c
    | .device => if endsDevice c then .text else .device

/-- Whether a character is kept in a state. Outside of sequences the control characters are not, but
for those that lay out the text; they are kept also where parameters may stand. -/
def isKept (s : State) (c : Char) : Bool :=
  match s with
  | .text => isLayout c || (decide (' ' ≤ c) && c != '\x7f')
  | .escape => isLayout c
  | .escapeMarks => isLayout c
  | .parameters => isLayout c
  | _ => false

/-- What is kept of a text that is handed over, from a state on. What is kept within a sequence
breaks it off. -/
def keptOfText : State → List Char → List Char
  | _, [] => []
  | s, c :: cs => if isKept s c then c :: keptOfText .text cs else keptOfText (next s c) cs

/-- What is kept of a text that is printed, from a state on. What is kept within a sequence, and
what could stand in a text behind it, interrupts the sequence, until a control character comes or
a character that is no ASCII breaks it off. -/
def keptOfStream : State → Bool → List Char → List Char
  | _, _, [] => []
  | s, interrupted, c :: cs =>
    if isKept (if interrupted then .text else s) c then
      c :: keptOfStream (if c.toNat < 128 then s else .text) true cs
    else keptOfStream (next s c) false cs

end Terminal

/-- A text without what would steer a terminal. -/
def withoutControls (m : Medium) (s : String) : String :=
  String.ofList <|
    match m with
    | .text => Terminal.keptOfText .text s.toList
    | .stream => Terminal.keptOfStream .text false s.toList

end AlphaCodemod
