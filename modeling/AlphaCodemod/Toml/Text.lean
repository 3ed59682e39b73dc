/-
Strings of a document: between single or double quotes, on one line or, between three quotes, on
several. Escapes belong to double quotes.
-/
namespace AlphaCodemod
namespace Toml

/-! ## Characters -/

/-- Spaces and tabs. -/
def isSpace (c : Char) : Bool := c == ' ' || c == '\t'

/-- Characters that strings and comments may hold as they are: all but control characters, the tab
excepted. -/
def isPlain (c : Char) : Bool := c == '\t' || (decide (0x20 ≤ c.toNat) && c.toNat != 0x7F)

def hexValue? (c : Char) : Option Nat :=
  if '0' ≤ c ∧ c ≤ '9' then some (c.toNat - '0'.toNat)
  else if 'a' ≤ c ∧ c ≤ 'f' then some (c.toNat - 'a'.toNat + 10)
  else if 'A' ≤ c ∧ c ≤ 'F' then some (c.toNat - 'A'.toNat + 10)
  else none

/-! ## Escapes -/

/-- The character whose code point is spelled by all of the given hexadecimal digits. -/
def charOfHex? (ds : List Char) : Option Char := do
  let code ← ds.foldlM (fun n d => return n * 16 + (← hexValue? d)) 0
  if code.isValidChar then some (Char.ofNat code) else none

/-- A code point of exactly `n` digits, and what follows it. -/
def readCode? (n : Nat) (cs : List Char) : Option (Char × List Char) :=
  if n ≤ cs.length then (charOfHex? (cs.take n)).map (·, cs.drop n) else none

/-- The character of an escape, from behind its backslash on, and what follows it. -/
def readEscape? : List Char → Option (Char × List Char)
  | [] => none
  | c :: cs =>
    match c with
    | 'b' => some ('\x08', cs)
    | 't' => some ('\t', cs)
    | 'n' => some ('\n', cs)
    | 'f' => some ('\x0c', cs)
    | 'r' => some ('\r', cs)
    | 'e' => some ('\x1b', cs)
    | '"' => some ('"', cs)
    | '\\' => some ('\\', cs)
    | 'x' => readCode? 2 cs
    | 'u' => readCode? 4 cs
    | 'U' => readCode? 8 cs
    | _ => none

theorem length_le_of_readCode? {n : Nat} {cs rest : List Char} {c : Char}
    (h : readCode? n cs = some (c, rest)) : rest.length ≤ cs.length := by
  unfold readCode? at h
  split at h
  · obtain ⟨_, _, heq⟩ := Option.map_eq_some_iff.1 h
    cases heq
    simp
  · cases h

theorem length_lt_of_readEscape? {cs rest : List Char} {c : Char}
    (h : readEscape? cs = some (c, rest)) : rest.length < cs.length := by
  cases cs with
  | nil => cases h
  | cons c cs =>
    have hle : rest.length ≤ cs.length := by
      unfold readEscape? at h
      dsimp only at h
      split at h
      all_goals first
        | exact length_le_of_readCode? h
        | (cases h; done)
        | (cases h; exact Nat.le_refl _)
    simp only [List.length_cons]
    omega

/-! ## Strings -/

/-- Which quotes a string stands between. -/
inductive Quote where
  | double
  | single
deriving DecidableEq, Repr

def Quote.char : Quote → Char
  | .double => '"'
  | .single => '\''

/-- A string on one line, from behind its opening quote on, and what follows its closing one. -/
def readLine? (q : Quote) (cs : List Char) : Option (List Char × List Char) :=
  match cs with
  | [] => none
  | c :: cs =>
    if c = q.char then some ([], cs)
    else if c = '\\' ∧ q = .double then
      match h : readEscape? cs with
      | some (c, rest) =>
        have := length_lt_of_readEscape? h
        (readLine? q rest).map fun (text, rest) => (c :: text, rest)
      | none => none
    else if isPlain c then (readLine? q cs).map fun (text, rest) => (c :: text, rest)
    else none
termination_by cs.length

/-- What follows a line end, if there is one here. -/
def lineEnd? : List Char → Option (List Char)
  | '\n' :: cs => some cs
  | '\r' :: '\n' :: cs => some cs
  | _ => none

/-- Without the spaces and line ends at its start. -/
def dropGap : List Char → List Char
  | ' ' :: cs => dropGap cs
  | '\t' :: cs => dropGap cs
  | '\n' :: cs => dropGap cs
  | '\r' :: '\n' :: cs => dropGap cs
  | cs => cs

theorem length_dropGap_le (cs : List Char) : (dropGap cs).length ≤ cs.length := by
  fun_induction dropGap cs <;> simp <;> omega

/-- The quotes that end a string of several lines: three of them, and up to two more before them
that belong to the string. -/
def close? (q : Char) : List Char → Option (List Char × List Char)
  | a :: b :: c :: cs =>
    if a = q ∧ b = q ∧ c = q then
      match cs with
      | d :: e :: rest =>
        if d = q then if e = q then some ([q, q], rest) else some ([q], e :: rest)
        else some ([], cs)
      | [d] => if d = q then some ([q], []) else some ([], cs)
      | [] => some ([], [])
    else none
  | _ => none

/-- A string of several lines, from behind its opening quotes on, and what follows its closing ones.
A backslash at the end of a line takes the line end, and all space up to the next text, with it. -/
def readLines? (q : Quote) (cs : List Char) : Option (List Char × List Char) :=
  match close? q.char cs with
  | some found => some found
  | none =>
    match cs with
    | [] => none
    | c :: cs =>
      if c = '\\' ∧ q = .double then
        if (lineEnd? (cs.dropWhile isSpace)).isSome then
          have := length_dropGap_le cs
          readLines? q (dropGap cs)
        else
          match h : readEscape? cs with
          | some (c, rest) =>
            have := length_lt_of_readEscape? h
            (readLines? q rest).map fun (text, rest) => (c :: text, rest)
          | none => none
      else if isPlain c || (lineEnd? (c :: cs)).isSome then
        (readLines? q cs).map fun (text, rest) => (c :: text, rest)
      else none
termination_by cs.length

/-- A line end right behind the opening quotes does not belong to the string. -/
def dropFirstLineEnd (cs : List Char) : List Char := (lineEnd? cs).getD cs

end Toml
end AlphaCodemod
