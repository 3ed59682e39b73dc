/-
Quoted texts as messages show them: between double quotes, with escapes for quotes, backslashes and
everything that would not be seen.
-/
import AlphaCodemod.Text.Shown

namespace AlphaCodemod

/-- A character within a quoted text. -/
def quotedChar (c : Char) : List Char :=
  match c with
  | '\x00' => ['\\', '0']
  | '\t' => ['\\', 't']
  | '\r' => ['\\', 'r']
  | '\n' => ['\\', 'n']
  | '"' => ['\\', '"']
  | '\\' => ['\\', '\\']
  | _ =>
    if isShown c then [c]
    else ['\\', 'u', '{'] ++ Nat.toDigits 16 c.toNat ++ ['}']

def quoted (cs : List Char) : List Char := '"' :: cs.flatMap quotedChar ++ ['"']

end AlphaCodemod
