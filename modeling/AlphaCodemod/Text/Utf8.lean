/-
UTF-8 on lists of bytes: the encoding of a text, and reading bytes back as characters. Bytes that
are no UTF-8 are read as faults, one for each longest start of a character that cannot be finished
(or for each byte that starts none), so that a strict reading refuses exactly the texts with a
fault and a lenient one shows each fault as one replacement character.
-/
namespace AlphaCodemod

/-- File contents, paths and reports are bytes first; text is one reading of them. -/
abbrev Bytes := List UInt8

namespace Utf8

/-! ## Writing -/

/-- The bytes of one character. -/
def encodeChar (c : Char) : Bytes :=
  let n := c.toNat
  if n < 0x80 then [.ofNat n]
  else if n < 0x800 then [.ofNat (0xC0 + n / 64), .ofNat (0x80 + n % 64)]
  else if n < 0x10000 then
    [.ofNat (0xE0 + n / 4096), .ofNat (0x80 + n / 64 % 64), .ofNat (0x80 + n % 64)]
  else
    [.ofNat (0xF0 + n / 262144), .ofNat (0x80 + n / 4096 % 64), .ofNat (0x80 + n / 64 % 64),
      .ofNat (0x80 + n % 64)]

/-- The bytes of a text. -/
def encode (cs : List Char) : Bytes := cs.flatMap encodeChar

/-- How many bytes a text takes. -/
def size (cs : List Char) : Nat := (encode cs).length

/-! ## Reading -/

/-- A character that has been started: the bits read so far, how many bytes are still owed, and
the range in which the next of them has to lie. -/
structure Started where
  bits : Nat
  owed : Nat
  low : Nat
  high : Nat
deriving DecidableEq, Repr

/-- What a byte between two characters is. -/
inductive First where
  | whole (c : Char)
  | start (s : Started)
  | fault
deriving DecidableEq, Repr

/-- The ranges of the second byte leave out overlong forms, surrogates and what lies beyond the
last code point. -/
def first (b : UInt8) : First :=
  let n := b.toNat
  if n < 0x80 then .whole (Char.ofNat n)
  else if 0xC2 ≤ n ∧ n ≤ 0xDF then .start ⟨n - 0xC0, 1, 0x80, 0xBF⟩
  else if n = 0xE0 then .start ⟨0, 2, 0xA0, 0xBF⟩
  else if n = 0xED then .start ⟨13, 2, 0x80, 0x9F⟩
  else if 0xE1 ≤ n ∧ n ≤ 0xEF then .start ⟨n - 0xE0, 2, 0x80, 0xBF⟩
  else if n = 0xF0 then .start ⟨0, 3, 0x90, 0xBF⟩
  else if 0xF1 ≤ n ∧ n ≤ 0xF3 then .start ⟨n - 0xF0, 3, 0x80, 0xBF⟩
  else if n = 0xF4 then .start ⟨4, 3, 0x80, 0x8F⟩
  else .fault

/-- The characters of `bs` in order, with `none` for each fault. The first argument is the
character that is being read, if any. -/
def readFrom : Option Started → Bytes → List (Option Char)
  | none, [] => []
  | some _, [] => [none]
  | none, b :: bs =>
    match first b with
    | .whole c => some c :: readFrom none bs
    | .start s => readFrom (some s) bs
    | .fault => none :: readFrom none bs
  | some s, b :: bs =>
    if s.low ≤ b.toNat ∧ b.toNat ≤ s.high then
      let bits := s.bits * 64 + (b.toNat - 0x80)
      if s.owed ≤ 1 then some (Char.ofNat bits) :: readFrom none bs
      else readFrom (some ⟨bits, s.owed - 1, 0x80, 0xBF⟩) bs
    else
      none ::
        match first b with
        | .whole c => some c :: readFrom none bs
        | .start s' => readFrom (some s') bs
        | .fault => none :: readFrom none bs

def read (bs : Bytes) : List (Option Char) := readFrom none bs

/-- The text that `bs` encode, if they are UTF-8. -/
def decode? (bs : Bytes) : Option (List Char) := (read bs).mapM id

/-- The replacement character U+FFFD. -/
def replacement : Char := '�'

/-- The text that `bs` encode, each fault shown as a replacement character. -/
def decodeLossy (bs : Bytes) : List Char := (read bs).map (·.getD replacement)

end Utf8
end AlphaCodemod
