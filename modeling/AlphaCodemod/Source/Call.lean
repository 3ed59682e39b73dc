/-
Opacity calls: `.withOpacity(` number `)` with blanks allowed around the number, and the alpha
call that takes the place of one. The reader looks at the start of a text; what it reads, written
out again and followed by the rest, is that text (`OpacityCall.eq_append_of_read?`).
-/
import AlphaCodemod.Text.Blank
import AlphaCodemod.Opacity

namespace AlphaCodemod

/-! ## Numerals -/

/-- An unsigned number as it is spelled. It has a point exactly when it has a fraction. -/
structure Numeral where
  whole : List Char
  fraction : List Char
deriving DecidableEq, Repr

namespace Numeral

def text (n : Numeral) : List Char :=
  if n.fraction.isEmpty then n.whole else n.whole ++ '.' :: n.fraction

def value (n : Numeral) : Decimal := .ofDigits n.whole n.fraction

/-- Digits only, and at least one in the last place. -/
structure WellFormed (n : Numeral) : Prop where
  whole : ∀ c ∈ n.whole, isDigit c
  fraction : ∀ c ∈ n.fraction, isDigit c
  nonempty : n.whole ≠ [] ∨ n.fraction ≠ []

/-- The numeral at the start of a text, with what follows it. A point has to be followed by a
digit. -/
def read? (cs : List Char) : Option (Numeral × List Char) :=
  let whole := cs.takeWhile isDigit
  match cs.dropWhile isDigit with
  | '.' :: rest =>
    let fraction := rest.takeWhile isDigit
    if fraction.isEmpty then none else some (⟨whole, fraction⟩, rest.dropWhile isDigit)
  | rest => if whole.isEmpty then none else some (⟨whole, []⟩, rest)

theorem eq_append_of_read? {cs rest : List Char} {n : Numeral} (h : read? cs = some (n, rest)) :
    cs = n.text ++ rest := by
  have split : ∀ l : List Char, l.takeWhile isDigit ++ l.dropWhile isDigit = l := fun l =>
    List.takeWhile_append_dropWhile
  unfold read? at h
  dsimp only at h
  have hcs := split cs
  split at h
  · next tail hd =>
    have htail := split tail
    split at h
    · cases h
    · next hne =>
      cases h
      rw [hd] at hcs
      simp only [text, hne]
      rw [if_neg (by simp), List.append_assoc, List.cons_append, htail, hcs]
  · split at h
    · cases h
    · cases h
      simp [text, hcs]

end Numeral

/-! ## Calls -/

/-- A call with a literal opacity. -/
structure OpacityCall where
  before : List Char
  number : Numeral
  after : List Char
deriving DecidableEq, Repr

namespace OpacityCall

/-- The opening of an opacity call. -/
def opening : List Char := ['.', 'w', 'i', 't', 'h', 'O', 'p', 'a', 'c', 'i', 't', 'y', '(']

/-- The call as it stands in a source. -/
def text (call : OpacityCall) : List Char :=
  opening ++ (call.before ++ (call.number.text ++ (call.after ++ [')'])))

/-- Blanks around a well-formed number. -/
structure WellFormed (call : OpacityCall) : Prop where
  before : ∀ c ∈ call.before, isBlank c
  number : call.number.WellFormed
  after : ∀ c ∈ call.after, isBlank c

/-- The alpha that the call asks for. -/
def alpha (call : OpacityCall) : Alpha := call.number.value.alpha

/-- What remains of a text behind a given start of it. -/
def dropStart? : List Char → List Char → Option (List Char)
  | [], cs => some cs
  | _ :: _, [] => none
  | s :: start, c :: cs => if s = c then dropStart? start cs else none

theorem eq_append_of_dropStart? {start cs rest : List Char} (h : dropStart? start cs = some rest) :
    cs = start ++ rest := by
  induction start generalizing cs with
  | nil => simpa [dropStart?] using h
  | cons s start ih =>
    cases cs with
    | nil => simp [dropStart?] at h
    | cons c cs =>
      by_cases hc : s = c
      · rw [dropStart?, if_pos hc] at h
        rw [ih h, hc, List.cons_append]
      · rw [dropStart?, if_neg hc] at h
        cases h

/-- The call at the start of a text, with what follows it. -/
def read? (cs : List Char) : Option (OpacityCall × List Char) := do
  let cs ← dropStart? opening cs
  let before := cs.takeWhile isBlank
  let (number, cs) ← Numeral.read? (cs.dropWhile isBlank)
  let after := cs.takeWhile isBlank
  match cs.dropWhile isBlank with
  | ')' :: rest => some (⟨before, number, after⟩, rest)
  | _ => none

theorem eq_append_of_read? {cs rest : List Char} {call : OpacityCall}
    (h : read? cs = some (call, rest)) : cs = call.text ++ rest := by
  have split : ∀ l : List Char, l.takeWhile isBlank ++ l.dropWhile isBlank = l := fun l =>
    List.takeWhile_append_dropWhile
  simp only [read?, Option.bind_eq_bind, Option.bind_eq_some_iff] at h
  obtain ⟨inner, hinner, ⟨number, tail⟩, hnumber, h⟩ := h
  dsimp only at h
  split at h
  · next close =>
    cases h
    have hafter := split tail
    rw [close] at hafter
    rw [eq_append_of_dropStart? hinner, text]
    simp only [List.append_assoc, List.cons_append, List.nil_append]
    rw [hafter, ← Numeral.eq_append_of_read? hnumber, split]
  · cases h

/-- A call is never empty. -/
theorem length_lt_of_read? {cs rest : List Char} {call : OpacityCall}
    (h : read? cs = some (call, rest)) : rest.length < cs.length := by
  rw [eq_append_of_read? h]
  simp [text, opening]
  omega

end OpacityCall

/-- The call that asks for an alpha: `.withAlpha(` and the number, without blanks. -/
def Alpha.call (a : Alpha) : List Char :=
  ['.', 'w', 'i', 't', 'h', 'A', 'l', 'p', 'h', 'a', '('] ++ (decimalDigits a.val ++ [')'])

end AlphaCodemod
