/-
Strings as they are written between double quotes, and arrays of them. Quotes, backslashes and control characters
are escaped, so that whatever a string holds, the first quote that is not escaped ends it. It is read back in three
stages: as one token (`tokens_written`), as an expression, and as the value of that (`readValue_datum`).
-/
import AlphaCodemod.Toml.Table
import Mathlib.Data.List.Basic

namespace AlphaCodemod
namespace Toml

/-! ## Writing -/

/-- The hexadecimal digit of a number below sixteen, in small or in capital letters. -/
def hexDigit (capital : Bool) (n : Nat) : Char :=
  if n < 10 then Char.ofNat ('0'.toNat + n)
  else Char.ofNat ((if capital then 'A' else 'a').toNat + (n - 10))

def isControl (c : Char) : Bool := decide (c.toNat < 0x20) || c.toNat == 0x7F

/-- A character as it stands in a string between double quotes. -/
def escapedChar (capital : Bool) (c : Char) : List Char :=
  if c = '"' ∨ c = '\\' then ['\\', c]
  else if isControl c then
    ['\\', 'u', '0', '0', hexDigit capital (c.toNat / 16), hexDigit capital (c.toNat % 16)]
  else [c]

def escaped (capital : Bool) (text : List Char) : List Char := text.flatMap (escapedChar capital)

/-- A string between double quotes. -/
def written (capital : Bool) (s : String) : List Char := '"' :: (escaped capital s.toList ++ ['"'])

/-- Strings with commas between them. -/
def writtenItems (capital : Bool) (ss : List String) : List Char :=
  List.intercalate [',', ' '] (ss.map (written capital))

/-- What is written behind a key: a string, or an array of strings. -/
inductive Datum where
  | string (s : String)
  | strings (ss : List String)
deriving DecidableEq, Repr

namespace Datum

def written (capital : Bool) : Datum → List Char
  | .string s => Toml.written capital s
  | .strings ss => '[' :: (writtenItems capital ss ++ [']'])

/-- Places apart, a value is what was written. -/
def Is : Datum → Value → Prop
  | .string s, v => v = .string s
  | .strings ss, v => ∃ items : List (Located Value), v = .array items ∧ items.map (·.value) = ss.map .string

end Datum

/-! ## Escapes -/

variable {capital : Bool}

theorem hexValue?_hexDigit (capital : Bool) {n : Nat} (h : n < 16) : hexValue? (hexDigit capital n) = some n := by
  have hall : ∀ capital : Bool, ∀ n < 16, hexValue? (hexDigit capital n) = some n := by decide
  exact hall capital n h

theorem hexDigit_ne (capital : Bool) {n : Nat} (h : n < 16) :
    hexDigit capital n ≠ '"' ∧ hexDigit capital n ≠ '\n' ∧ hexDigit capital n ≠ '\\' := by
  have hall : ∀ capital : Bool, ∀ n < 16,
      hexDigit capital n ≠ '"' ∧ hexDigit capital n ≠ '\n' ∧ hexDigit capital n ≠ '\\' := by decide
  exact hall capital n h

theorem isControl_iff {c : Char} : isControl c = true ↔ c.toNat < 0x20 ∨ c.toNat = 0x7F := by
  simp [isControl]

/-- An escaped control character is read back. -/
theorem readEscape?_control {c : Char} (h : isControl c = true) (rest : List Char) :
    readEscape? ('u' :: '0' :: '0' :: hexDigit capital (c.toNat / 16) :: hexDigit capital (c.toNat % 16) :: rest) =
      some (c, rest) := by
  rw [isControl_iff] at h
  have hhigh := hexValue?_hexDigit capital (n := c.toNat / 16) (by omega)
  have hlow := hexValue?_hexDigit capital (n := c.toNat % 16) (by omega)
  have hzero : hexValue? '0' = some 0 := rfl
  have hcode : c.toNat / 16 * 16 + c.toNat % 16 = c.toNat := by omega
  have hchar : charOfHex? ['0', '0', hexDigit capital (c.toNat / 16), hexDigit capital (c.toNat % 16)] = some c := by
    have hvalid : c.toNat.isValidChar := c.valid
    simp [charOfHex?, hzero, hhigh, hlow, hcode, hvalid]
  show readCode? 4 _ = _
  unfold readCode?
  simp [hchar]

/-! ## Strings -/

/-- Characters that are not escaped stand for themselves. -/
theorem escapedChar_cases (capital : Bool) (c : Char) :
    ((c = '"' ∨ c = '\\') ∧ escapedChar capital c = ['\\', c]) ∨
      (isControl c = true ∧ escapedChar capital c =
        ['\\', 'u', '0', '0', hexDigit capital (c.toNat / 16), hexDigit capital (c.toNat % 16)]) ∨
      (c ≠ '"' ∧ c ≠ '\\' ∧ isControl c = false ∧ escapedChar capital c = [c]) := by
  unfold escapedChar
  split_ifs with hquote hcontrol
  · exact Or.inl ⟨hquote, rfl⟩
  · exact Or.inr (Or.inl ⟨hcontrol, rfl⟩)
  · rw [not_or] at hquote
    exact Or.inr (Or.inr ⟨hquote.1, hquote.2, by simpa using hcontrol, rfl⟩)

theorem isPlain_of_not_isControl {c : Char} (h : isControl c = false) : isPlain c = true := by
  rw [← Bool.not_eq_true, isControl_iff, not_or] at h
  simp only [isPlain, Bool.or_eq_true, Bool.and_eq_true, decide_eq_true_eq, bne_iff_ne]
  exact Or.inr ⟨by omega, h.2⟩

theorem readLine?_escape {cs rest : List Char} {c : Char} (h : readEscape? cs = some (c, rest)) :
    readLine? .double ('\\' :: cs) = (readLine? .double rest).map fun (text, rest) => (c :: text, rest) := by
  have hquote : '\\' ≠ Quote.double.char := by decide
  rw [readLine?, if_neg hquote, if_pos ⟨rfl, rfl⟩]
  split
  · rename_i hread
    rw [h] at hread
    cases hread
    rfl
  · rename_i hread
    rw [h] at hread
    cases hread

theorem readLine?_plain {c : Char} (hquote : c ≠ Quote.double.char) (hback : c ≠ '\\') (hplain : isPlain c = true)
    (rest : List Char) :
    readLine? .double (c :: rest) = (readLine? .double rest).map fun (text, rest) => (c :: text, rest) := by
  rw [readLine?, if_neg hquote, if_neg (fun h => hback h.1), if_pos hplain]

theorem readLine?_escapedChar (c : Char) (rest : List Char) :
    readLine? .double (escapedChar capital c ++ rest) =
      (readLine? .double rest).map fun (text, rest) => (c :: text, rest) := by
  rcases escapedChar_cases capital c with ⟨hc, heq⟩ | ⟨hc, heq⟩ | ⟨hquote, hback, hc, heq⟩ <;> rw [heq]
  · refine readLine?_escape ?_
    rcases hc with rfl | rfl <;> rfl
  · exact readLine?_escape (readEscape?_control hc rest)
  · exact readLine?_plain hquote hback (isPlain_of_not_isControl hc) rest

/-- Whatever a string holds, it is read back up to its closing quote. -/
theorem readLine?_escaped (text rest : List Char) :
    readLine? .double (escaped capital text ++ '"' :: rest) = some (text, rest) := by
  induction text with
  | nil =>
    have hquote : '"' = Quote.double.char := rfl
    rw [escaped, List.flatMap_nil, List.nil_append, readLine?, if_pos hquote]
  | cons c text ih =>
    rw [escaped, List.flatMap_cons, List.append_assoc, readLine?_escapedChar, ← escaped, ih]
    rfl

/-! ## Tokens -/

theorem lineLength_cons_cons (q : Quote) (c d : Char) (rest : List Char) :
    lineLength q (c :: d :: rest) =
      if c = q.char then 1
      else if c = '\n' then 0
      else if c = '\\' ∧ q = .double then
        if d = '"' ∨ d = '\\' then lineLength q rest + 2 else lineLength q (d :: rest) + 1
      else lineLength q (d :: rest) + 1 := rfl

theorem lineLength_plain {c : Char} (hquote : c ≠ '"') (hline : c ≠ '\n') (hback : c ≠ '\\') (rest : List Char) :
    lineLength .double (c :: rest) = lineLength .double rest + 1 := by
  have hchar : c ≠ Quote.double.char := hquote
  cases rest with
  | nil =>
    show (if c = Quote.double.char then 1 else if c = '\n' then 0 else if c = '\\' ∧ _ then 1 else 1) = 1
    rw [if_neg hchar, if_neg hline, if_neg (fun h => hback h.1)]
  | cons d rest => rw [lineLength_cons_cons, if_neg hchar, if_neg hline, if_neg (fun h => hback h.1)]

/-- The token takes in all that is escaped, and nothing escaped ends it. -/
theorem lineLength_escapedChar (c : Char) (rest : List Char) :
    lineLength .double (escapedChar capital c ++ rest) = lineLength .double rest + (escapedChar capital c).length := by
  have hback : '\\' ≠ Quote.double.char ∧ '\\' ≠ '\n' := by decide
  rcases escapedChar_cases capital c with ⟨hc, heq⟩ | ⟨hc, heq⟩ | ⟨hquote, hback', hc, heq⟩ <;> rw [heq]
  · show lineLength .double ('\\' :: c :: rest) = _
    rw [lineLength_cons_cons, if_neg hback.1, if_neg hback.2, if_pos ⟨rfl, rfl⟩, if_pos hc]
    rfl
  · -- none of the digits ends the string or escapes the next one
    rw [isControl_iff] at hc
    obtain ⟨h1, h2, h3⟩ := hexDigit_ne capital (n := c.toNat / 16) (by omega)
    obtain ⟨l1, l2, l3⟩ := hexDigit_ne capital (n := c.toNat % 16) (by omega)
    show lineLength .double ('\\' :: 'u' :: '0' :: '0' :: _ :: _ :: rest) = _
    rw [lineLength_cons_cons, if_neg hback.1, if_neg hback.2, if_pos ⟨rfl, rfl⟩, if_neg (by decide),
      lineLength_plain (by decide) (by decide) (by decide), lineLength_plain (by decide) (by decide) (by decide),
      lineLength_plain (by decide) (by decide) (by decide), lineLength_plain h1 h2 h3, lineLength_plain l1 l2 l3]
    rfl
  · have hline : c ≠ '\n' := by
      rintro rfl
      exact absurd hc (by decide)
    exact lineLength_plain hquote hline hback' rest

theorem lineLength_escaped (text rest : List Char) :
    lineLength .double (escaped capital text ++ '"' :: rest) = (escaped capital text ++ ['"']).length := by
  induction text with
  | nil => cases rest <;> rfl
  | cons c text ih =>
    rw [escaped, List.flatMap_cons, List.append_assoc, lineLength_escapedChar, ← escaped, ih]
    simp only [List.length_append]
    omega

/-- A token at the start of a text. -/
def tokenAt (kind : TokenKind) (text rest : List Char) : Token := ⟨kind, text, ⟨text ++ rest, rest⟩⟩

theorem tokens_cons {c : Char} {cs rest : List Char} {kind : TokenKind}
    (h : firstToken c (cs ++ rest) = (kind, cs.length)) :
    tokens (c :: (cs ++ rest)) = tokenAt kind (c :: cs) rest :: tokens rest := by
  rw [tokens, h]
  simp [tokenAt]

theorem stringToken_of_head {cs : List Char} (h : ∀ rest, cs ≠ '"' :: '"' :: rest) :
    stringToken .double cs = (.word (.line .double), lineLength .double cs) := by
  unfold stringToken
  split
  · rename_i a b rest
    rw [if_neg]
    rintro ⟨rfl, rfl⟩
    exact h rest rfl
  · rfl

/-- A string does not open like one of several lines: after an empty one comes no quote. -/
theorem escaped_append_ne (text rest : List Char) (hrest : rest.head? ≠ some '"') (more : List Char) :
    escaped capital text ++ '"' :: rest ≠ '"' :: '"' :: more := by
  cases text with
  | nil =>
    intro h
    obtain ⟨-, rfl⟩ := List.cons.inj h
    exact hrest rfl
  | cons c text =>
    intro h
    rw [escaped, List.flatMap_cons, List.append_assoc] at h
    rcases escapedChar_cases capital c with ⟨-, heq⟩ | ⟨-, heq⟩ | ⟨hquote, -, -, heq⟩ <;> rw [heq] at h
    · exact absurd (List.cons.inj h).1 (by decide)
    · exact absurd (List.cons.inj h).1 (by decide)
    · exact hquote (List.cons.inj h).1

theorem tokens_written (s : String) {rest : List Char} (hrest : rest.head? ≠ some '"') :
    tokens (written capital s ++ rest) =
      tokenAt (.word (.line .double)) (written capital s) rest :: tokens rest := by
  have hfirst : firstToken '"' ((escaped capital s.toList ++ ['"']) ++ rest) =
      (.word (.line .double), (escaped capital s.toList ++ ['"']).length) := by
    show stringToken .double _ = _
    rw [List.append_assoc, List.singleton_append, stringToken_of_head (escaped_append_ne _ _ hrest), lineLength_escaped]
  exact tokens_cons hfirst

/-- A character that is a token by itself. -/
theorem tokens_mark {c : Char} {rest : List Char} {kind : TokenKind} (h : firstToken c rest = (kind, 0)) :
    tokens (c :: rest) = tokenAt kind [c] rest :: tokens rest :=
  @tokens_cons c [] rest kind h

theorem tokens_space {rest : List Char} (hrest : ∀ c ∈ rest.head?, isSpace c = false) :
    tokens (' ' :: rest) = tokenAt .space [' '] rest :: tokens rest := by
  refine tokens_mark ?_
  show (TokenKind.space, (rest.takeWhile isSpace).length) = _
  cases rest with
  | nil => rfl
  | cons c rest => simp [hrest c (by simp)]

/-! ## Values -/

/-- The value of an expression is what was written. -/
def Says (e : Expression) (d : Datum) : Prop := ∃ v, e.value = .ok v ∧ d.Is v.value

theorem says_written (s : String) (span : Span) :
    Says (.word ⟨.line .double, written capital s, span⟩) (.string s) := by
  have hstring : Word.string? ⟨.line .double, written capital s, span⟩ = some s.toList := by
    simp only [Word.string?, written, List.drop_succ_cons, List.drop_zero, readLine?_escaped]
  refine ⟨⟨.string s, span⟩, ?_, rfl⟩
  rw [Expression.value, Word.value, Word.value?, hstring, Option.map_some, String.ofList_toList]

/-- A string is one token, which is read as an expression of its own. -/
theorem readValue_written (capital : Bool) (depth : Nat) (s : String) (rest : List Char)
    (hrest : rest.head? ≠ some '"') :
    ∃ t e, tokens (written capital s ++ rest) = t :: tokens rest ∧ t.kind = .word (.line .double) ∧
      readValue depth (t :: tokens rest) = .ok (e, tokens rest) ∧ Says e (.string s) := by
  refine ⟨_, .word ⟨.line .double, written capital s, ⟨written capital s ++ rest, rest⟩⟩, tokens_written s hrest,
    rfl, ?_, says_written s _⟩
  cases depth <;> rfl

/-! ## Arrays -/

/-- Marks and words are not skipped between items. -/
theorem dropFill_of_kind {t : Token} {ts : List Token} (h : t.kind ∉ [.space, .comment, .lineEnd]) :
    dropFill (t :: ts) = t :: ts := by
  have hfill : t.isFill = false := by
    simp only [List.mem_cons, List.not_mem_nil, or_false, not_or] at h
    simp [Token.isFill, Token.isTrailing, Token.endsLine, h]
  rw [dropFill, List.dropWhile_cons, hfill]
  rfl

/-- Where there is a token that is not skipped, the tokens leave room for one more round. -/
theorem exists_round {t : Token} {ts rest : List Token} {bound : Nat} (hts : dropFill ts = t :: rest)
    (hbound : ts.length ≤ bound) : ∃ n, bound = n + 1 ∧ rest.length ≤ n := by
  have hlength : (dropFill ts).length ≤ ts.length := (List.dropWhile_suffix _).length_le
  rw [hts, List.length_cons] at hlength
  exact ⟨bound - 1, by omega, by omega⟩

section Items

variable {readItem : List Token → Except Fault (Expression × List Token)} {bound : Nat} {ts ts' rest after : List Token}
  {t u : Token} {item : Expression} {items : List Expression}

theorem readItems_close (hts : dropFill ts = t :: rest) (ht : t.kind = .closeBracket) :
    readItems readItem (bound + 1) ts = .ok ([], rest) := by
  rw [readItems, hts]
  simp only [ht, if_true]
  rfl

theorem readItems_last (hts : dropFill ts = t :: rest) (ht : t.kind ≠ .closeBracket)
    (hitem : readItem (t :: rest) = .ok (item, u :: after)) (hu : u.kind = .closeBracket) :
    readItems readItem (bound + 1) ts = .ok ([item], after) := by
  have hmore : dropFill (u :: after) = u :: after := dropFill_of_kind (by rw [hu]; decide)
  rw [readItems, hts]
  simp only [ht, if_false, hitem, bind, Except.bind]
  rw [hmore]
  simp only [hu]
  rfl

theorem readItems_comma (hts : dropFill ts = t :: rest) (ht : t.kind ≠ .closeBracket)
    (hitem : readItem (t :: rest) = .ok (item, u :: after)) (hu : u.kind = .comma)
    (hitems : readItems readItem bound after = .ok (items, ts')) :
    readItems readItem (bound + 1) ts = .ok (item :: items, ts') := by
  have hmore : dropFill (u :: after) = u :: after := dropFill_of_kind (by rw [hu]; decide)
  rw [readItems, hts]
  simp only [ht, if_false, hitem, bind, Except.bind]
  rw [hmore]
  simp only [hu, hitems]
  rfl

theorem readValue_array {depth : Nat} (ht : t.kind = .openBracket)
    (hitems : readItems (readValue depth) (ts.length + 1) ts = .ok (items, rest)) :
    readValue (depth + 1) (t :: ts) = .ok (.array items ⟨t.span.start, placeOf rest⟩, rest) := by
  rw [readValue, List.length_cons, hitems]
  · rfl
  · exact ht

end Items

theorem tokens_comma (rest : List Char) : tokens (',' :: rest) = tokenAt .comma [','] rest :: tokens rest :=
  tokens_mark rfl

theorem tokens_closeBracket (rest : List Char) :
    tokens (']' :: rest) = tokenAt .closeBracket [']'] rest :: tokens rest :=
  tokens_mark rfl

theorem writtenItems_singleton (s : String) : writtenItems capital [s] = written capital s := by
  simp [writtenItems]

theorem writtenItems_cons_cons (s s' : String) (ss : List String) (rest : List Char) :
    writtenItems capital (s :: s' :: ss) ++ rest =
      written capital s ++ ',' :: ' ' :: (writtenItems capital (s' :: ss) ++ rest) := by
  simp only [writtenItems, List.map_cons, List.intercalate_cons_cons, List.append_assoc, List.cons_append,
    List.nil_append]

/-- What is left of an array opens with its closing bracket or with a string. -/
theorem writtenItems_cases (capital : Bool) (ss : List String) (rest : List Char) :
    writtenItems capital ss ++ ']' :: rest = ']' :: rest ∨
      ∃ s tail, tail.head? ≠ some '"' ∧ writtenItems capital ss ++ ']' :: rest = written capital s ++ tail := by
  cases ss with
  | nil => exact Or.inl rfl
  | cons s ss =>
    refine Or.inr ⟨s, ?_⟩
    cases ss with
    | nil => exact ⟨']' :: rest, by simp, by rw [writtenItems_singleton]⟩
    | cons s' ss => exact ⟨_, by simp, writtenItems_cons_cons s s' ss _⟩

theorem dropFill_writtenItems (capital : Bool) (ss : List String) (rest : List Char) :
    dropFill (tokens (writtenItems capital ss ++ ']' :: rest)) = tokens (writtenItems capital ss ++ ']' :: rest) := by
  rcases writtenItems_cases capital ss rest with heq | ⟨s, tail, hhead, heq⟩ <;> rw [heq]
  · rw [tokens_closeBracket]
    exact dropFill_of_kind (by simp [tokenAt])
  · rw [tokens_written s hhead]
    exact dropFill_of_kind (by simp [tokenAt])

theorem dropFill_space_writtenItems (ss : List String) (rest : List Char) :
    dropFill (tokens (' ' :: (writtenItems capital ss ++ ']' :: rest))) =
      tokens (writtenItems capital ss ++ ']' :: rest) := by
  have hspace : ∀ c ∈ (writtenItems capital ss ++ ']' :: rest).head?, isSpace c = false := by
    rcases writtenItems_cases capital ss rest with heq | ⟨s, tail, -, heq⟩ <;> rw [heq] <;> rintro c ⟨⟩ <;> rfl
  rw [tokens_space hspace]
  exact dropFill_writtenItems capital ss rest

/-- The items that are left, from behind the opening bracket or a comma on. Every round takes an item with its comma,
so that the tokens bound the rounds. -/
theorem readItems_writtenItems (depth : Nat) (rest : List Char) (ss : List String) {bound : Nat} {ts : List Token}
    (hts : dropFill ts = tokens (writtenItems capital ss ++ ']' :: rest)) (hbound : ts.length ≤ bound) :
    ∃ items, readItems (readValue depth) bound ts = .ok (items, tokens rest) ∧ (tokens rest).length < bound ∧
      List.Forall₂ Says items (ss.map .string) := by
  induction ss generalizing bound ts with
  | nil =>
    replace hts := hts.trans (tokens_closeBracket rest)
    obtain ⟨bound, rfl, hrest⟩ := exists_round hts hbound
    exact ⟨[], readItems_close hts rfl, Nat.lt_succ_of_le hrest, .nil⟩
  | cons s ss ih =>
    cases ss with
    | nil =>
      obtain ⟨t, item, ht, hkind, hitem, hsays⟩ := readValue_written capital depth s (']' :: rest) (by simp)
      rw [writtenItems_singleton, ht] at hts
      obtain ⟨bound, rfl, hmore⟩ := exists_round hts hbound
      rw [tokens_closeBracket] at hts hitem hmore
      exact ⟨[item], readItems_last hts (by rw [hkind]; decide) hitem rfl, Nat.lt_succ_of_lt hmore, .cons hsays .nil⟩
    | cons s' ss =>
      obtain ⟨t, item, ht, hkind, hitem, hsays⟩ := readValue_written capital depth s
        (',' :: ' ' :: (writtenItems capital (s' :: ss) ++ ']' :: rest)) (by simp)
      rw [writtenItems_cons_cons, ht] at hts
      obtain ⟨bound, rfl, hmore⟩ := exists_round hts hbound
      rw [tokens_comma] at hts hitem hmore
      -- the next round begins behind the comma, with the space
      obtain ⟨items, hitems, hrest, hall⟩ := ih (dropFill_space_writtenItems (s' :: ss) rest) (Nat.le_of_succ_le hmore)
      exact ⟨item :: items, readItems_comma hts (by rw [hkind]; decide) hitem rfl hitems, Nat.lt_succ_of_lt hrest,
        .cons hsays hall⟩

theorem values_of_says {items : List Expression} {ss : List String}
    (h : List.Forall₂ Says items (ss.map .string)) :
    ∃ vs, Expression.values items = .ok vs ∧ vs.map (·.value) = ss.map .string := by
  induction ss generalizing items with
  | nil =>
    cases h
    exact ⟨[], rfl, rfl⟩
  | cons s ss ih =>
    cases h with
    | cons hsays hall =>
      obtain ⟨v, hv, hs⟩ := hsays
      obtain ⟨vs, hvs, hss⟩ := ih hall
      refine ⟨v :: vs, ?_, ?_⟩
      · rw [Expression.values, hv, hvs]
        rfl
      · rw [List.map_cons, List.map_cons, hss, show v.value = .string s from hs]

theorem says_array {items : List Expression} {ss : List String} (h : List.Forall₂ Says items (ss.map .string))
    (span : Span) : Says (.array items span) (.strings ss) := by
  obtain ⟨vs, hvs, hss⟩ := values_of_says h
  refine ⟨⟨.array vs, span⟩, ?_, vs, rfl, hss⟩
  rw [Expression.value, hvs]
  rfl

theorem tokens_strings (ss : List String) (rest : List Char) :
    tokens (Datum.written capital (.strings ss) ++ rest) =
      tokenAt .openBracket ['['] (writtenItems capital ss ++ ']' :: rest) ::
        tokens (writtenItems capital ss ++ ']' :: rest) := by
  rw [Datum.written, List.cons_append, List.append_assoc, List.singleton_append]
  exact tokens_mark rfl

/-- The space before a string or an array ends there. -/
theorem tokens_space_datum (capital : Bool) (d : Datum) (rest : List Char) (hrest : rest.head? ≠ some '"') :
    ∃ t ts, tokens (d.written capital ++ rest) = t :: ts ∧ t.kind ≠ .space ∧
      tokens (' ' :: (d.written capital ++ rest)) = tokenAt .space [' '] (d.written capital ++ rest) :: t :: ts := by
  have hspace : ∀ c ∈ (d.written capital ++ rest).head?, isSpace c = false := by
    cases d <;> rintro c ⟨⟩ <;> rfl
  rw [tokens_space hspace]
  cases d with
  | string s =>
    rw [Datum.written, tokens_written s hrest]
    exact ⟨_, _, rfl, by simp [tokenAt], rfl⟩
  | strings ss =>
    rw [tokens_strings ss rest]
    exact ⟨_, _, rfl, by simp [tokenAt], rfl⟩

/-- Whatever a string or an array of strings holds, it is read back. Only a quote directly behind an empty string would
change what that is. -/
theorem readValue_datum (capital : Bool) (depth : Nat) (d : Datum) (rest : List Char) (hrest : rest.head? ≠ some '"') :
    ∃ e, readValue (depth + 1) (tokens (d.written capital ++ rest)) = .ok (e, tokens rest) ∧
      (tokens rest).length < (tokens (d.written capital ++ rest)).length ∧ Says e d := by
  cases d with
  | string s =>
    obtain ⟨t, e, ht, -, he, hsays⟩ := readValue_written capital (depth + 1) s rest hrest
    rw [Datum.written, ht]
    exact ⟨e, he, Nat.lt_succ_self _, hsays⟩
  | strings ss =>
    obtain ⟨items, hitems, hlength, hall⟩ := readItems_writtenItems depth rest ss
      (dropFill_writtenItems capital ss rest) (Nat.le_succ _)
    rw [tokens_strings]
    exact ⟨_, readValue_array rfl hitems, hlength, says_array hall _⟩

end Toml
end AlphaCodemod
