/-
The pattern of opacity calls as a language: `.withOpacity(`, blanks, a literal, blanks and `)`. The
reader of calls finds exactly the texts of this language at the start of a source, whatever follows
them (`OpacityCall.read?_append`, `OpacityCall.wellFormed_of_read?`), a text of it has one literal
only, and no text of it starts inside another (`OpacityCall.text_prefix_of_append`).
-/
import Mathlib.Computability.Language
import Mathlib.Data.List.TakeWhile
import AlphaCodemod.Source.Call

namespace AlphaCodemod

open Computability

/-! ## Classes of characters -/

theorem isDigit_iff (c : Char) : isDigit c = true ↔ 48 ≤ c.toNat ∧ c.toNat ≤ 57 := by
  unfold isDigit
  rw [Bool.and_eq_true, decide_eq_true_iff, decide_eq_true_iff, Char.le_def, Char.le_def,
    UInt32.le_iff_toNat_le, UInt32.le_iff_toNat_le]
  rfl

theorem isBlank_iff (c : Char) :
    isBlank c = true ↔ ∃ r ∈ blankRanges, r.1 ≤ c.toNat ∧ c.toNat ≤ r.2 := by
  unfold isBlank
  simp only [List.any_eq_true, decide_eq_true_eq]

/-- No digit is a blank. -/
theorem isBlank_of_isDigit {c : Char} (h : isDigit c = true) : isBlank c = false := by
  rw [isDigit_iff] at h
  rw [Bool.eq_false_iff, ne_eq, isBlank_iff]
  rintro ⟨r, hr, h1, h2⟩
  simp only [blankRanges, List.mem_cons, List.not_mem_nil, or_false] at hr
  rcases hr with rfl | rfl | rfl | rfl | rfl | rfl | rfl | rfl | rfl | rfl <;> simp only at h1 h2 <;> omega

/-! ## The languages -/

namespace Pattern

/-- The texts of one character of a class. -/
def oneOf (p : Char → Bool) : Language Char := {w | ∃ c, p c = true ∧ w = [c]}

/-- Digits, at most one point, and at least one digit behind it. -/
def literal : Language Char := (oneOf isDigit)∗ * (1 + {['.']}) * (oneOf isDigit * (oneOf isDigit)∗)

/-- A call whose literal is of the given language. -/
def callOf (lits : Language Char) : Language Char :=
  {".withOpacity(".toList} * (oneOf isBlank)∗ * lits * (oneOf isBlank)∗ * {")".toList}

/-- An opacity call. -/
def call : Language Char := callOf literal

theorem mem_star_oneOf {p : Char → Bool} {w : List Char} : w ∈ (oneOf p)∗ ↔ ∀ c ∈ w, p c = true := by
  rw [Language.mem_kstar]
  constructor
  · rintro ⟨ws, rfl, hws⟩ c hc
    obtain ⟨x, hx, hcx⟩ := List.mem_flatten.1 hc
    obtain ⟨d, hd, rfl⟩ := hws x hx
    rw [List.mem_singleton.1 hcx]
    exact hd
  · intro h
    refine ⟨w.map fun c => [c], by simp [← List.flatMap_def], fun x hx => ?_⟩
    obtain ⟨c, hc, rfl⟩ := List.mem_map.1 hx
    exact ⟨c, h c hc, rfl⟩

/-- The parts of a call: blanks, literal, blanks. -/
theorem mem_callOf {lits : Language Char} {t : List Char} :
    t ∈ callOf lits ↔ ∃ before lit after, (∀ c ∈ before, isBlank c = true) ∧ lit ∈ lits ∧
      (∀ c ∈ after, isBlank c = true) ∧ t = OpacityCall.opening ++ (before ++ (lit ++ (after ++ [')']))) := by
  simp only [callOf, Language.mem_mul]
  constructor
  · rintro ⟨x, ⟨y, ⟨z, ⟨o, ho, b, hb, rfl⟩, lit, hlit, rfl⟩, a, ha, rfl⟩, e, he, rfl⟩
    obtain rfl : o = OpacityCall.opening := ho
    obtain rfl : e = [')'] := he
    exact ⟨b, lit, a, mem_star_oneOf.1 hb, hlit, mem_star_oneOf.1 ha, by simp only [List.append_assoc]⟩
  · rintro ⟨b, lit, a, hb, hlit, ha, rfl⟩
    exact ⟨_, ⟨_, ⟨_, ⟨_, rfl, b, mem_star_oneOf.2 hb, rfl⟩, lit, hlit, rfl⟩, a, mem_star_oneOf.2 ha, rfl⟩, _, rfl,
      by simp only [List.append_assoc]; rfl⟩

/-- The literals are the texts of the well-formed numerals. -/
theorem mem_literal {w : List Char} : w ∈ literal ↔ ∃ n : Numeral, n.WellFormed ∧ w = n.text := by
  simp only [literal, Language.mem_mul, Language.mem_add, Language.mem_one]
  constructor
  · rintro ⟨x, ⟨ds, hds, p, hp, rfl⟩, y, ⟨e, ⟨d, hd, rfl⟩, es, hes, rfl⟩, rfl⟩
    rw [mem_star_oneOf] at hds hes
    have hlast : ∀ c ∈ d :: es, isDigit c = true := by
      rintro c (_ | ⟨_, hc⟩)
      · exact hd
      · exact hes c hc
    rcases hp with rfl | hp
    · -- without a point both runs of digits are one
      refine ⟨⟨ds ++ d :: es, []⟩, ⟨fun c hc => ?_, by simp, Or.inl (by simp)⟩, by simp [Numeral.text]⟩
      rcases List.mem_append.1 hc with hc | hc
      · exact hds c hc
      · exact hlast c hc
    · obtain rfl : p = ['.'] := hp
      exact ⟨⟨ds, d :: es⟩, ⟨hds, hlast, Or.inr (by simp)⟩, by simp [Numeral.text]⟩
  · rintro ⟨⟨whole, fraction⟩, ⟨hw, hf, hne⟩, rfl⟩
    simp only at hw hf hne
    cases fraction with
    | nil =>
      obtain ⟨d, es, rfl⟩ := List.exists_cons_of_ne_nil (hne.resolve_right (by simp))
      refine ⟨[], ⟨[], mem_star_oneOf.2 (by simp), [], Or.inl rfl, rfl⟩, d :: es,
        ⟨[d], ⟨d, hw d (by simp), rfl⟩, es, mem_star_oneOf.2 fun c hc => hw c (by simp [hc]), rfl⟩, by simp [Numeral.text]⟩
    | cons d es =>
      refine ⟨whole ++ ['.'], ⟨whole, mem_star_oneOf.2 hw, ['.'], Or.inr rfl, rfl⟩, d :: es,
        ⟨[d], ⟨d, hf d (by simp), rfl⟩, es, mem_star_oneOf.2 fun c hc => hf c (by simp [hc]), rfl⟩, by simp [Numeral.text]⟩

/-- The calls are the texts of the well-formed call records. -/
theorem mem_call {t : List Char} : t ∈ call ↔ ∃ c : OpacityCall, c.WellFormed ∧ t = c.text := by
  rw [call, mem_callOf]
  constructor
  · rintro ⟨b, lit, a, hb, hlit, ha, rfl⟩
    obtain ⟨n, hn, rfl⟩ := mem_literal.1 hlit
    exact ⟨⟨b, n, a⟩, ⟨hb, hn, ha⟩, rfl⟩
  · rintro ⟨⟨b, n, a⟩, ⟨hb, hn, ha⟩, rfl⟩
    exact ⟨b, n.text, a, hb, mem_literal.2 ⟨n, hn, rfl⟩, ha, rfl⟩

end Pattern

/-! ## Runs of one class -/

section Runs

variable {p : Char → Bool} {run rest : List Char}

/-- A run of a class ends where the first character of another class stands. -/
theorem takeWhile_run (hrun : ∀ c ∈ run, p c = true) (hrest : ∀ c ∈ rest.head?, p c = false) :
    (run ++ rest).takeWhile p = run := by
  rw [List.takeWhile_append_of_pos hrun]
  cases rest with
  | nil => simp
  | cons c rest => simp [hrest c (by simp)]

theorem dropWhile_run (hrun : ∀ c ∈ run, p c = true) (hrest : ∀ c ∈ rest.head?, p c = false) :
    (run ++ rest).dropWhile p = rest := by
  rw [List.dropWhile_append_of_pos hrun]
  cases rest with
  | nil => rfl
  | cons c rest => simp [hrest c (by simp)]

end Runs

/-! ## The reader of numerals -/

namespace Numeral

theorem wellFormed_of_read? {cs rest : List Char} {n : Numeral} (h : read? cs = some (n, rest)) :
    n.WellFormed := by
  have digits : ∀ (l : List Char), ∀ c ∈ l.takeWhile isDigit, isDigit c = true := fun l c hc =>
    List.mem_takeWhile_imp hc
  unfold read? at h
  dsimp only at h
  split at h
  · rename_i tail hd
    split at h
    · cases h
    · rename_i hne
      cases h
      exact ⟨digits cs, digits tail, Or.inr (by simpa using hne)⟩
  · split at h
    · cases h
    · rename_i hne
      cases h
      exact ⟨digits cs, by simp, Or.inl (by simpa using hne)⟩

/-- A numeral is read back when what follows cannot be taken for more of it. -/
theorem read?_append {n : Numeral} (hn : n.WellFormed) {rest : List Char}
    (hd : ∀ c ∈ rest.head?, isDigit c = false) (hp : rest.head? ≠ some '.') :
    read? (n.text ++ rest) = some (n, rest) := by
  obtain ⟨whole, fraction⟩ := n
  obtain ⟨hw, hf, hne⟩ := hn
  simp only at hw hf hne
  unfold read? text
  cases fraction with
  | nil =>
    have hwhole : whole ≠ [] := hne.resolve_right (by simp)
    simp only [List.isEmpty_nil, if_true, takeWhile_run hw hd, dropWhile_run hw hd]
    split
    · simp at hp
    · simp [hwhole]
  | cons d ds =>
    have hpoint : ∀ c ∈ ('.' :: (d :: ds ++ rest)).head?, isDigit c = false := by
      rintro c ⟨⟩
      rfl
    simp only [List.isEmpty_cons, Bool.false_eq_true, if_false, List.append_assoc]
    rw [List.cons_append, takeWhile_run hw hpoint, dropWhile_run hw hpoint]
    simp only [takeWhile_run hf hd, dropWhile_run hf hd, List.isEmpty_cons, Bool.false_eq_true, if_false]

/-- A numeral starts with a digit or with a point. -/
theorem exists_text_eq_cons {n : Numeral} (hn : n.WellFormed) :
    ∃ c cs, n.text = c :: cs ∧ (isDigit c = true ∨ c = '.') := by
  obtain ⟨whole, fraction⟩ := n
  obtain ⟨hw, hf, hne⟩ := hn
  simp only at hw hf hne
  cases whole with
  | cons c whole =>
    cases fraction with
    | nil => exact ⟨c, whole, rfl, Or.inl (hw c (by simp))⟩
    | cons d ds => exact ⟨c, whole ++ '.' :: d :: ds, rfl, Or.inl (hw c (by simp))⟩
  | nil =>
    cases fraction with
    | nil => simp at hne
    | cons d ds => exact ⟨'.', d :: ds, rfl, Or.inr rfl⟩

theorem mem_text {n : Numeral} (hn : n.WellFormed) {c : Char} (hc : c ∈ n.text) : isDigit c = true ∨ c = '.' := by
  unfold text at hc
  split at hc
  · exact Or.inl (hn.whole c hc)
  · rcases List.mem_append.1 hc with hc | hc
    · exact Or.inl (hn.whole c hc)
    · rcases List.mem_cons.1 hc with rfl | hc
      · exact Or.inr rfl
      · exact Or.inl (hn.fraction c hc)

end Numeral

/-! ## The reader of calls -/

namespace OpacityCall

theorem dropStart?_append (start rest : List Char) : dropStart? start (start ++ rest) = some rest := by
  induction start with
  | nil => rfl
  | cons s start ih => rw [List.cons_append, dropStart?, if_pos rfl, ih]

theorem wellFormed_of_read? {cs rest : List Char} {call : OpacityCall} (h : read? cs = some (call, rest)) :
    call.WellFormed := by
  simp only [read?, Option.bind_eq_bind, Option.bind_eq_some_iff] at h
  obtain ⟨inner, -, ⟨number, tail⟩, hnumber, h⟩ := h
  dsimp only at h
  split at h
  · cases h
    exact ⟨fun c hc => List.mem_takeWhile_imp hc, Numeral.wellFormed_of_read? hnumber,
      fun c hc => List.mem_takeWhile_imp hc⟩
  · cases h

/-- A call is read back, whatever follows it. -/
theorem read?_append {call : OpacityCall} (hc : call.WellFormed) (rest : List Char) :
    read? (call.text ++ rest) = some (call, rest) := by
  obtain ⟨before, number, after⟩ := call
  obtain ⟨hb, hn, ha⟩ := hc
  simp only at hb hn ha
  -- the blanks end at the numeral, the numeral ends at a blank or at the closing parenthesis
  obtain ⟨c, cs, hcons, hfirst⟩ := Numeral.exists_text_eq_cons hn
  have hcblank : isBlank c = false := by
    rcases hfirst with h | rfl
    · exact isBlank_of_isDigit h
    · rfl
  have hfollow : ∀ d ∈ (after ++ ')' :: rest).head?, isDigit d = false ∧ d ≠ '.' := by
    intro d hd
    cases after with
    | nil =>
      obtain rfl : d = ')' := by simpa using hd.symm
      exact ⟨rfl, by decide⟩
    | cons a after =>
      obtain rfl : d = a := by simpa using hd.symm
      have hblank := ha d (by simp)
      constructor
      · by_contra hdigit
        rw [isBlank_of_isDigit (by simpa using hdigit)] at hblank
        cases hblank
      · rintro rfl
        exact absurd hblank (by decide)
  have hnumber := Numeral.read?_append hn (fun d hd => (hfollow d hd).1) fun h => (hfollow '.' h).2 rfl
  have hinner : ∀ d ∈ (number.text ++ (after ++ ')' :: rest)).head?, isBlank d = false := by
    rw [hcons]
    rintro d ⟨⟩
    exact hcblank
  have hclose : ∀ d ∈ (')' :: rest).head?, isBlank d = false := by
    rintro d ⟨⟩
    rfl
  simp only [read?, text, List.append_assoc, dropStart?_append, Option.bind_eq_bind, Option.bind_some,
    List.cons_append, List.nil_append, takeWhile_run hb hinner, dropWhile_run hb hinner, hnumber,
    takeWhile_run ha hclose, dropWhile_run ha hclose]

/-- Calls with the same text are the same, so that a text has one literal at most. -/
theorem eq_of_text_eq {c d : OpacityCall} (hc : c.WellFormed) (hd : d.WellFormed) (h : c.text = d.text) : c = d := by
  have hc' := read?_append hc []
  rw [h, read?_append hd []] at hc'
  cases hc'
  rfl

/-! ## Calls do not overlap -/

/-- What stands between the parentheses of a call. -/
def inner (call : OpacityCall) : List Char := call.before ++ (call.number.text ++ call.after)

theorem text_eq_inner (call : OpacityCall) : call.text = opening ++ (call.inner ++ [')']) := by
  simp [text, inner]

theorem mem_inner {call : OpacityCall} (hc : call.WellFormed) {c : Char} (h : c ∈ call.inner) :
    isBlank c = true ∨ isDigit c = true ∨ c = '.' := by
  simp only [inner, List.mem_append] at h
  rcases h with h | h | h
  · exact Or.inl (hc.before c h)
  · exact Or.inr (Numeral.mem_text hc.number h)
  · exact Or.inl (hc.after c h)

/-- No letter stands between the parentheses of a call. -/
theorem letter_notMem_inner {call : OpacityCall} (hc : call.WellFormed) {c : Char} (hb : isBlank c = false)
    (hd : isDigit c = false) (hp : c ≠ '.') : c ∉ call.inner := by
  intro h
  rcases mem_inner hc h with h | h | h
  · rw [h] at hb; cases hb
  · rw [h] at hd; cases hd
  · exact hp h

/-- Behind its first two characters a call has none that could be the second of a call. -/
theorem exists_text_eq_dot_w {call : OpacityCall} (hc : call.WellFormed) :
    ∃ body, call.text = '.' :: 'w' :: (body ++ [')']) ∧ 'w' ∉ body := by
  refine ⟨opening.drop 2 ++ call.inner, by rw [text_eq_inner]; rfl, fun h => ?_⟩
  rcases List.mem_append.1 h with h | h
  · exact absurd h (by decide)
  · exact letter_notMem_inner hc rfl rfl (by decide) h

/-- In a text that starts with a call, another call can start only where the first one ends. -/
theorem text_prefix_of_append {c d : OpacityCall} (hc : c.WellFormed) (hd : d.WellFormed) {a b rest : List Char}
    (ha : a ≠ []) (h : c.text ++ rest = a ++ (d.text ++ b)) : ∃ a', a = c.text ++ a' ∧ rest = a' ++ (d.text ++ b) := by
  rcases List.append_eq_append_iff.1 h with ⟨a', h1, h2⟩ | ⟨t, h1, h2⟩
  · exact ⟨a', h1, h2⟩
  obtain ⟨bodyc, hcw, hnw⟩ := exists_text_eq_dot_w hc
  obtain ⟨bodyd, hdw, -⟩ := exists_text_eq_dot_w hd
  obtain ⟨x, a, rfl⟩ := List.exists_cons_of_ne_nil ha
  rw [hdw] at h2
  rw [hcw, List.cons_append, List.cons.injEq] at h1
  obtain ⟨rfl, h1⟩ := h1
  -- `t` is the part of the first call that the second one would share
  match t, h1, h2 with
  | [], h1, h2 => exact ⟨[], by simp [hcw, h1], by simpa [hdw] using h2.symm⟩
  | [y], h1, h2 =>
    obtain rfl : '.' = y := (List.cons.inj h2).1
    have hends : ('w' :: bodyc) ++ [')'] = a ++ ['.'] := h1
    exact absurd (List.append_inj' hends rfl).2 (by decide)
  | y :: z :: t, h1, h2 =>
    obtain rfl : '.' = y := (List.cons.inj h2).1
    obtain rfl : 'w' = z := (List.cons.inj (List.cons.inj h2).2).1
    cases a with
    | nil => exact absurd (List.cons.inj h1).1 (by decide)
    | cons a0 a =>
      have hmem : 'w' ∈ bodyc ++ [')'] := by
        rw [(List.cons.inj h1).2]
        simp
      rcases List.mem_append.1 hmem with hm | hm
      · exact absurd hm hnw
      · exact absurd hm (by decide)

end OpacityCall

end AlphaCodemod
