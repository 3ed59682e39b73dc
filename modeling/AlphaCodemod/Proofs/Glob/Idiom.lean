/-
The usual exclude patterns (`Glob.Idiom`): `build/**` for all that is under a directory, and `**/*.g.dart` for all
whose path ends in a text. Whatever plain text stands in them, they can be read (`Glob.Idiom.read_text`), and they
stand for exactly those paths (`Glob.Idiom.matches_pattern_iff`).
-/
import AlphaCodemod.Glob.Reader
import AlphaCodemod.Proofs.Glob.Meaning

namespace AlphaCodemod
namespace Glob

variable {ts : List Token} {c : Char} {cs rest path : List Char}

/-! ## Plain text -/

/-- Whether a character stands for itself wherever it is in a pattern. -/
def isPlain (c : Char) : Bool := c != '*' && c != '?' && c != '['

theorem isPlain_iff : isPlain c = true ↔ c ≠ '*' ∧ c ≠ '?' ∧ c ≠ '[' := by
  simp [isPlain, and_assoc]

/-- A text without wildcards. -/
structure PlainText where
  chars : List Char
  plain : chars.all isPlain = true
deriving DecidableEq, Repr

theorem PlainText.isPlain_of_mem (t : PlainText) : ∀ c ∈ t.chars, isPlain c = true := List.all_eq_true.1 t.plain

theorem readFrom_char (hc : isPlain c = true) {position : Nat} {opens : Bool}
    (h : readFrom (position + 1) (c == '/') cs = .ok ts) : readFrom position opens (c :: cs) = .ok (.char c :: ts) := by
  obtain ⟨hstar, hquestion, hbracket⟩ := isPlain_iff.1 hc
  rw [readFrom.eq_9 _ _ _ _ hquestion (fun _ h => absurd h hstar) (fun _ h => absurd h hstar) hstar hbracket, h]
  rfl

/-- Plain text is read as the characters it has, if what follows can be read there. -/
theorem readFrom_plain (hcs : ∀ c ∈ cs, isPlain c = true)
    (hrest : ∀ position opens, readFrom position opens rest = .ok ts) (position : Nat) (opens : Bool) :
    readFrom position opens (cs ++ rest) = .ok (cs.map .char ++ ts) := by
  induction cs generalizing position opens with
  | nil => exact hrest position opens
  | cons c cs ih =>
    obtain ⟨hc, hcs⟩ := List.forall_mem_cons.1 hcs
    exact readFrom_char hc (ih hcs _ _)

/-- Plain text stands for itself. -/
theorem matches_chars_append : Matches (cs.map .char ++ ts) path ↔ ∃ rest, path = cs ++ rest ∧ Matches ts rest := by
  induction cs generalizing path with
  | nil => simp
  | cons c cs ih =>
    rw [List.map_cons, List.cons_append]
    constructor
    · intro h
      cases path with
      | nil => exact absurd h (matches_single_nil rfl)
      | cons d path =>
        obtain ⟨hd, h⟩ := (matches_single_cons rfl).1 h
        obtain ⟨rest, rfl, hrest⟩ := ih.1 h
        obtain rfl : c = d := beq_iff_eq.1 hd
        exact ⟨rest, rfl, hrest⟩
    · rintro ⟨rest, rfl, hrest⟩
      exact (matches_single_cons rfl).2 ⟨beq_self_eq_true c, ih.2 ⟨rest, rfl, hrest⟩⟩

theorem matches_chars : Matches (cs.map .char) path ↔ path = cs := by
  rw [← List.append_nil (cs.map _), matches_chars_append]
  simp [matches_nil_iff]

theorem matches_run_chars : Matches (.anyRun :: cs.map .char) path ↔ cs <:+ path := by
  simp only [matches_run_iff, matches_chars]
  constructor
  · rintro ⟨taken, rest, rfl, rfl⟩
    exact List.suffix_append _ _
  · rintro ⟨taken, rfl⟩
    exact ⟨taken, cs, rfl, rfl⟩

/-! ## Idioms -/

/-- A usual exclude pattern. -/
inductive Idiom where
  /-- The pattern `d/**`. -/
  | under (d : PlainText)
  /-- The pattern `**/*s`. -/
  | ending (s : PlainText)
deriving DecidableEq, Repr

namespace Idiom

def text : Idiom → String
  | .under d => String.ofList (d.chars ++ ['/', '*', '*'])
  | .ending s => String.ofList (['*', '*', '/', '*'] ++ s.chars)

def tokens : Idiom → List Token
  | .under d => d.chars.map .char ++ [.char '/', .anyDirs]
  | .ending s => .anyDirs :: .anyRun :: s.chars.map .char

/-- The pattern with the text of the idiom. -/
def pattern (i : Idiom) : Pattern := ⟨i.text, i.tokens⟩

/-- The paths that the idiom is meant for. -/
def Covers : Idiom → List Char → Prop
  | .under d, path => d.chars ++ ['/'] <+: path
  | .ending s, path => s.chars <:+ path

instance (i : Idiom) (path : List Char) : Decidable (i.Covers path) :=
  match i with
  | .under d => inferInstanceAs (Decidable (d.chars ++ ['/'] <+: path))
  | .ending s => inferInstanceAs (Decidable (s.chars <:+ path))

theorem read_text (i : Idiom) : Pattern.read i.text = .ok i.pattern := by
  have hread : readFrom 0 true i.text.toList = .ok i.tokens := by
    cases i with
    | under d =>
      rw [text, String.toList_ofList]
      refine readFrom_plain d.isPlain_of_mem (fun position opens => ?_) 0 true
      -- the slash opens a path component, so that the stars may stand behind it
      refine readFrom_char rfl ?_
      rw [readFrom.eq_4]
      rfl
    | ending s =>
      have hstar : ∀ cs, s.chars ≠ '*' :: cs := by
        intro cs hs
        have := s.isPlain_of_mem '*' (by simp [hs])
        cases this
      have hchars : readFrom 4 false s.chars = .ok (s.chars.map .char) := by
        have := readFrom_plain s.isPlain_of_mem readFrom.eq_1 4 false
        rwa [List.append_nil, List.append_nil] at this
      rw [text, String.toList_ofList]
      show readFrom 0 true ('*' :: '*' :: '/' :: '*' :: s.chars) = _
      rw [readFrom.eq_5, readFrom.eq_7 _ _ _ (fun _ => hstar _) hstar, hchars]
      rfl
  rw [Pattern.read, hread]
  rfl

/-- An idiom stands for the paths that it is meant for. -/
theorem matches_tokens_iff (i : Idiom) : Matches i.tokens path ↔ i.Covers path := by
  cases i with
  | under d =>
    show Matches (d.chars.map .char ++ [.char '/', .anyDirs]) path ↔ d.chars ++ ['/'] <+: path
    have hsplit : d.chars.map Token.char ++ [.char '/', .anyDirs] =
        (d.chars ++ ['/']).map Token.char ++ [.anyDirs] := by
      simp
    rw [hsplit, matches_chars_append]
    constructor
    · rintro ⟨rest, rfl, -⟩
      exact List.prefix_append _ _
    · rintro ⟨rest, rfl⟩
      exact ⟨rest, rfl, .all⟩
  | ending s =>
    -- what the directories take, the run behind them could take as well
    show Matches (.anyDirs :: .anyRun :: s.chars.map .char) path ↔ s.chars <:+ path
    rw [matches_dirs_iff (List.cons_ne_nil _ _)]
    constructor
    · rintro (h | ⟨dirs, rest, rfl, hrest⟩)
      · exact matches_run_chars.1 h
      · exact (matches_run_chars.1 hrest).trans ⟨dirs ++ ['/'], by simp⟩
    · intro h
      exact .inl (matches_run_chars.2 h)

/-- The pattern of an idiom is found to stand for exactly the paths that the idiom is meant for. -/
theorem matches_pattern_iff (i : Idiom) : i.pattern.matches path = true ↔ i.Covers path :=
  (Pattern.matches_iff _ path).trans i.matches_tokens_iff

end Idiom
end Glob
end AlphaCodemod
