/-
The search for a pattern decides its meaning (`Glob.Pattern.matches_iff`). The search never looks back: a row
of it holds the answers for a text and for all of its tails (`Glob.Answers`), and a token more gives the next
row from the last. So there is one lemma for each kind of row, and each comes from a law that says what a token
stands for in terms of the tokens behind it.
-/
import AlphaCodemod.Glob.Search

namespace AlphaCodemod
namespace Glob

variable {t : Token} {ts : List Token} {c : Char} {cs : List Char} {bs ds : Row} {P Q : List Char → Prop}

/-! ## What tokens stand for -/

/-- Whether a token stands for one character, and neither for a run nor for directories. -/
def Token.isSingle : Token → Bool
  | .anyRun => false
  | .anyDirs => false
  | _ => true

theorem Token.isSingle_iff : t.isSingle = true ↔ t ≠ .anyRun ∧ t ≠ .anyDirs := by
  cases t <;> simp [isSingle]

/-- A slash stands in the text, and what is behind it is as asked for. -/
def BehindSlash (P : List Char → Prop) (cs : List Char) : Prop := ∃ taken rest, cs = taken ++ '/' :: rest ∧ P rest

theorem matches_nil_iff : Matches [] cs ↔ cs = [] := by
  constructor
  · rintro ⟨⟩
    rfl
  · rintro rfl
    exact .nil

theorem matches_single_nil (ht : t.isSingle = true) : ¬ Matches (t :: ts) [] := by
  generalize hcs : ([] : List Char) = cs
  intro h
  cases h with
  | one => cases hcs
  | run => cases ht
  | noDirs => cases ht
  | dirs => cases ht
  | all => cases ht

theorem matches_single_cons (ht : t.isSingle = true) :
    Matches (t :: ts) (c :: cs) ↔ t.accepts c = true ∧ Matches ts cs := by
  constructor
  · generalize hcs : c :: cs = cs'
    intro h
    cases h with
    | one hc hrest =>
      cases hcs
      exact ⟨hc, hrest⟩
    | run => cases ht
    | noDirs => cases ht
    | dirs => cases ht
    | all => cases ht
  · rintro ⟨hc, hrest⟩
    exact .one hc hrest

theorem matches_run_iff : Matches (.anyRun :: ts) cs ↔ ∃ taken rest, cs = taken ++ rest ∧ Matches ts rest := by
  constructor
  · intro h
    cases h with
    | one hc => cases hc
    | run hrest => exact ⟨_, _, rfl, hrest⟩
  · rintro ⟨taken, rest, rfl, hrest⟩
    exact .run hrest

theorem matches_dirs_iff (hts : ts ≠ []) :
    Matches (.anyDirs :: ts) cs ↔ Matches ts cs ∨ BehindSlash (Matches ts) cs := by
  constructor
  · intro h
    cases h with
    | one hc => cases hc
    | noDirs hrest => exact .inl hrest
    | dirs hrest => exact .inr ⟨_, _, rfl, hrest⟩
    | all => exact absurd rfl hts
  · rintro (hrest | ⟨taken, rest, rfl, hrest⟩)
    · exact .noDirs hrest
    · exact .dirs hrest

theorem matches_run_nil : Matches (.anyRun :: ts) [] ↔ Matches ts [] := by
  rw [matches_run_iff]
  constructor
  · rintro ⟨taken, rest, hcs, hrest⟩
    obtain ⟨-, rfl⟩ := List.append_eq_nil_iff.1 hcs.symm
    exact hrest
  · intro hrest
    exact ⟨[], [], rfl, hrest⟩

/-- A run ends at once, or takes one more character. -/
theorem matches_run_cons : Matches (.anyRun :: ts) (c :: cs) ↔ Matches ts (c :: cs) ∨ Matches (.anyRun :: ts) cs := by
  simp only [matches_run_iff]
  constructor
  · rintro ⟨_ | ⟨d, taken⟩, rest, hcs, hrest⟩
    · rw [List.nil_append] at hcs
      exact .inl (hcs ▸ hrest)
    · exact .inr ⟨taken, rest, (List.cons.inj hcs).2, hrest⟩
  · rintro (hrest | ⟨taken, rest, rfl, hrest⟩)
    · exact ⟨[], _, rfl, hrest⟩
    · exact ⟨c :: taken, rest, rfl, hrest⟩

theorem not_behindSlash_nil : ¬ BehindSlash P [] := by
  rintro ⟨taken, rest, hcs, -⟩
  simp at hcs

/-- The slash stands further on, or here. -/
theorem behindSlash_cons : BehindSlash P (c :: cs) ↔ BehindSlash P cs ∨ c = '/' ∧ P cs := by
  constructor
  · rintro ⟨_ | ⟨d, taken⟩, rest, hcs, hrest⟩
    · obtain ⟨rfl, rfl⟩ := List.cons.inj hcs
      exact .inr ⟨rfl, hrest⟩
    · exact .inl ⟨taken, rest, (List.cons.inj hcs).2, hrest⟩
  · rintro (⟨taken, rest, rfl, hrest⟩ | ⟨rfl, hrest⟩)
    · exact ⟨c :: taken, rest, rfl, hrest⟩
    · exact ⟨[], cs, rfl, hrest⟩

/-! ## Rows -/

/-- The row has an entry for the text and for each of its tails, and each entry says whether that one is as asked
for. -/
inductive Answers (P : List Char → Prop) : List Char → Row → Prop where
  | nil {b : Bool} : (b = true ↔ P []) → Answers P [] [b]
  | cons {c : Char} {cs : List Char} {b : Bool} {bs : Row} :
      (b = true ↔ P (c :: cs)) → Answers P cs bs → Answers P (c :: cs) (b :: bs)

namespace Answers

theorem headD (h : Answers P cs bs) : bs.headD false = true ↔ P cs := by
  cases h with
  | nil hb => exact hb
  | cons hb _ => exact hb

theorem of_iff (h : Answers P cs bs) (hPQ : ∀ cs, Q cs ↔ P cs) : Answers Q cs bs := by
  induction h with
  | nil hb => exact .nil (hb.trans (hPQ _).symm)
  | cons hb _ ih => exact .cons (hb.trans (hPQ _).symm) ih

theorem rowNil (cs : List Char) : Answers (Matches []) cs (rowNil cs) := by
  induction cs with
  | nil => exact .nil (by simp [matches_nil_iff])
  | cons c cs ih => exact .cons (by simp [matches_nil_iff]) ih

theorem rowOne (ht : t.isSingle = true) (h : Answers (Matches ts) cs bs) :
    Answers (Matches (t :: ts)) cs (rowOne t cs bs) := by
  induction h with
  | nil _ => exact .nil (by simp [matches_single_nil ht])
  | cons _ hrest ih =>
    refine .cons ?_ ih
    rw [Bool.and_eq_true, hrest.headD, matches_single_cons ht]

theorem rowRun (h : Answers (Matches ts) cs bs) : Answers (Matches (.anyRun :: ts)) cs (rowRun cs bs) := by
  induction h with
  | nil hb => exact .nil (hb.trans matches_run_nil.symm)
  | cons hb _ ih =>
    refine .cons ?_ ih
    rw [Bool.or_eq_true, hb, ih.headD, matches_run_cons]

theorem rowSlash (h : Answers P cs bs) : Answers (BehindSlash P) cs (rowSlash cs bs) := by
  induction h with
  | nil _ => exact .nil (by simp [not_behindSlash_nil])
  | cons _ hrest ih =>
    refine .cons ?_ ih
    rw [Bool.or_eq_true, Bool.and_eq_true, beq_iff_eq, ih.headD, hrest.headD, behindSlash_cons]

theorem or (h : Answers P cs bs) (h' : Answers Q cs ds) :
    Answers (fun cs => P cs ∨ Q cs) cs (List.zipWith (· || ·) bs ds) := by
  induction h generalizing ds with
  | nil hb =>
    cases h' with
    | nil hd => exact .nil (by rw [Bool.or_eq_true, hb, hd])
  | cons hb _ ih =>
    cases h' with
    | cons hd hrest => exact .cons (by rw [Bool.or_eq_true, hb, hd]) (ih hrest)

theorem replicate (hP : ∀ cs, P cs) (cs : List Char) : Answers P cs (List.replicate (cs.length + 1) true) := by
  induction cs with
  | nil => exact .nil (by simp [hP])
  | cons c cs ih => exact .cons (by simp [hP]) ih

end Answers

/-- The row of a list of tokens answers what the tokens stand for. -/
theorem answers_row (ts : List Token) (cs : List Char) : Answers (Matches ts) cs (row ts cs) := by
  fun_induction row ts cs with
  | case1 cs => exact .rowNil cs
  | case2 cs => exact .replicate (fun _ => .all) cs
  | case3 ts cs hts next ih => exact (ih.or ih.rowSlash).of_iff fun _ => matches_dirs_iff hts
  | case4 ts cs ih => exact ih.rowRun
  | case5 t ts cs _ hdirs hrun ih => exact ih.rowOne (Token.isSingle_iff.2 ⟨hrun, hdirs⟩)

/-- A pattern is found to stand for exactly the texts it stands for. -/
theorem Pattern.matches_iff (p : Pattern) (cs : List Char) : p.matches cs = true ↔ Matches p.tokens cs :=
  (answers_row p.tokens cs).headD

end Glob
end AlphaCodemod
