/-
The edit as a run of steps over the sites of a source. After any number of sites the draft is what
those sites say and nothing else (`Draft.Follows`): the buffer holds their edited texts, the cursor
stands behind them, each of them has its record and none was left. At the end of the source this
gives the content, the records and the buffer of the edit in closed form.
-/
import AlphaCodemod.Source.Edits
import AlphaCodemod.Proofs.Source.Pattern

namespace AlphaCodemod

/-! ## Measures of texts -/

@[simp] theorem Utf8.size_nil : Utf8.size [] = 0 := rfl

@[simp] theorem Utf8.size_append (cs ds : List Char) : Utf8.size (cs ++ ds) = Utf8.size cs + Utf8.size ds := by
  simp [Utf8.size, Utf8.encode]

@[simp] theorem Source.newlines_nil : Source.newlines [] = 0 := rfl

@[simp] theorem Source.newlines_append (cs ds : List Char) :
    Source.newlines (cs ++ ds) = Source.newlines cs + Source.newlines ds := by
  simp [Source.newlines]

/-! ## Literals spell numbers -/

theorem Numeral.decimal_read?_text {n : Numeral} (hn : n.WellFormed) : Decimal.read? n.text = some (n.value, []) := by
  obtain ⟨whole, fraction⟩ := n
  obtain ⟨hw, hf, hne⟩ := hn
  simp only at hw hf hne
  unfold Decimal.read? text
  cases fraction with
  | nil =>
    have hwhole : whole ≠ [] := hne.resolve_right (by simp)
    have hend : ∀ c ∈ ([] : List Char).head?, isDigit c = false := by simp
    have htake := takeWhile_run hw hend
    have hdrop := dropWhile_run hw hend
    rw [List.append_nil] at htake hdrop
    simp only [List.isEmpty_nil, if_true, htake, hdrop]
    simp [hwhole, value]
  | cons d ds =>
    have hpoint : ∀ c ∈ ('.' :: d :: ds).head?, isDigit c = false := by
      rintro c ⟨⟩
      rfl
    have hend : ∀ c ∈ ([] : List Char).head?, isDigit c = false := by simp
    have htake := takeWhile_run hf hend
    have hdrop := dropWhile_run hf hend
    rw [List.append_nil] at htake hdrop
    simp only [List.isEmpty_cons, Bool.false_eq_true, if_false, takeWhile_run hw hpoint, dropWhile_run hw hpoint]
    simp [htake, hdrop, value]

/-- A literal is never refused: it spells the number nearest to its decimal. -/
theorem Numeral.ofText?_text {n : Numeral} (hn : n.WellFormed) :
    Binary64.ofText? n.text = some (.ofDecimal n.value) := by
  obtain ⟨c, cs, hcons, hfirst⟩ := exists_text_eq_cons hn
  have hread := decimal_read?_text hn
  have hsign : c ≠ '+' ∧ c ≠ '-' := by
    rcases hfirst with h | rfl
    · constructor <;> rintro rfl <;> exact absurd h (by decide)
    · decide
  have hunsigned : Binary64.ofText? (c :: cs) = Binary64.unsigned? (c :: cs) := by
    unfold Binary64.ofText?
    split
    · rename_i h; exact absurd (List.cons.inj h).1 hsign.1
    · rename_i h; exact absurd (List.cons.inj h).1 hsign.2
    · rfl
  rw [hcons, hunsigned, ← hcons, Binary64.unsigned?, hread]

/-! ## What sites say -/

/-- The text of a site with its call replaced. -/
def Site.edited (s : Site) : List Char := s.gap ++ s.call.alpha.call

namespace Source

/-- The texts of sites one after the other. -/
def textOf (sites : List Site) : List Char := sites.flatMap Site.text

/-- The texts of sites one after the other, with the calls replaced. -/
def editedOf (sites : List Site) : List Char := sites.flatMap Site.edited

@[simp] theorem textOf_nil : textOf [] = [] := rfl

@[simp] theorem textOf_cons (s : Site) (sites : List Site) : textOf (s :: sites) = s.text ++ textOf sites := rfl

@[simp] theorem textOf_append (ss ts : List Site) : textOf (ss ++ ts) = textOf ss ++ textOf ts := by
  simp [textOf]

@[simp] theorem editedOf_nil : editedOf [] = [] := rfl

@[simp] theorem editedOf_cons (s : Site) (sites : List Site) : editedOf (s :: sites) = s.edited ++ editedOf sites :=
  rfl

@[simp] theorem editedOf_append (ss ts : List Site) : editedOf (ss ++ ts) = editedOf ss ++ editedOf ts := by
  simp [editedOf]

/-- The record of a site that stands behind a given text. -/
def recordAt (before : List Char) (s : Site) : Replacement :=
  { start := Utf8.size (before ++ s.gap)
    stop := Utf8.size (before ++ s.text)
    line := 1 + newlines (before ++ s.gap)
    literal := s.call.number.text
    alpha := s.call.alpha }

/-- The records of sites that stand behind a given text. -/
def recordsAt (before : List Char) : List Site → List Replacement
  | [] => []
  | s :: sites => recordAt before s :: recordsAt (before ++ s.text) sites

theorem recordsAt_append (before : List Char) (ss ts : List Site) :
    recordsAt before (ss ++ ts) = recordsAt before ss ++ recordsAt (before ++ textOf ss) ts := by
  induction ss generalizing before with
  | nil => simp [recordsAt]
  | cons s ss ih => simp [recordsAt, ih]

theorem length_recordsAt (before : List Char) (sites : List Site) : (recordsAt before sites).length = sites.length := by
  induction sites generalizing before with
  | nil => rfl
  | cons s sites ih => simp [recordsAt, ih]

/-- A record belongs to one of the sites, with all sites before it between. -/
theorem mem_recordsAt {before : List Char} {sites : List Site} {r : Replacement} :
    r ∈ recordsAt before sites ↔
      ∃ ss s ts, sites = ss ++ s :: ts ∧ r = recordAt (before ++ textOf ss) s := by
  induction sites generalizing before with
  | nil => simp [recordsAt]
  | cons s sites ih =>
    rw [recordsAt, List.mem_cons, ih]
    constructor
    · rintro (rfl | ⟨ss, t, ts, rfl, rfl⟩)
      · exact ⟨[], s, sites, rfl, by simp⟩
      · exact ⟨s :: ss, t, ts, rfl, by simp⟩
    · rintro ⟨ss, t, ts, h, rfl⟩
      cases ss with
      | nil =>
        cases h
        exact Or.inl (by simp)
      | cons u ss =>
        cases h
        exact Or.inr ⟨ss, t, ts, rfl, by simp⟩

/-! ## The invariant of the edit -/

namespace Draft

/-- The draft after the sites `done`. -/
structure Follows (done : List Site) (d : Draft) : Prop where
  buffer : d.buffer = if done = [] then none else some (editedOf done)
  copied : d.copied = Utf8.size (textOf done)
  pending : d.pending = []
  lines : d.line + newlines d.uncounted = 1 + newlines (textOf done)
  replacements : d.replacements = recordsAt [] done
  unread : d.unread = []

theorem follows_nil : Follows [] {} := ⟨rfl, rfl, rfl, rfl, rfl, rfl⟩

theorem Follows.getD_buffer {done : List Site} {d : Draft} (h : Follows done d) : d.buffer.getD [] = editedOf done := by
  rw [h.buffer]
  split
  · rename_i hd; simp [hd]
  · rfl

/-- A step takes up one more site. Its call is well formed, so it is replaced and never left. -/
theorem follows_step {done : List Site} {d : Draft} {s : Site} (h : Follows done d) (hs : s.call.WellFormed) :
    Follows (done ++ [s]) (d.step s) := by
  have hstep : d.step s = d.replace s s.call.alpha := by
    unfold step
    rw [Numeral.ofText?_text hs.number]
    rfl
  have hlines := h.lines
  rw [hstep]
  refine ⟨?_, ?_, rfl, ?_, ?_, h.unread⟩
  · simp [replace, h.getD_buffer, h.pending, Site.edited, Replacement.text]
  · simp [replace, h.copied, h.pending, Site.text, Nat.add_assoc]
  · simp only [replace, newlines_append, textOf_append, textOf_cons, textOf_nil, List.append_nil, Site.text]
    omega
  · -- the counter runs behind the cursor: what is uncounted is counted with the gap of the next call
    have hline : d.line + (newlines d.uncounted + newlines s.gap) = 1 + (newlines (textOf done) + newlines s.gap) := by
      omega
    rw [recordsAt_append]
    simp only [replace, h.replacements, recordsAt, recordAt, h.copied, h.pending, List.nil_append,
      Utf8.size_append, newlines_append, Site.text, hline, Nat.add_assoc]

/-- Any number of steps. -/
theorem follows_foldl {done : List Site} {d : Draft} (h : Follows done d) (sites : List Site)
    (hs : ∀ s ∈ sites, s.call.WellFormed) : Follows (done ++ sites) (sites.foldl step d) := by
  induction sites generalizing done d with
  | nil => simpa using h
  | cons s sites ih =>
    rw [List.foldl_cons, List.append_cons]
    exact ih (follows_step h (hs s (by simp))) fun t ht => hs t (by simp [ht])

/-- At the end of a source without a call there is no buffer, and with one there is. -/
theorem Follows.isBorrowed_finish {sites : List Site} {d : Draft} (h : Follows sites d) (source tail : List Char) :
    (d.finish source tail).isBorrowed = true ↔ sites = [] := by
  simp only [Edited.isBorrowed, finish, h.buffer, Option.isNone_map]
  split
  · rename_i hs; simp [hs]
  · rename_i hs; simp [hs]

theorem Follows.content_finish {sites : List Site} {d : Draft} (h : Follows sites d) (tail : List Char) :
    (d.finish (textOf sites ++ tail) tail).content = editedOf sites ++ tail := by
  simp only [Edited.content, finish, h.buffer, h.pending, List.nil_append]
  split
  · rename_i hs; simp [hs]
  · rfl

end Draft

/-! ## The edit in closed form -/

theorem textOf_split (cs : List Char) : textOf (split cs).sites ++ (split cs).tail = cs := text_split cs

theorem wellFormed_of_mem_split {cs : List Char} : ∀ s ∈ (split cs).sites, s.call.WellFormed := by
  fun_induction split cs with
  | case1 => simp
  | case2 c cs call rest h _ ih =>
    rintro s (_ | ⟨_, hs⟩)
    · exact OpacityCall.wellFormed_of_read? h
    · exact ih s hs
  | case3 c cs h ih =>
    generalize split cs = parts at ih ⊢
    obtain ⟨_ | ⟨site, sites⟩, tail⟩ := parts
    · simp [Parts.withChar]
    · rintro s (_ | ⟨_, hs⟩)
      · exact ih site (by simp)
      · exact ih s (List.mem_cons_of_mem _ hs)

/-- The draft behind the last site of a source. -/
theorem follows_split (cs : List Char) :
    Draft.Follows (split cs).sites ((split cs).sites.foldl Draft.step {}) := by
  simpa using Draft.follows_foldl Draft.follows_nil (split cs).sites wellFormed_of_mem_split

theorem replacements_edited (cs : List Char) : (edited cs).replacements = recordsAt [] (split cs).sites :=
  (follows_split cs).replacements

theorem unread_edited (cs : List Char) : (edited cs).unread = [] := (follows_split cs).unread

theorem count_edited (cs : List Char) : (edited cs).count = (split cs).sites.length := by
  rw [Edited.count, replacements_edited, length_recordsAt]

theorem isBorrowed_edited (cs : List Char) : (edited cs).isBorrowed = true ↔ (split cs).sites = [] :=
  (follows_split cs).isBorrowed_finish cs _

theorem content_edited (cs : List Char) : (edited cs).content = editedOf (split cs).sites ++ (split cs).tail := by
  have h := (follows_split cs).content_finish (split cs).tail
  rw [textOf_split] at h
  exact h

end Source
end AlphaCodemod
