/-
The content of an edit. Between the recorded calls every gap of the source is kept as it is and in its
place, and in the place of each call stands the alpha call of its record; so the content differs from
the source exactly if there is a record. Nothing that an edit writes can be part of an opacity call, so
an edited text has none left.
-/
import AlphaCodemod.Proofs.Number.Digits
import AlphaCodemod.Proofs.Source.Occurrences

namespace AlphaCodemod
namespace Source

/-! ## Gaps and what stands between them -/

/-- Texts in turn: a gap, what follows it, the next gap, and so on. -/
def weave : List (List Char) → List (List Char) → List Char
  | [], _ => []
  | gap :: gaps, [] => gap ++ weave gaps []
  | gap :: gaps, mid :: mids => gap ++ (mid ++ weave gaps mids)

/-- The gaps of parts, the tail among them. -/
def gapsOf (p : Parts) : List (List Char) := p.sites.map Site.gap ++ [p.tail]

theorem weave_gapsOf (f : Site → List Char) (p : Parts) :
    weave (gapsOf p) (p.sites.map f) = (p.sites.flatMap fun s => s.gap ++ f s) ++ p.tail := by
  obtain ⟨sites, tail⟩ := p
  unfold gapsOf
  induction sites with
  | nil => simp [weave]
  | cons s sites ih => simpa [weave] using ih

/-- Weaving stops before the calls that are left out. -/
theorem weave_take {p : Parts} {ss ts : List Site} {s : Site} (f : Site → List Char) (h : p.sites = ss ++ s :: ts) :
    weave ((gapsOf p).take (ss.length + 1)) ((p.sites.map f).take ss.length) =
      (ss.flatMap fun s => s.gap ++ f s) ++ s.gap := by
  obtain ⟨sites, tail⟩ := p
  obtain rfl : sites = ss ++ s :: ts := h
  unfold gapsOf
  induction ss with
  | nil => simp [weave]
  | cons t ss ih => simpa [weave] using ih

theorem map_text_recordsAt (before : List Char) (sites : List Site) :
    (recordsAt before sites).map Replacement.text = sites.map fun s => s.call.alpha.call := by
  induction sites generalizing before with
  | nil => rfl
  | cons s sites ih => simp [recordsAt, ih, recordAt, Replacement.text]

theorem getElem?_recordsAt {before : List Char} {sites : List Site} {i : Nat} {r : Replacement}
    (h : (recordsAt before sites)[i]? = some r) :
    ∃ ss s ts, sites = ss ++ s :: ts ∧ ss.length = i ∧ r = recordAt (before ++ textOf ss) s := by
  induction sites generalizing before i with
  | nil => simp [recordsAt] at h
  | cons s sites ih =>
    cases i with
    | zero =>
      obtain rfl : recordAt before s = r := by simpa [recordsAt] using h
      exact ⟨[], s, sites, rfl, rfl, by simp⟩
    | succ i =>
      obtain ⟨ss, t, ts, rfl, rfl, rfl⟩ := ih (by simpa [recordsAt] using h)
      exact ⟨s :: ss, t, ts, rfl, rfl, by simp⟩

/-! ## Changed and unchanged -/

/-- The call of an alpha differs from every opacity call in its sixth character, whatever follows. -/
theorem alpha_call_append_ne (a : Alpha) (call : OpacityCall) (x y : List Char) : a.call ++ x ≠ call.text ++ y := by
  intro h
  simp [Alpha.call, OpacityCall.text, OpacityCall.opening] at h

theorem content_eq_iff (cs : List Char) : (edited cs).content = cs ↔ (split cs).sites = [] := by
  have hcs := textOf_split cs
  rw [content_edited]
  generalize (split cs).sites = sites at hcs ⊢
  generalize (split cs).tail = tail at hcs ⊢
  subst hcs
  cases sites with
  | nil => simp
  | cons s sites =>
    simp only [editedOf_cons, textOf_cons, Site.edited, Site.text, List.append_assoc, List.append_cancel_left_eq,
      reduceCtorEq, iff_false]
    exact alpha_call_append_ne _ _ _ _

/-- What an edit writes in the place of a call: the alpha of the record in decimal digits. -/
theorem text_spells (r : Replacement) :
    ∃ ds, Spells ds r.alpha.val ∧ r.text = ".withAlpha(".toList ++ (ds ++ ")".toList) :=
  ⟨_, spells_decimalDigits _, rfl⟩

/-- The source is gaps and recorded calls in turn, and the content is the same gaps with the texts of
the records in the places of the calls. The content is the source exactly if there are no records, and
exactly then it is the source itself. -/
theorem content_keeps_the_gaps (cs : List Char) :
    (∃ gaps slices : List (List Char),
      gaps.length = (edited cs).count + 1 ∧ slices.length = (edited cs).count ∧
      cs = weave gaps slices ∧
      (edited cs).content = weave gaps ((edited cs).replacements.map Replacement.text) ∧
      ∀ i r, (edited cs).replacements[i]? = some r →
        r.start = Utf8.size (weave (gaps.take (i + 1)) (slices.take i)) ∧
        ∃ slice, slices[i]? = some slice ∧ Utf8.IsSlice cs r.start r.stop slice) ∧
    (∀ r ∈ (edited cs).replacements,
      ∃ ds, Spells ds r.alpha.val ∧ r.text = ".withAlpha(".toList ++ (ds ++ ")".toList)) ∧
    ((edited cs).content = cs ↔ (edited cs).count = 0) ∧
    ((edited cs).count = 0 ↔ (edited cs).isBorrowed = true) := by
  have hcount : (edited cs).count = 0 ↔ (split cs).sites = [] := by
    rw [count_edited, List.length_eq_zero_iff]
  refine ⟨⟨gapsOf (split cs), (split cs).sites.map fun s => s.call.text, ?_, ?_, ?_, ?_, fun i r h => ?_⟩,
    fun r _ => text_spells r, ?_, ?_⟩
  · simp [gapsOf, count_edited]
  · simp [count_edited]
  · rw [weave_gapsOf]
    exact (textOf_split cs).symm
  · rw [replacements_edited, map_text_recordsAt, weave_gapsOf, content_edited]
    rfl
  · rw [replacements_edited] at h
    obtain ⟨ss, s, ts, hsites, rfl, rfl⟩ := getElem?_recordsAt h
    refine ⟨?_, s.call.text, by simp [hsites], isSlice_recordAt hsites⟩
    rw [weave_take _ hsites]
    rfl
  · rw [content_eq_iff, hcount]
  · rw [hcount, isBorrowed_edited]

/-! ## Texts without a call -/

section Infix

variable {m u v w : List Char} {c : Char}

/-- A text without a character lies on one side of it. -/
theorem infix_of_notMem (hc : c ∉ m) (h : m <:+: u ++ c :: v) : m <:+: u ∨ m <:+: v := by
  obtain ⟨x, y, h⟩ := h
  -- where `m` ends decides: at or before `c`, or behind it, and then it has to start there too
  rcases List.append_eq_append_iff.1 h with ⟨t, h1, h2⟩ | ⟨t, h1, h2⟩
  · exact Or.inl ⟨x, t, h1.symm⟩
  · cases t with
    | nil => exact Or.inl ⟨x, [], by simpa using h1⟩
    | cons d t =>
      obtain ⟨rfl, rfl⟩ := List.cons.inj h2
      rcases List.append_eq_append_iff.1 h1 with ⟨z, h3, h4⟩ | ⟨z, h3, h4⟩
      · exact absurd (h4 ▸ (by simp)) hc
      · cases z with
        | nil => exact absurd (by rw [← List.nil_append m, ← h4]; simp) hc
        | cons e z =>
          obtain ⟨rfl, rfl⟩ := List.cons.inj h4
          exact Or.inr ⟨z, y, rfl⟩

/-- A text lies behind everything that has no character to start it. -/
theorem infix_of_head_notMem (hc : c ∉ w) (h : c :: m <:+: w ++ v) : c :: m <:+: v := by
  induction w with
  | nil => exact h
  | cons d w ih =>
    rw [List.mem_cons, not_or] at hc
    rcases List.infix_cons_iff.1 h with h | h
    · exact absurd (List.cons_prefix_cons.1 h).1 hc.1
    · exact ih hc.2 h

/-- A text lies before everything that has no character to end it. -/
theorem infix_of_last_notMem (hc : c ∉ w) (h : m ++ [c] <:+: u ++ w) : m ++ [c] <:+: u := by
  rw [← List.reverse_infix] at h ⊢
  simp only [List.reverse_append, List.reverse_singleton, List.singleton_append] at h ⊢
  exact infix_of_head_notMem (by simpa using hc) h

end Infix

/-- A text without an opacity call in it. -/
def IsPlain (cs : List Char) : Prop := ∀ m ∈ Pattern.call, ¬ m <:+: cs

theorem sites_eq_nil_of_isPlain {cs : List Char} (h : IsPlain cs) : (split cs).sites = [] := by
  cases hs : (split cs).sites with
  | nil => rfl
  | cons s ts =>
    have hsites : (split cs).sites = [] ++ s :: ts := hs
    exact absurd ⟨_, _, by rw [List.append_assoc]; exact (eq_append_of_site hsites).symm⟩
      (h _ (Pattern.mem_call.2 ⟨_, wellFormed_of_site hsites, rfl⟩))

theorem isPlain_nil : IsPlain [] := by
  intro m hm h
  obtain ⟨call, hc, rfl⟩ := Pattern.mem_call.1 hm
  obtain ⟨body, hdot, -⟩ := OpacityCall.exists_text_eq_dot_w hc
  simp [hdot] at h

/-- A character in front of a plain text leaves it plain if no call can be read there. -/
theorem isPlain_cons {c : Char} {g cs : List Char} (hg : IsPlain g) (hpre : g <+: cs)
    (hread : OpacityCall.read? (c :: cs) = none) : IsPlain (c :: g) := by
  obtain ⟨rest, rfl⟩ := hpre
  intro m hm h
  obtain ⟨call, hc, rfl⟩ := Pattern.mem_call.1 hm
  rcases List.infix_cons_iff.1 h with ⟨y, hy⟩ | h
  · rw [← List.cons_append, ← hy, List.append_assoc, OpacityCall.read?_append hc] at hread
    cases hread
  · exact hg _ hm h

/-- The gaps of a source are plain, and so is its tail. -/
theorem isPlain_split (cs : List Char) : (∀ s ∈ (split cs).sites, IsPlain s.gap) ∧ IsPlain (split cs).tail := by
  fun_induction split cs with
  | case1 => exact ⟨by simp, isPlain_nil⟩
  | case2 c cs call rest h _ ih =>
    refine ⟨?_, ih.2⟩
    rintro s (_ | ⟨_, hs⟩)
    · exact isPlain_nil
    · exact ih.1 s hs
  | case3 c cs hread ih =>
    have hcs := text_split cs
    generalize split cs = parts at ih hcs ⊢
    obtain ⟨_ | ⟨site, sites⟩, tail⟩ := parts
    · have hpre : tail <+: cs := ⟨[], by simpa [Parts.text] using hcs⟩
      exact ⟨by simp [Parts.withChar], isPlain_cons ih.2 hpre hread⟩
    · have hpre : site.gap <+: cs :=
        ⟨site.call.text ++ (textOf sites ++ tail), by simpa [Parts.text, Site.text, textOf] using hcs⟩
      refine ⟨?_, ih.2⟩
      rintro s (_ | ⟨_, hs⟩)
      · exact isPlain_cons (ih.1 site (by simp)) hpre hread
      · exact ih.1 s (List.mem_cons_of_mem _ hs)

/-- An alpha call between plain texts leaves them plain: an opacity call has no `A`, so it could only
end in `.with` or start behind the `A`, and it can do neither. -/
theorem isPlain_alpha_call {g rest : List Char} (hg : IsPlain g) (hrest : IsPlain rest) (a : Alpha) :
    IsPlain (g ++ (a.call ++ rest)) := by
  intro m hm h
  obtain ⟨call, hc, rfl⟩ := Pattern.mem_call.1 hm
  have hA : 'A' ∉ call.text := by
    rw [OpacityCall.text_eq_inner, List.mem_append, List.mem_append]
    rintro (h | h | h)
    · exact absurd h (by decide)
    · exact OpacityCall.letter_notMem_inner hc rfl rfl (by decide) h
    · exact absurd h (by decide)
  have hsplit : g ++ (a.call ++ rest) =
      (g ++ ".with".toList) ++ 'A' :: (("lpha(".toList ++ (decimalDigits a.val ++ [')'])) ++ rest) := by
    simp [Alpha.call]
  rw [hsplit] at h
  rcases infix_of_notMem hA h with h | h
  · rw [OpacityCall.text_eq_inner, ← List.append_assoc] at h
    have := infix_of_last_notMem (by decide) h
    rw [List.append_assoc, ← OpacityCall.text_eq_inner] at this
    exact hg _ hm this
  · obtain ⟨body, hdot, -⟩ := OpacityCall.exists_text_eq_dot_w hc
    have hnodot : '.' ∉ "lpha(".toList ++ (decimalDigits a.val ++ [')']) := by
      simp only [List.mem_append]
      rintro (h | h | h)
      · exact absurd h (by decide)
      · exact absurd ((spells_decimalDigits a.val).digits _ h) (by decide)
      · exact absurd h (by decide)
    rw [hdot] at h
    have := infix_of_head_notMem hnodot h
    rw [← hdot] at this
    exact hrest _ hm this

theorem isPlain_editedOf {sites : List Site} {tail : List Char} (hs : ∀ s ∈ sites, IsPlain s.gap) (ht : IsPlain tail) :
    IsPlain (editedOf sites ++ tail) := by
  induction sites with
  | nil => exact ht
  | cons s sites ih =>
    rw [editedOf_cons, Site.edited, List.append_assoc, List.append_assoc]
    exact isPlain_alpha_call (hs s (by simp)) (ih fun t ht => hs t (List.mem_cons_of_mem _ ht)) _

/-- A second edit finds nothing and changes nothing. -/
theorem edited_again (cs : List Char) :
    (edited (edited cs).content).count = 0 ∧ (edited (edited cs).content).content = (edited cs).content := by
  have hplain : IsPlain (edited cs).content := by
    rw [content_edited]
    exact isPlain_editedOf (isPlain_split cs).1 (isPlain_split cs).2
  have hsites := sites_eq_nil_of_isPlain hplain
  refine ⟨?_, (content_eq_iff _).2 hsites⟩
  rw [count_edited, hsites, List.length_nil]

end Source
end AlphaCodemod
