/-
The records of an edit are the occurrences of the pattern in the source, all of them and nothing
else, although the reader goes from left to right and never looks back. What carries this is that a
call cannot start inside another one, so that no occurrence is ever jumped over.
-/
import Mathlib.Data.List.Pairwise
import AlphaCodemod.Proofs.Source.Draft

namespace AlphaCodemod

/-! ## Slices -/

namespace Utf8

/-- `t` is what stands in a text between the byte offsets `i` and `j`, both of them on character
boundaries. -/
def IsSlice (cs : List Char) (i j : Nat) (t : List Char) : Prop :=
  ∃ a b, cs = a ++ (t ++ b) ∧ i = size a ∧ j = size (a ++ t)

theorem size_pos {cs : List Char} (h : cs ≠ []) : 0 < size cs := by
  obtain ⟨c, cs, rfl⟩ := List.exists_cons_of_ne_nil h
  have hc : 0 < (encodeChar c).length := by
    unfold encodeChar
    dsimp only
    split_ifs <;> simp
  simp only [size, encode, List.flatMap_cons, List.length_append]
  omega

/-- Starts of one text that are equally long in bytes are equal. -/
theorem append_inj_of_size {a b a' b' : List Char} (h : a ++ b = a' ++ b') (hs : size a = size a') :
    a = a' ∧ b = b' := by
  -- what one of them has more is without bytes, and every character has some
  rcases List.append_eq_append_iff.1 h with ⟨x, rfl, rfl⟩ | ⟨x, rfl, rfl⟩ <;>
    rw [size_append] at hs <;>
    have hx : x = [] := by
      by_contra hne
      have := size_pos hne
      omega
  · simp [hx]
  · simp [hx]

/-- Two offsets cut out one text at most. -/
theorem IsSlice.unique {cs t t' : List Char} {i j : Nat} (h : IsSlice cs i j t) (h' : IsSlice cs i j t') : t = t' := by
  obtain ⟨a, b, rfl, rfl, rfl⟩ := h
  obtain ⟨a', b', hcs, hi, hj⟩ := h'
  obtain ⟨rfl, htb⟩ := append_inj_of_size hcs hi
  simp only [size_append] at hj
  exact (append_inj_of_size htb (by omega)).1

end Utf8

namespace Source

/-- The pattern occurs between two byte offsets of a source. -/
def Occurs (cs : List Char) (i j : Nat) : Prop := ∃ t ∈ Pattern.call, Utf8.IsSlice cs i j t

/-! ## Sites and occurrences -/

/-- One more character in front moves every site by one. -/
theorem sites_withChar {p : Parts} {ss ts : List Site} {s : Site} (c : Char) (h : p.sites = ss ++ s :: ts) :
    ∃ ss' s', (p.withChar c).sites = ss' ++ s' :: ts ∧ textOf ss' ++ s'.gap = c :: (textOf ss ++ s.gap) ∧
      s'.call = s.call := by
  obtain ⟨sites, tail⟩ := p
  obtain rfl : sites = ss ++ s :: ts := h
  cases ss with
  | nil => exact ⟨[], ⟨c :: s.gap, s.call⟩, rfl, rfl, rfl⟩
  | cons u ss => exact ⟨⟨c :: u.gap, u.call⟩ :: ss, s, rfl, by simp [Site.text], rfl⟩

/-- Every call in a source is that of a site. -/
theorem exists_site_of_call {cs a b : List Char} {call : OpacityCall} (hc : call.WellFormed)
    (h : cs = a ++ (call.text ++ b)) :
    ∃ ss s ts, (split cs).sites = ss ++ s :: ts ∧ a = textOf ss ++ s.gap ∧ s.call = call := by
  obtain ⟨body, hdot, -⟩ := OpacityCall.exists_text_eq_dot_w hc
  fun_induction split cs generalizing a with
  | case1 => simp [hdot] at h
  | case2 c cs site rest hread _ ih =>
    by_cases ha : a = []
    · -- the call stands where one was read, and reading is determined
      subst ha
      rw [h, List.nil_append, OpacityCall.read?_append hc] at hread
      cases hread
      exact ⟨[], ⟨[], call⟩, (split b).sites, rfl, rfl, rfl⟩
    · -- it stands behind the one that was read
      have htext := OpacityCall.eq_append_of_read? hread
      obtain ⟨a', rfl, hrest⟩ := OpacityCall.text_prefix_of_append (OpacityCall.wellFormed_of_read? hread) hc ha
        (htext.symm.trans h)
      obtain ⟨ss, s, ts, hsites, rfl, hcall⟩ := ih hrest
      exact ⟨⟨[], site⟩ :: ss, s, ts, by simp [Parts.withCall, hsites], by simp [Site.text], hcall⟩
  | case3 c cs hread ih =>
    cases a with
    | nil => rw [h, List.nil_append, OpacityCall.read?_append hc] at hread; cases hread
    | cons x a =>
      obtain ⟨rfl, htail⟩ := List.cons.inj h
      obtain ⟨ss, s, ts, hsites, rfl, hcall⟩ := ih htail
      obtain ⟨ss', s', hsites', hgap, hcall'⟩ := sites_withChar c hsites
      exact ⟨ss', s', ts, hsites', hgap.symm, hcall'.trans hcall⟩

theorem wellFormed_of_site {cs : List Char} {ss ts : List Site} {s : Site} (h : (split cs).sites = ss ++ s :: ts) :
    s.call.WellFormed := by
  have hs : s ∈ (split cs).sites := by simp [h]
  exact wellFormed_of_mem_split s hs

/-- The call of a site stands in the source where the site says. -/
theorem eq_append_of_site {cs : List Char} {ss ts : List Site} {s : Site} (h : (split cs).sites = ss ++ s :: ts) :
    cs = (textOf ss ++ s.gap) ++ (s.call.text ++ (textOf ts ++ (split cs).tail)) := by
  have hcs := textOf_split cs
  rw [h] at hcs
  simpa [Site.text] using hcs.symm

/-- The slice of a record is the call of its site. -/
theorem isSlice_recordAt {cs : List Char} {ss ts : List Site} {s : Site} (h : (split cs).sites = ss ++ s :: ts) :
    Utf8.IsSlice cs (recordAt (textOf ss) s).start (recordAt (textOf ss) s).stop s.call.text :=
  ⟨_, _, eq_append_of_site h, rfl, by simp [recordAt, Site.text]⟩

theorem mem_replacements {cs : List Char} {r : Replacement} :
    r ∈ (edited cs).replacements ↔ ∃ ss s ts, (split cs).sites = ss ++ s :: ts ∧ r = recordAt (textOf ss) s := by
  rw [replacements_edited, mem_recordsAt]
  rfl

theorem occurs_iff {cs : List Char} {i j : Nat} :
    Occurs cs i j ↔ ∃ r ∈ (edited cs).replacements, r.start = i ∧ r.stop = j := by
  constructor
  · rintro ⟨t, ht, a, b, hcs, rfl, rfl⟩
    obtain ⟨call, hc, rfl⟩ := Pattern.mem_call.1 ht
    obtain ⟨ss, s, ts, hsites, rfl, rfl⟩ := exists_site_of_call hc hcs
    exact ⟨_, mem_replacements.2 ⟨ss, s, ts, hsites, rfl⟩, rfl, by simp [recordAt, Site.text]⟩
  · rintro ⟨r, hr, rfl, rfl⟩
    obtain ⟨ss, s, ts, hsites, rfl⟩ := mem_replacements.1 hr
    exact ⟨_, Pattern.mem_call.2 ⟨_, wellFormed_of_site hsites, rfl⟩, isSlice_recordAt hsites⟩

/-! ## The order of the records -/

theorem start_lt_stop_recordAt {s : Site} (hs : s.call.WellFormed) (before : List Char) :
    (recordAt before s).start < (recordAt before s).stop := by
  obtain ⟨body, hdot, -⟩ := OpacityCall.exists_text_eq_dot_w hs
  have hne : s.call.text ≠ [] := by simp [hdot]
  have := Utf8.size_pos hne
  simp only [recordAt, Site.text, Utf8.size_append]
  omega

/-- The records of sites stand behind what stands before the sites. -/
theorem size_le_start {before : List Char} {sites : List Site} : ∀ r ∈ recordsAt before sites, Utf8.size before ≤ r.start := by
  intro r hr
  obtain ⟨ss, s, ts, -, rfl⟩ := mem_recordsAt.1 hr
  simp only [recordAt, Utf8.size_append]
  omega

theorem pairwise_recordsAt (before : List Char) (sites : List Site) :
    (recordsAt before sites).Pairwise fun r r' => r.stop ≤ r'.start := by
  induction sites generalizing before with
  | nil => exact List.Pairwise.nil
  | cons s sites ih => exact List.Pairwise.cons (fun r hr => size_le_start r hr) (ih _)

theorem pairwise_replacements (cs : List Char) :
    (edited cs).replacements.Pairwise fun r r' => r.stop ≤ r'.start := by
  rw [replacements_edited]
  exact pairwise_recordsAt [] _

theorem start_lt_stop {cs : List Char} : ∀ r ∈ (edited cs).replacements, r.start < r.stop := by
  intro r hr
  obtain ⟨ss, s, ts, hsites, rfl⟩ := mem_replacements.1 hr
  exact start_lt_stop_recordAt (wellFormed_of_site hsites) _

/-- Two records of one list are the same, or one of them ends before the other starts. -/
theorem eq_or_apart {cs : List Char} {r r' : Replacement} (hr : r ∈ (edited cs).replacements)
    (hr' : r' ∈ (edited cs).replacements) : r = r' ∨ r.stop ≤ r'.start ∨ r'.stop ≤ r.start := by
  have hsymm : Std.Symm fun r r' : Replacement => r.stop ≤ r'.start ∨ r'.stop ≤ r.start := ⟨fun _ _ h => h.symm⟩
  have hapart := (pairwise_replacements cs).imp (fun {r r'} h => (Or.inl h : r.stop ≤ r'.start ∨ r'.stop ≤ r.start))
  by_cases h : r = r'
  · exact Or.inl h
  · exact Or.inr (hapart.forall hr hr' h)

/-! ## The literal of a slice -/

/-- The literal of a well-formed call is the only one that makes its text a call. -/
theorem literal_unique {call : OpacityCall} (hc : call.WellFormed) (lit : List Char) :
    lit ∈ Pattern.literal ∧ call.text ∈ Pattern.callOf {lit} ↔ lit = call.number.text := by
  constructor
  · rintro ⟨hlit, hcall⟩
    obtain ⟨n, hn, rfl⟩ := Pattern.mem_literal.1 hlit
    obtain ⟨before, lit, after, hb, hl, ha, htext⟩ := Pattern.mem_callOf.1 hcall
    obtain rfl : lit = n.text := hl
    have hwf : OpacityCall.WellFormed ⟨before, n, after⟩ := ⟨hb, hn, ha⟩
    rw [OpacityCall.eq_of_text_eq hc hwf htext]
  · rintro rfl
    exact ⟨Pattern.mem_literal.2 ⟨_, hc.number, rfl⟩,
      Pattern.mem_callOf.2 ⟨_, _, _, hc.before, rfl, hc.after, rfl⟩⟩

/-- The byte range of a record. -/
def span (r : Replacement) : Nat × Nat := (r.start, r.stop)

/-- The records are the occurrences: each occurrence of the pattern has its record and no record is
without one, none is listed twice, they follow each other in the order of the source, no literal was
left unread, and the literal of a record is the only one in its slice. In particular occurrences of
the pattern never overlap. -/
theorem replacements_are_the_occurrences (cs : List Char) :
    (∀ i j, Occurs cs i j ↔ (i, j) ∈ (edited cs).replacements.map span) ∧
    ((edited cs).replacements.map span).Nodup ∧
    (∀ r ∈ (edited cs).replacements, r.start < r.stop) ∧
    ((edited cs).replacements.Pairwise fun r r' => r.stop ≤ r'.start) ∧
    (∀ i j i' j', Occurs cs i j → Occurs cs i' j' → (i, j) = (i', j') ∨ j ≤ i' ∨ j' ≤ i) ∧
    (edited cs).unread = [] ∧
    ∀ r ∈ (edited cs).replacements, ∃ t, (∀ u, Utf8.IsSlice cs r.start r.stop u ↔ u = t) ∧
      ∀ lit, lit ∈ Pattern.literal ∧ t ∈ Pattern.callOf {lit} ↔ lit = r.literal := by
  refine ⟨fun i j => ?_, ?_, start_lt_stop, pairwise_replacements cs, fun i j i' j' h h' => ?_,
    unread_edited cs, fun r hr => ?_⟩
  · rw [occurs_iff, List.mem_map]
    simp only [span, Prod.mk.injEq]
  · rw [List.Nodup, List.pairwise_map]
    refine (pairwise_replacements cs).imp_of_mem fun {r r'} hr _ hle heq => ?_
    have hlt := start_lt_stop r hr
    have hstart : r.start = r'.start := congrArg Prod.fst heq
    omega
  · obtain ⟨r, hr, rfl, rfl⟩ := occurs_iff.1 h
    obtain ⟨r', hr', rfl, rfl⟩ := occurs_iff.1 h'
    rcases eq_or_apart hr hr' with rfl | hlt | hlt
    · exact Or.inl rfl
    · exact Or.inr (Or.inl hlt)
    · exact Or.inr (Or.inr hlt)
  · obtain ⟨ss, s, ts, hsites, rfl⟩ := mem_replacements.1 hr
    have hslice := isSlice_recordAt hsites
    exact ⟨_, fun u => ⟨fun hu => hu.unique hslice, fun hu => hu ▸ hslice⟩,
      literal_unique (wellFormed_of_site hsites)⟩

end Source
end AlphaCodemod
