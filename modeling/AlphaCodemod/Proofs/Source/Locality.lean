/-
Editing is local: two texts that meet where no call stands across the seam are edited each by itself, and the
edits are set one behind the other (`Source.editing_is_local`). What is read at a place depends on nothing
behind the call that is found there, so that more text can only add a call which needs some of it; and such a
call would stand across the seam.
-/
import AlphaCodemod.Proofs.Source.Occurrences

namespace AlphaCodemod

/-! ## Parts one behind the other -/

namespace Parts

/-- Parts with others behind them. The tail runs on into the first gap of those. -/
def append (p q : Parts) : Parts :=
  match q.sites with
  | [] => ⟨p.sites, p.tail ++ q.tail⟩
  | s :: sites => ⟨p.sites ++ ⟨p.tail ++ s.gap, s.call⟩ :: sites, q.tail⟩

theorem nil_append (q : Parts) : append ⟨[], []⟩ q = q := by
  obtain ⟨_ | ⟨s, sites⟩, tail⟩ := q <;> rfl

theorem withChar_append (c : Char) (p q : Parts) : (p.withChar c).append q = (p.append q).withChar c := by
  obtain ⟨_ | ⟨s, sites⟩, tail⟩ := p <;> obtain ⟨_ | ⟨s', sites'⟩, tail'⟩ := q <;> rfl

theorem withCall_append (call : OpacityCall) (p q : Parts) :
    (p.withCall call).append q = (p.append q).withCall call := by
  obtain ⟨_ | ⟨s', sites'⟩, tail'⟩ := q <;> rfl

/-- The parts with every call replaced. -/
def edited (p : Parts) : List Char := Source.editedOf p.sites ++ p.tail

theorem edited_append (p q : Parts) : (p.append q).edited = p.edited ++ q.edited := by
  obtain ⟨_ | ⟨s, sites⟩, tail⟩ := q <;> simp [append, edited, Site.edited]

theorem recordsAt_append (before : List Char) (p q : Parts) :
    Source.recordsAt before (p.append q).sites =
      Source.recordsAt before p.sites ++ Source.recordsAt (before ++ p.text) q.sites := by
  obtain ⟨_ | ⟨s, sites⟩, tail⟩ := q
  · simp [append, Source.recordsAt]
  · simp [append, Source.recordsAt_append, Source.recordsAt, Source.recordAt, text, Source.textOf, Site.text]

end Parts

/-- The same record behind a text of so many bytes and lines. -/
def Replacement.behind (bytes lines : Nat) (r : Replacement) : Replacement :=
  { r with start := bytes + r.start, stop := bytes + r.stop, line := lines + r.line }

namespace Source

theorem recordsAt_behind (front before : List Char) (sites : List Site) :
    recordsAt (front ++ before) sites =
      (recordsAt before sites).map (Replacement.behind (Utf8.size front) (newlines front)) := by
  induction sites generalizing before with
  | nil => rfl
  | cons s sites ih =>
    have hrecord : recordAt (front ++ before) s =
        (recordAt before s).behind (Utf8.size front) (newlines front) := by
      simp only [recordAt, Replacement.behind, List.append_assoc, Utf8.size_append, newlines_append front,
        Nat.add_left_comm 1]
    rw [recordsAt, recordsAt, List.map_cons, hrecord, List.append_assoc, ih]

/-! ## Texts that meet -/

/-- No occurrence of the pattern begins in the first text and ends in the second. -/
def MeetCleanly (a b : List Char) : Prop :=
  ∀ i j, Occurs (a ++ b) i j → i < Utf8.size a → j ≤ Utf8.size a

theorem Occurs.behind {cs : List Char} {i j : Nat} (h : Occurs cs i j) (front : List Char) :
    Occurs (front ++ cs) (Utf8.size front + i) (Utf8.size front + j) := by
  obtain ⟨t, ht, a, b, rfl, rfl, rfl⟩ := h
  exact ⟨t, ht, front ++ a, b, by simp only [List.append_assoc], by rw [Utf8.size_append],
    by rw [List.append_assoc, Utf8.size_append front]⟩

/-- What is cut off in front does not matter. -/
theorem MeetCleanly.of_append {front a b : List Char} (h : MeetCleanly (front ++ a) b) : MeetCleanly a b := by
  intro i j hoccurs hi
  have hbehind := hoccurs.behind front
  rw [← List.append_assoc] at hbehind
  have := h _ _ hbehind
  rw [Utf8.size_append] at this
  omega

/-- A call that begins in the first text is a call of that text alone. -/
theorem MeetCleanly.exists_eq_append {a b rest : List Char} {call : OpacityCall} (h : MeetCleanly a b)
    (hcall : call.WellFormed) (ha : a ≠ []) (htext : a ++ b = call.text ++ rest) : ∃ rest', a = call.text ++ rest' := by
  have hoccurs : Occurs (a ++ b) 0 (Utf8.size call.text) :=
    ⟨call.text, Pattern.mem_call.2 ⟨call, hcall, rfl⟩, [], rest, htext, rfl, rfl⟩
  have hsize := h _ _ hoccurs (Utf8.size_pos ha)
  rcases List.append_eq_append_iff.1 htext with ⟨x, hx, -⟩ | ⟨x, hx, -⟩
  · -- what the call would have more than the first text is without bytes
    have hnil : x = [] := by
      by_contra hne
      have := Utf8.size_pos hne
      rw [hx, Utf8.size_append] at hsize
      omega
    exact ⟨[], by rw [hx, hnil, List.append_nil, List.append_nil]⟩
  · exact ⟨x, hx⟩

/-- Where no call can be read, none can be read when more follows. -/
theorem MeetCleanly.read?_eq_none {a b : List Char} (h : MeetCleanly a b) (ha : a ≠ [])
    (hread : OpacityCall.read? a = none) : OpacityCall.read? (a ++ b) = none := by
  cases hboth : OpacityCall.read? (a ++ b) with
  | none => rfl
  | some found =>
    obtain ⟨call, rest⟩ := found
    have hcall := OpacityCall.wellFormed_of_read? hboth
    obtain ⟨rest', rfl⟩ := h.exists_eq_append hcall ha (OpacityCall.eq_append_of_read? hboth)
    rw [OpacityCall.read?_append hcall] at hread
    cases hread

theorem split_of_read? {cs rest : List Char} {call : OpacityCall} (h : OpacityCall.read? cs = some (call, rest)) :
    split cs = (split rest).withCall call := by
  rw [split.eq_def]
  split
  · cases h
  · split <;> simp_all

theorem split_of_none {c : Char} {cs : List Char} (h : OpacityCall.read? (c :: cs) = none) :
    split (c :: cs) = (split cs).withChar c := by
  rw [split]
  split <;> simp_all

/-- Texts that meet cleanly are cut each by itself. -/
theorem split_append {a b : List Char} (h : MeetCleanly a b) : split (a ++ b) = (split a).append (split b) := by
  fun_induction split a with
  | case1 => exact (Parts.nil_append _).symm
  | case2 c cs call rest hread _ ih =>
    have htext := OpacityCall.eq_append_of_read? hread
    have hboth : OpacityCall.read? ((c :: cs) ++ b) = some (call, rest ++ b) := by
      rw [htext, List.append_assoc]
      exact OpacityCall.read?_append (OpacityCall.wellFormed_of_read? hread) _
    rw [htext] at h
    rw [split_of_read? hboth, ih h.of_append, Parts.withCall_append]
  | case3 c cs hread ih =>
    have hboth := h.read?_eq_none (List.cons_ne_nil c cs) hread
    rw [List.cons_append] at hboth ⊢
    rw [← List.singleton_append] at h
    rw [split_of_none hboth, ih h.of_append, Parts.withChar_append]

/-- Texts that meet cleanly are edited each by itself: the contents follow each other, and so do the records,
those of the second text moved by the bytes and the lines of the first. -/
theorem editing_is_local (a b : List Char) (h : MeetCleanly a b) :
    (edited (a ++ b)).content = (edited a).content ++ (edited b).content ∧
    (edited (a ++ b)).replacements =
      (edited a).replacements ++ (edited b).replacements.map (Replacement.behind (Utf8.size a) (newlines a)) := by
  have hsplit := split_append h
  constructor
  · rw [content_edited, content_edited a, content_edited b, hsplit]
    exact Parts.edited_append _ _
  · have hbehind := recordsAt_behind a [] (split b).sites
    rw [List.append_nil] at hbehind
    rw [replacements_edited, replacements_edited a, replacements_edited b, hsplit, Parts.recordsAt_append,
      text_split, List.nil_append, hbehind]

/-- The first text breaks off within a call; what follows makes a call of its own of it, not one across the seam. -/
theorem editing_at_a_broken_call :
    let a := "c.withOpacity(.5)\n.withOpacity( 0".toList
    let b := ".withOpacity(1)\n".toList
    MeetCleanly a b ∧ (edited (a ++ b)).content = (edited a).content ++ (edited b).content ∧
    (edited (a ++ b)).replacements =
      (edited a).replacements ++ (edited b).replacements.map (Replacement.behind 33 1) := by
  have hclean : MeetCleanly "c.withOpacity(.5)\n.withOpacity( 0".toList ".withOpacity(1)\n".toList := by
    have hrecords : ∀ r ∈ (edited "c.withOpacity(.5)\n.withOpacity( 0.withOpacity(1)\n".toList).replacements,
        r.start < 33 → r.stop ≤ 33 := by
      decide +kernel
    intro i j hoccurs
    obtain ⟨r, hr, rfl, rfl⟩ := occurs_iff.1 hoccurs
    exact hrecords r hr
  exact ⟨hclean, editing_is_local _ _ hclean⟩

end Source
end AlphaCodemod
