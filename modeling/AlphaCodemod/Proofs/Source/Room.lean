/-
The room that an edit takes. The longest alpha call has as many bytes as the shortest opacity call, so that what has
been written is at no time longer than what it was made from (`Draft.Fits`). Hence the bytes of the source are room
enough: a buffer of that size which cannot grow takes the whole edit (`Source.edit_never_outgrows_its_source`).
-/
import Mathlib.Data.Nat.Digits.Defs
import AlphaCodemod.Proofs.Number.Digits
import AlphaCodemod.Proofs.Source.Occurrences

namespace AlphaCodemod

/-! ## The sizes of calls -/

/-- A digit is one byte. -/
theorem Utf8.size_digits {ds : List Char} (h : ∀ c ∈ ds, isDigit c = true) : size ds = ds.length := by
  induction ds with
  | nil => rfl
  | cons c ds ih =>
    obtain ⟨hc, hds⟩ := List.forall_mem_cons.1 h
    obtain ⟨-, hlast⟩ := (isDigit_iff c).1 hc
    have hbyte : size [c] = 1 := by
      have hchar : encodeChar c = [.ofNat c.toNat] := if_pos (by omega)
      simp [size, encode, hchar]
    rw [← List.singleton_append, size_append, hbyte, ih hds, List.length_append, List.length_singleton]

/-- No alpha has more than three digits. -/
theorem Alpha.size_call_le (a : Alpha) : Utf8.size a.call ≤ 15 := by
  have hopening : Utf8.size ['.', 'w', 'i', 't', 'h', 'A', 'l', 'p', 'h', 'a', '('] = 11 := rfl
  have hclosing : Utf8.size [')'] = 1 := rfl
  have hdigits : Utf8.size (decimalDigits a.val) = (decimalDigits a.val).length :=
    Utf8.size_digits (spells_decimalDigits a.val).digits
  have hthree : (decimalDigits a.val).length ≤ 3 := Nat.toDigits_length 10 a.val 3 (by omega) (by omega)
  rw [call, Utf8.size_append, Utf8.size_append, hopening, hclosing, hdigits]
  omega

/-- There is at least one digit in a call. -/
theorem OpacityCall.le_size_text {call : OpacityCall} (hc : call.WellFormed) : 15 ≤ Utf8.size call.text := by
  obtain ⟨c, cs, hcons, -⟩ := Numeral.exists_text_eq_cons hc.number
  have hnumber : 0 < Utf8.size call.number.text := Utf8.size_pos (by simp [hcons])
  have hopening : Utf8.size opening = 13 := rfl
  have hclosing : Utf8.size [')'] = 1 := rfl
  simp only [text, Utf8.size_append, hopening, hclosing]
  omega

/-- No alpha call is longer than the opacity call in the place of which it stands. -/
theorem Alpha.size_call_le_size_text (a : Alpha) {call : OpacityCall} (hc : call.WellFormed) :
    Utf8.size a.call ≤ Utf8.size call.text :=
  a.size_call_le.trans (OpacityCall.le_size_text hc)

/-! ## The invariant of the edit -/

namespace Source

namespace Draft

/-- The draft of a source of which `seen` has been read: no more is written than was copied, and all that was not
copied is pending. -/
structure Fits (seen : List Char) (d : Draft) : Prop where
  written : Utf8.size (d.buffer.getD []) ≤ d.copied
  seen : d.copied + Utf8.size d.pending = Utf8.size seen

section Fits

variable {seen : List Char} {d : Draft} {s : Site}

theorem fits_nil : Fits [] {} := ⟨le_rfl, rfl⟩

theorem Fits.replace (h : Fits seen d) {a : Alpha} (ha : Utf8.size a.call ≤ Utf8.size s.call.text) :
    Fits (seen ++ s.text) (d.replace s a) := by
  obtain ⟨hwritten, hseen⟩ := h
  constructor
  · simp only [Draft.replace, Replacement.text, Option.getD_some, Utf8.size_append]
    omega
  · simp only [Draft.replace, Site.text, Utf8.size_append, Utf8.size_nil]
    omega

theorem Fits.leave (h : Fits seen d) : Fits (seen ++ s.text) (d.leave s) := by
  refine ⟨h.written, ?_⟩
  have hseen := h.seen
  simp only [Draft.leave, Utf8.size_append]
  omega

theorem Fits.step (h : Fits seen d) (hs : s.call.WellFormed) : Fits (seen ++ s.text) (d.step s) := by
  unfold Draft.step
  split
  · exact h.replace (Alpha.size_call_le_size_text _ hs)
  · exact h.leave

theorem Fits.foldl (h : Fits seen d) {sites : List Site} (hs : ∀ s ∈ sites, s.call.WellFormed) :
    Fits (seen ++ textOf sites) (sites.foldl Draft.step d) := by
  induction sites generalizing seen d with
  | nil => simpa using h
  | cons s sites ih =>
    obtain ⟨hhead, htail⟩ := List.forall_mem_cons.1 hs
    rw [List.foldl_cons, textOf_cons, ← List.append_assoc]
    exact ih (h.step hhead) htail

theorem Fits.size_content_finish (h : Fits seen d) (tail : List Char) :
    Utf8.size (d.finish (seen ++ tail) tail).content ≤ Utf8.size (seen ++ tail) := by
  obtain ⟨hwritten, hseen⟩ := h
  cases hbuffer : d.buffer with
  | none => simp [Edited.content, finish, hbuffer]
  | some buffer =>
    rw [hbuffer, Option.getD_some] at hwritten
    simp only [Edited.content, finish, hbuffer, Option.map_some, Option.getD_some, Utf8.size_append]
    omega

end Fits
end Draft

/-! ## A buffer that cannot grow -/

/-- Adds a text to a buffer with room for so many bytes; `none` if it has not room enough. -/
def push? (room : Nat) (buffer text : List Char) : Option (List Char) :=
  if Utf8.size buffer + Utf8.size text ≤ room then some (buffer ++ text) else none

namespace Draft

/-- Takes up one site with a buffer that cannot grow: the plain text goes in first, and then the call. -/
def stepWithin? (room : Nat) (d : Draft) (s : Site) : Option Draft :=
  match Binary64.ofText? s.call.number.text with
  | some x => do
    let buffer ← push? room (d.buffer.getD []) (d.pending ++ s.gap)
    let buffer ← push? room buffer (Opacity.alpha x).call
    some { d.replace s (Opacity.alpha x) with buffer := some buffer }
  | none => some (d.leave s)

/-- The end of an edit with a buffer that cannot grow. -/
def finishWithin? (room : Nat) (d : Draft) (source tail : List Char) : Option Edited :=
  match d.buffer with
  | some buffer => do
    let buffer ← push? room buffer (d.pending ++ tail)
    some { d.finish source tail with buffer := some buffer }
  | none => some (d.finish source tail)

end Draft

/-- The edit of a source with a buffer that has room for so many bytes; `none` if they were not enough. -/
def editedWithin? (room : Nat) (cs : List Char) : Option Edited := do
  let d ← (split cs).sites.foldlM (Draft.stepWithin? room) {}
  d.finishWithin? room cs (split cs).tail

theorem push?_of_le {room : Nat} {buffer text : List Char} (h : Utf8.size buffer + Utf8.size text ≤ room) :
    push? room buffer text = some (buffer ++ text) :=
  if_pos h

namespace Draft

variable {room : Nat} {seen : List Char} {d : Draft}

/-- With room for what has been read behind it, a step is taken as if the buffer could grow. -/
theorem stepWithin?_of_fits {s : Site} (h : Fits seen d) (hs : s.call.WellFormed)
    (hroom : Utf8.size (seen ++ s.text) ≤ room) : d.stepWithin? room s = some (d.step s) := by
  obtain ⟨hwritten, hseen⟩ := h
  simp only [Site.text, Utf8.size_append] at hroom
  unfold stepWithin? step
  cases Binary64.ofText? s.call.number.text with
  | none => rfl
  | some x =>
    have hcall := Alpha.size_call_le_size_text (Opacity.alpha x) hs
    -- between the two the buffer ends no later than the call starts in the source, and then no later than it ends
    have hplain : Utf8.size (d.buffer.getD []) + Utf8.size (d.pending ++ s.gap) ≤ room := by
      rw [Utf8.size_append]
      omega
    have hboth : Utf8.size (d.buffer.getD [] ++ (d.pending ++ s.gap)) + Utf8.size (Opacity.alpha x).call ≤ room := by
      simp only [Utf8.size_append]
      omega
    simp only [push?_of_le hplain, push?_of_le hboth, Option.bind_eq_bind, Option.bind_some]
    rfl

theorem foldlM_stepWithin?_of_fits {sites : List Site} (h : Fits seen d) (hs : ∀ s ∈ sites, s.call.WellFormed)
    (hroom : Utf8.size (seen ++ textOf sites) ≤ room) :
    sites.foldlM (stepWithin? room) d = some (sites.foldl step d) := by
  induction sites generalizing seen d with
  | nil => rfl
  | cons s sites ih =>
    obtain ⟨hhead, htail⟩ := List.forall_mem_cons.1 hs
    rw [textOf_cons, ← List.append_assoc] at hroom
    have hstep : Utf8.size (seen ++ s.text) ≤ room := by
      rw [Utf8.size_append] at hroom
      omega
    rw [List.foldlM_cons, stepWithin?_of_fits h hhead hstep]
    exact ih (h.step hhead) htail hroom

theorem finishWithin?_of_fits {tail : List Char} (h : Fits seen d) (hroom : Utf8.size (seen ++ tail) ≤ room)
    (source : List Char) : d.finishWithin? room source tail = some (d.finish source tail) := by
  obtain ⟨hwritten, hseen⟩ := h
  unfold finishWithin? finish
  cases hbuffer : d.buffer with
  | none => rfl
  | some buffer =>
    rw [hbuffer, Option.getD_some] at hwritten
    have hlast : Utf8.size buffer + Utf8.size (d.pending ++ tail) ≤ room := by
      rw [Utf8.size_append] at hroom ⊢
      omega
    simp only [push?_of_le hlast, Option.bind_eq_bind, Option.bind_some]
    rfl

end Draft

/-! ## The edit -/

/-- The draft behind the first sites of a source. -/
theorem fits_textOf {cs : List Char} {done : List Site} (h : done <+: (split cs).sites) :
    Draft.Fits (textOf done) (done.foldl Draft.step {}) :=
  Draft.fits_nil.foldl fun s hs => wellFormed_of_mem_split s (h.subset hs)

theorem size_textOf_le {cs : List Char} {done : List Site} (h : done <+: (split cs).sites) :
    Utf8.size (textOf done) ≤ Utf8.size cs := by
  obtain ⟨rest, hsites⟩ := h
  rw [← textOf_split cs, ← hsites, textOf_append, List.append_assoc, Utf8.size_append (textOf done)]
  omega

/-- With as much room as its source takes an edit is complete. -/
theorem editedWithin?_eq {room : Nat} {cs : List Char} (h : Utf8.size cs ≤ room) :
    editedWithin? room cs = some (edited cs) := by
  have hroom : Utf8.size (textOf (split cs).sites ++ (split cs).tail) ≤ room := by rwa [textOf_split]
  have hsites : Utf8.size (textOf (split cs).sites) ≤ room := (size_textOf_le (List.prefix_refl _)).trans h
  unfold editedWithin?
  rw [Draft.foldlM_stepWithin?_of_fits Draft.fits_nil wellFormed_of_mem_split hsites]
  exact Draft.finishWithin?_of_fits (fits_textOf (List.prefix_refl _)) hroom cs

/-- The edited text is never longer than the source. Behind any number of sites no more is in the buffer than was
copied from the source, so a buffer with the room of the source gives the whole edit without having to grow. No
call is longer than the slice in the place of which it stands. -/
theorem edit_never_outgrows_its_source (cs : List Char) :
    Utf8.size (edited cs).content ≤ Utf8.size cs ∧
    (∀ done, done <+: (split cs).sites →
      let d : Draft := done.foldl Draft.step {}
      Utf8.size (d.buffer.getD []) ≤ d.copied ∧ d.copied ≤ Utf8.size cs) ∧
    editedWithin? (Utf8.size cs) cs = some (edited cs) ∧
    ∀ r ∈ (edited cs).replacements, ∃ slice,
      (∀ u, Utf8.IsSlice cs r.start r.stop u ↔ u = slice) ∧ Utf8.size r.text ≤ Utf8.size slice := by
  refine ⟨?_, fun done hdone => ?_, editedWithin?_eq le_rfl, fun r hr => ?_⟩
  · have h := (fits_textOf (List.prefix_refl (split cs).sites)).size_content_finish (split cs).tail
    rwa [textOf_split] at h
  · have hfits := fits_textOf hdone
    have hseen := hfits.seen
    have hle := size_textOf_le hdone
    exact ⟨hfits.written, by omega⟩
  · obtain ⟨ss, s, ts, hsites, rfl⟩ := mem_replacements.1 hr
    have hslice := isSlice_recordAt hsites
    exact ⟨_, fun u => ⟨fun hu => hu.unique hslice, fun hu => hu ▸ hslice⟩,
      Alpha.size_call_le_size_text _ (wellFormed_of_site hsites)⟩

/-- There is no byte to spare. -/
example : Utf8.size (edited ".withOpacity(1)".toList).content = Utf8.size ".withOpacity(1)".toList := by
  decide +kernel

end Source
end AlphaCodemod
