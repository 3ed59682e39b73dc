/-
Editing a source: the text is cut at its opacity calls, each call gives way to the alpha call of the
same number, and a record is kept of every one. Cutting loses nothing: the parts written out again
are the source (`Source.text_split`).
-/
import AlphaCodemod.Number.Spelling
import AlphaCodemod.Text.Utf8
import AlphaCodemod.Source.Call

namespace AlphaCodemod

/-! ## Parts -/

/-- A call in a source, with the plain text between the call before it and itself. -/
structure Site where
  gap : List Char
  call : OpacityCall
deriving DecidableEq, Repr

def Site.text (s : Site) : List Char := s.gap ++ s.call.text

/-- A source cut at its calls. The tail is the plain text behind the last of them. -/
structure Parts where
  sites : List Site
  tail : List Char
deriving DecidableEq, Repr

namespace Parts

def text (p : Parts) : List Char := p.sites.flatMap Site.text ++ p.tail

/-- The parts with one more plain character in front. -/
def withChar (c : Char) : Parts → Parts
  | ⟨[], tail⟩ => ⟨[], c :: tail⟩
  | ⟨site :: sites, tail⟩ => ⟨⟨c :: site.gap, site.call⟩ :: sites, tail⟩

/-- The parts with one more call in front. -/
def withCall (call : OpacityCall) (p : Parts) : Parts := ⟨⟨[], call⟩ :: p.sites, p.tail⟩

@[simp] theorem text_withChar (c : Char) (p : Parts) : (p.withChar c).text = c :: p.text := by
  obtain ⟨_ | ⟨site, sites⟩, tail⟩ := p <;> simp [withChar, text, Site.text]

@[simp] theorem text_withCall (call : OpacityCall) (p : Parts) :
    (p.withCall call).text = call.text ++ p.text := by
  simp [withCall, text, Site.text]

end Parts

/-- The parts of a source; from left to right, where a call can be read, it is. -/
def Source.split (cs : List Char) : Parts :=
  match cs with
  | [] => ⟨[], []⟩
  | c :: cs =>
    match h : OpacityCall.read? (c :: cs) with
    | some (call, rest) =>
      have : rest.length < cs.length + 1 := OpacityCall.length_lt_of_read? h
      (split rest).withCall call
    | none => (split cs).withChar c
termination_by cs.length

/-- Nothing is lost: the parts are the source. -/
theorem Source.text_split (cs : List Char) : (split cs).text = cs := by
  fun_induction split cs with
  | case1 => rfl
  | case2 c cs call rest h _ ih =>
    rw [Parts.text_withCall, ih]
    exact (OpacityCall.eq_append_of_read? h).symm
  | case3 c cs h ih => rw [Parts.text_withChar, ih]

/-! ## Records -/

/-- The record of one call that was replaced. Positions are byte offsets in the source, lines
count from one. -/
structure Replacement where
  start : Nat
  stop : Nat
  line : Nat
  literal : List Char
  alpha : Alpha
deriving DecidableEq, Repr

/-- What stands in the place of the call. -/
def Replacement.text (r : Replacement) : List Char := r.alpha.call

/-- An edited source. There is a buffer only if something was replaced; without one the content is
the source itself. -/
structure Edited where
  source : List Char
  buffer : Option (List Char)
  replacements : List Replacement
  /-- The literals of calls that stayed since they spell no number. -/
  unread : List (List Char)
deriving DecidableEq, Repr

namespace Edited

def content (e : Edited) : List Char := e.buffer.getD e.source

/-- Whether the content is the source itself rather than a text of its own. -/
def isBorrowed (e : Edited) : Bool := e.buffer.isNone

def count (e : Edited) : Nat := e.replacements.length

end Edited

/-! ## The edit -/

namespace Source

/-- How many lines a text ends. -/
def newlines (cs : List Char) : Nat := cs.count '\n'

/-- An edit under way. -/
structure Draft where
  /-- The edited text so far; there is none before the first replacement. -/
  buffer : Option (List Char) := none
  /-- How many bytes of the source have found their way into the buffer. -/
  copied : Nat := 0
  /-- What has been read behind them. -/
  pending : List Char := []
  /-- The line of the last call that was replaced. -/
  line : Nat := 1
  /-- What has been read from the start of that call on. -/
  uncounted : List Char := []
  replacements : List Replacement := []
  unread : List (List Char) := []
deriving DecidableEq, Repr

namespace Draft

/-- Replaces the call of a site by that of an alpha. -/
def replace (d : Draft) (s : Site) (alpha : Alpha) : Draft :=
  let plain := d.pending ++ s.gap
  let start := d.copied + Utf8.size plain
  let stop := start + Utf8.size s.call.text
  let line := d.line + newlines (d.uncounted ++ s.gap)
  let r : Replacement := ⟨start, stop, line, s.call.number.text, alpha⟩
  { d with
    buffer := some (d.buffer.getD [] ++ plain ++ r.text)
    copied := stop
    pending := []
    line := line
    uncounted := s.call.text
    replacements := d.replacements ++ [r] }

/-- Leaves a site as it is. -/
def leave (d : Draft) (s : Site) : Draft :=
  { d with
    pending := d.pending ++ s.text
    uncounted := d.uncounted ++ s.text
    unread := d.unread ++ [s.call.number.text] }

/-- Takes up one site. -/
def step (d : Draft) (s : Site) : Draft :=
  match Binary64.ofText? s.call.number.text with
  | some x => d.replace s (Opacity.alpha x)
  | none => d.leave s

/-- The edit of a source at its end, behind which only the tail is left. -/
def finish (d : Draft) (source tail : List Char) : Edited :=
  { source
    buffer := d.buffer.map (· ++ (d.pending ++ tail))
    replacements := d.replacements
    unread := d.unread }

end Draft

/-- The source with every opacity call replaced, and the records of them. -/
def edited (cs : List Char) : Edited :=
  let parts := split cs
  (parts.sites.foldl Draft.step {}).finish cs parts.tail

end Source
end AlphaCodemod
