/-
The lines of records. The edit counts line breaks only from the start of the last call that it has replaced, and it
counts characters; still the line of every record is one more than the line feeds among the bytes before it, those
within calls included (`Source.line_counts_the_breaks_before`).
-/
import AlphaCodemod.Proofs.Source.Occurrences
import AlphaCodemod.Proofs.Text.Utf8

namespace AlphaCodemod

/-! ## Line feeds among bytes -/

namespace Utf8

/-- The byte of a line feed. -/
def lineFeed : UInt8 := 10

theorem encode_append (cs ds : List Char) : encode (cs ++ ds) = encode cs ++ encode ds := by
  simp [encode]

/-- The bytes of a text before the offset at which another one ends are those of that one. -/
theorem take_size_encode (cs ds : List Char) : (encode (cs ++ ds)).take (size cs) = encode cs := by
  rw [encode_append]
  exact List.take_left

theorem lineFeed_notMem_map (ns : List Nat) (h : ∀ n ∈ ns, 0x80 ≤ n ∧ n < 0x100) : lineFeed ∉ ns.map UInt8.ofNat := by
  intro hmem
  obtain ⟨n, hn, heq⟩ := List.mem_map.1 hmem
  obtain ⟨hlow, hhigh⟩ := h n hn
  have hbyte := congrArg UInt8.toNat heq
  rw [toNat_byte hhigh] at hbyte
  have hfeed : lineFeed.toNat = 10 := rfl
  omega

/-- A line feed is no part of another character: all bytes of a character that has more than one are greater. -/
theorem lineFeed_notMem_encodeChar {c : Char} (hc : c ≠ '\n') : lineFeed ∉ encodeChar c := by
  have hbound : c.toNat < 0x110000 := by
    have := toNat_cases c
    omega
  unfold encodeChar
  dsimp only
  split_ifs with hone htwo hthree
  · -- a character of one byte is known by it
    intro hmem
    have hbyte := congrArg UInt8.toNat (List.mem_singleton.1 hmem)
    rw [toNat_byte (by omega)] at hbyte
    exact hc (Char.toNat_inj.1 hbyte.symm)
  · refine lineFeed_notMem_map [0xC0 + c.toNat / 64, 0x80 + c.toNat % 64] ?_
    simp only [List.forall_mem_cons, List.not_mem_nil, false_implies, implies_true, and_true]
    omega
  · refine lineFeed_notMem_map [0xE0 + c.toNat / 4096, 0x80 + c.toNat / 64 % 64, 0x80 + c.toNat % 64] ?_
    simp only [List.forall_mem_cons, List.not_mem_nil, false_implies, implies_true, and_true]
    omega
  · refine lineFeed_notMem_map [0xF0 + c.toNat / 262144, 0x80 + c.toNat / 4096 % 64, 0x80 + c.toNat / 64 % 64,
      0x80 + c.toNat % 64] ?_
    simp only [List.forall_mem_cons, List.not_mem_nil, false_implies, implies_true, and_true]
    omega

theorem count_lineFeed_encodeChar (c : Char) : (encodeChar c).count lineFeed = Source.newlines [c] := by
  by_cases hc : c = '\n'
  · subst hc
    rfl
  · rw [List.count_eq_zero.2 (lineFeed_notMem_encodeChar hc)]
    simp [Source.newlines, hc]

theorem count_lineFeed_encode (cs : List Char) : (encode cs).count lineFeed = Source.newlines cs := by
  induction cs with
  | nil => rfl
  | cons c cs ih =>
    have hcons : encode (c :: cs) = encodeChar c ++ encode cs := rfl
    rw [hcons, List.count_append, ih, count_lineFeed_encodeChar, ← Source.newlines_append, List.singleton_append]

end Utf8

/-! ## Lines of records -/

namespace Source

/-- The line of a record is one more than the line feeds among the bytes of the source before its start. -/
theorem line_counts_the_breaks_before {cs : List Char} {r : Replacement} (hr : r ∈ (edited cs).replacements) :
    r.line = 1 + ((Utf8.encode cs).take r.start).count Utf8.lineFeed := by
  obtain ⟨ss, s, ts, hsites, rfl⟩ := mem_replacements.1 hr
  -- the record starts behind the sites before it and the gap of its own
  have hbefore : (Utf8.encode cs).take (recordAt (textOf ss) s).start = Utf8.encode (textOf ss ++ s.gap) := by
    rw [eq_append_of_site hsites]
    exact Utf8.take_size_encode _ _
  rw [hbefore, Utf8.count_lineFeed_encode]
  rfl

/-- The first call is on the second line, and its breaks count for the one behind it. -/
theorem line_behind_a_broken_call :
    let cs := "é\n.withOpacity(\n0.5\n).withOpacity(1)".toList
    let r : Replacement := ⟨22, 37, 4, ['1'], 255⟩
    r ∈ (edited cs).replacements ∧ r.line = 1 + ((Utf8.encode cs).take r.start).count Utf8.lineFeed := by
  have hr : (⟨22, 37, 4, ['1'], 255⟩ : Replacement) ∈
      (edited "é\n.withOpacity(\n0.5\n).withOpacity(1)".toList).replacements := by decide +kernel
  exact ⟨hr, line_counts_the_breaks_before hr⟩

end Source
end AlphaCodemod
