/-
Writing and reading UTF-8 are inverse to each other: the bytes of a text are read as that text, and
bytes that can be read without a fault are the bytes of what was read (`Utf8.decode?_eq_some_iff`).
Both directions go character by character: at the start of any bytes, a character is read exactly if
its own bytes stand there.
-/
import AlphaCodemod.Text.Utf8

namespace AlphaCodemod
namespace Utf8

theorem mapM_id_eq_some_iff {α : Type} {xs : List (Option α)} {ys : List α} :
    xs.mapM id = some ys ↔ xs = ys.map some := by
  induction xs generalizing ys with
  | nil => cases ys <;> simp
  | cons x xs ih =>
    cases x with
    | none => cases ys <;> simp [List.mapM_cons]
    | some x =>
      cases ys with
      | nil => simp [List.mapM_cons, Option.bind_eq_some_iff]
      | cons y ys => simp [List.mapM_cons, Option.bind_eq_some_iff, ih, and_comm, and_assoc]

theorem decode?_eq_some {bs : Bytes} {cs : List Char} : decode? bs = some cs ↔ readFrom none bs = cs.map some :=
  mapM_id_eq_some_iff

/-! ## Characters by their numbers -/

theorem toNat_ofNat {n : Nat} (h : n.isValidChar) : (Char.ofNat n).toNat = n := by
  unfold Char.ofNat
  rw [dif_pos h]
  rfl

theorem toNat_cases (c : Char) : c.toNat < 0xD800 ∨ 0xDFFF < c.toNat ∧ c.toNat < 0x110000 := c.valid

/-! ## From bytes to a character -/

theorem readFrom_some_ne_nil (s : Started) (bs : Bytes) : readFrom (some s) bs ≠ [] := by
  induction bs generalizing s with
  | nil => simp [readFrom]
  | cons b bs ih =>
    unfold readFrom
    split
    · dsimp only
      split
      · simp
      · exact ih _
    · simp

theorem eq_nil_of_readFrom {bs : Bytes} (h : readFrom none bs = []) : bs = [] := by
  cases bs with
  | nil => rfl
  | cons b bs =>
    unfold readFrom at h
    split at h
    · cases h
    · exact absurd h (readFrom_some_ne_nil _ _)
    · cases h

/-- The byte that a started character owes next. -/
theorem readFrom_started {s : Started} {bs : Bytes} {c : Char} {xs : List (Option Char)}
    (h : readFrom (some s) bs = some c :: xs) :
    ∃ b rest, bs = b :: rest ∧ s.low ≤ b.toNat ∧ b.toNat ≤ s.high ∧
      (if s.owed ≤ 1 then some (Char.ofNat (s.bits * 64 + (b.toNat - 0x80))) :: readFrom none rest
        else readFrom (some ⟨s.bits * 64 + (b.toNat - 0x80), s.owed - 1, 0x80, 0xBF⟩) rest) = some c :: xs := by
  cases bs with
  | nil => simp [readFrom] at h
  | cons b bs =>
    unfold readFrom at h
    split at h
    · rename_i range
      exact ⟨b, bs, rfl, range.1, range.2, h⟩
    · simp at h

/-! ## What a byte starts -/

theorem first_two {b : UInt8} (h : 0xC2 ≤ b.toNat ∧ b.toNat ≤ 0xDF) :
    first b = .start ⟨b.toNat - 0xC0, 1, 0x80, 0xBF⟩ := by
  unfold first
  dsimp only
  rw [if_neg (by omega), if_pos h]

theorem first_three {b : UInt8} (h : 0xE0 ≤ b.toNat ∧ b.toNat ≤ 0xEF) :
    first b = .start
      ⟨b.toNat - 0xE0, 2, if b.toNat = 0xE0 then 0xA0 else 0x80, if b.toNat = 0xED then 0x9F else 0xBF⟩ := by
  unfold first
  generalize b.toNat = n at h ⊢
  dsimp only
  rw [if_neg (by omega), if_neg (by omega)]
  by_cases h0 : n = 0xE0
  · simp [h0]
  · by_cases h1 : n = 0xED
    · simp [h1]
    · rw [if_neg h0, if_neg h1, if_pos (by omega), if_neg h0, if_neg h1]

theorem first_four {b : UInt8} (h : 0xF0 ≤ b.toNat ∧ b.toNat ≤ 0xF4) :
    first b = .start
      ⟨b.toNat - 0xF0, 3, if b.toNat = 0xF0 then 0x90 else 0x80, if b.toNat = 0xF4 then 0x8F else 0xBF⟩ := by
  unfold first
  generalize b.toNat = n at h ⊢
  dsimp only
  rw [if_neg (by omega), if_neg (by omega), if_neg (by omega), if_neg (by omega), if_neg (by omega)]
  by_cases h0 : n = 0xF0
  · simp [h0]
  · by_cases h1 : n = 0xF4
    · simp [h1]
    · rw [if_neg h0, if_pos (by omega), if_neg h0, if_neg h1]

theorem first_eq_start {b : UInt8} {s : Started} (h : first b = .start s) :
    0xC2 ≤ b.toNat ∧ b.toNat ≤ 0xDF ∨ 0xE0 ≤ b.toNat ∧ b.toNat ≤ 0xEF ∨ 0xF0 ≤ b.toNat ∧ b.toNat ≤ 0xF4 := by
  unfold first at h
  generalize b.toNat = n at h ⊢
  dsimp only at h
  repeat' split at h
  all_goals simp only [First.start.injEq, reduceCtorEq] at h
  all_goals omega

theorem first_eq_whole {b : UInt8} {c : Char} (h : first b = .whole c) : b.toNat < 0x80 ∧ c = Char.ofNat b.toNat := by
  unfold first at h
  generalize b.toNat = n at h ⊢
  dsimp only at h
  repeat' split at h
  all_goals simp only [First.whole.injEq, reduceCtorEq] at h
  exact ⟨by assumption, h.symm⟩

/-! ## Characters of one, two, three and four bytes -/

theorem encodeChar_one {n : Nat} (h : n < 0x80) : encodeChar (Char.ofNat n) = [.ofNat n] := by
  unfold encodeChar
  rw [toNat_ofNat (Or.inl (by omega))]
  simp only [h, if_true]

theorem encodeChar_two {a b : Nat} (ha : 2 ≤ a) (ha' : a < 0x20) (hb : 0x80 ≤ b) (hb' : b ≤ 0xBF) :
    encodeChar (Char.ofNat (a * 64 + (b - 0x80))) = [.ofNat (0xC0 + a), .ofNat b] := by
  have h1 : (a * 64 + (b - 0x80)) / 64 = a := by omega
  have h2 : 0x80 + (a * 64 + (b - 0x80)) % 64 = b := by omega
  unfold encodeChar
  rw [toNat_ofNat (Or.inl (by omega))]
  dsimp only
  rw [if_neg (by omega), if_pos (by omega), h1, h2]

theorem encodeChar_three {a b c : Nat} (ha : a < 0x10) (hb : 0x80 ≤ b) (hb' : b ≤ 0xBF) (hc : 0x80 ≤ c)
    (hc' : c ≤ 0xBF) (hlow : a = 0 → 0xA0 ≤ b) (hhigh : a = 13 → b ≤ 0x9F) :
    encodeChar (Char.ofNat ((a * 64 + (b - 0x80)) * 64 + (c - 0x80))) = [.ofNat (0xE0 + a), .ofNat b, .ofNat c] := by
  have hvalid : ((a * 64 + (b - 0x80)) * 64 + (c - 0x80)).isValidChar := by
    unfold Nat.isValidChar
    omega
  have h1 : ((a * 64 + (b - 0x80)) * 64 + (c - 0x80)) / 4096 = a := by omega
  have h2 : 0x80 + ((a * 64 + (b - 0x80)) * 64 + (c - 0x80)) / 64 % 64 = b := by omega
  have h3 : 0x80 + ((a * 64 + (b - 0x80)) * 64 + (c - 0x80)) % 64 = c := by omega
  unfold encodeChar
  rw [toNat_ofNat hvalid]
  dsimp only
  rw [if_neg (by omega), if_neg (by omega), if_pos (by omega), h1, h2, h3]

theorem encodeChar_four {a b c d : Nat} (ha : a < 5) (hb : 0x80 ≤ b) (hb' : b ≤ 0xBF) (hc : 0x80 ≤ c)
    (hc' : c ≤ 0xBF) (hd : 0x80 ≤ d) (hd' : d ≤ 0xBF) (hlow : a = 0 → 0x90 ≤ b) (hhigh : a = 4 → b ≤ 0x8F) :
    encodeChar (Char.ofNat (((a * 64 + (b - 0x80)) * 64 + (c - 0x80)) * 64 + (d - 0x80))) =
      [.ofNat (0xF0 + a), .ofNat b, .ofNat c, .ofNat d] := by
  have hvalid : (((a * 64 + (b - 0x80)) * 64 + (c - 0x80)) * 64 + (d - 0x80)).isValidChar := by
    unfold Nat.isValidChar
    omega
  have h1 : (((a * 64 + (b - 0x80)) * 64 + (c - 0x80)) * 64 + (d - 0x80)) / 262144 = a := by omega
  have h2 : 0x80 + (((a * 64 + (b - 0x80)) * 64 + (c - 0x80)) * 64 + (d - 0x80)) / 4096 % 64 = b := by omega
  have h3 : 0x80 + (((a * 64 + (b - 0x80)) * 64 + (c - 0x80)) * 64 + (d - 0x80)) / 64 % 64 = c := by omega
  have h4 : 0x80 + (((a * 64 + (b - 0x80)) * 64 + (c - 0x80)) * 64 + (d - 0x80)) % 64 = d := by omega
  unfold encodeChar
  rw [toNat_ofNat hvalid]
  dsimp only
  rw [if_neg (by omega), if_neg (by omega), if_neg (by omega), h1, h2, h3, h4]

/-! ## Reading one character -/

/-- A character that was read stands there with its own bytes. -/
theorem eq_append_of_readFrom {bs : Bytes} {c : Char} {xs : List (Option Char)} (h : readFrom none bs = some c :: xs) :
    ∃ rest, bs = encodeChar c ++ rest ∧ readFrom none rest = xs := by
  cases bs with
  | nil => simp [readFrom] at h
  | cons b bs =>
    unfold readFrom at h
    split at h
    · rename_i d hfirst
      obtain ⟨hb, rfl⟩ := first_eq_whole hfirst
      obtain ⟨rfl, hrest⟩ : Char.ofNat b.toNat = c ∧ readFrom none bs = xs := by simpa using h
      exact ⟨bs, by simp [encodeChar_one hb], hrest⟩
    · rename_i s hfirst
      obtain ⟨b1, bs, rfl, hlow1, hhigh1, h⟩ := readFrom_started h
      rcases first_eq_start hfirst with hb | hb | hb
      · obtain rfl := First.start.inj ((first_two hb).symm.trans hfirst)
        dsimp only at hlow1 hhigh1 h
        obtain ⟨rfl, hrest⟩ : _ = c ∧ readFrom none bs = xs := by simpa using h
        refine ⟨bs, ?_, hrest⟩
        rw [encodeChar_two (by omega) (by omega) (by omega) (by omega), Nat.add_sub_cancel' (by omega)]
        simp
      · obtain rfl := First.start.inj ((first_three hb).symm.trans hfirst)
        dsimp only at hlow1 hhigh1 h
        rw [if_neg (by omega)] at h
        obtain ⟨b2, bs, rfl, hlow2, hhigh2, h⟩ := readFrom_started h
        dsimp only at hlow2 hhigh2 h
        obtain ⟨rfl, hrest⟩ : _ = c ∧ readFrom none bs = xs := by simpa using h
        refine ⟨bs, ?_, hrest⟩
        rw [encodeChar_three (by omega) (by split at hlow1 <;> omega) (by split at hhigh1 <;> omega) (by omega)
          (by omega) (by split at hlow1 <;> omega) (by split at hhigh1 <;> omega), Nat.add_sub_cancel' (by omega)]
        simp
      · obtain rfl := First.start.inj ((first_four hb).symm.trans hfirst)
        dsimp only at hlow1 hhigh1 h
        rw [if_neg (by omega)] at h
        obtain ⟨b2, bs, rfl, hlow2, hhigh2, h⟩ := readFrom_started h
        dsimp only at hlow2 hhigh2 h
        rw [if_neg (by omega)] at h
        obtain ⟨b3, bs, rfl, hlow3, hhigh3, h⟩ := readFrom_started h
        dsimp only at hlow3 hhigh3 h
        obtain ⟨rfl, hrest⟩ : _ = c ∧ readFrom none bs = xs := by simpa using h
        refine ⟨bs, ?_, hrest⟩
        rw [encodeChar_four (by omega) (by split at hlow1 <;> omega) (by split at hhigh1 <;> omega) (by omega)
          (by omega) (by omega) (by omega) (by split at hlow1 <;> omega) (by split at hhigh1 <;> omega),
          Nat.add_sub_cancel' (by omega)]
        simp
    · simp at h

section Bytes

variable {a b c d : UInt8}

theorem readFrom_owed {s : Started} (hlow : s.low ≤ b.toNat) (hhigh : b.toNat ≤ s.high) (bs : Bytes) :
    readFrom (some s) (b :: bs) =
      if s.owed ≤ 1 then some (Char.ofNat (s.bits * 64 + (b.toNat - 0x80))) :: readFrom none bs
      else readFrom (some ⟨s.bits * 64 + (b.toNat - 0x80), s.owed - 1, 0x80, 0xBF⟩) bs := by
  rw [readFrom, if_pos ⟨hlow, hhigh⟩]

theorem readFrom_two (ha : 0xC2 ≤ a.toNat ∧ a.toNat ≤ 0xDF) (hb : 0x80 ≤ b.toNat ∧ b.toNat ≤ 0xBF) (bs : Bytes) :
    readFrom none (a :: b :: bs) =
      some (Char.ofNat ((a.toNat - 0xC0) * 64 + (b.toNat - 0x80))) :: readFrom none bs := by
  rw [readFrom, first_two ha]
  dsimp only
  rw [readFrom_owed hb.1 hb.2]
  rfl

theorem readFrom_three (ha : 0xE0 ≤ a.toNat ∧ a.toNat ≤ 0xEF) (hb : 0x80 ≤ b.toNat ∧ b.toNat ≤ 0xBF)
    (hlow : a.toNat = 0xE0 → 0xA0 ≤ b.toNat) (hhigh : a.toNat = 0xED → b.toNat ≤ 0x9F)
    (hc : 0x80 ≤ c.toNat ∧ c.toNat ≤ 0xBF) (bs : Bytes) :
    readFrom none (a :: b :: c :: bs) =
      some (Char.ofNat (((a.toNat - 0xE0) * 64 + (b.toNat - 0x80)) * 64 + (c.toNat - 0x80))) ::
        readFrom none bs := by
  rw [readFrom, first_three ha]
  dsimp only
  rw [readFrom_owed (by dsimp only; split <;> omega) (by dsimp only; split <;> omega), if_neg (by dsimp only; decide),
    readFrom_owed hc.1 hc.2]
  rfl

theorem readFrom_four (ha : 0xF0 ≤ a.toNat ∧ a.toNat ≤ 0xF4) (hb : 0x80 ≤ b.toNat ∧ b.toNat ≤ 0xBF)
    (hlow : a.toNat = 0xF0 → 0x90 ≤ b.toNat) (hhigh : a.toNat = 0xF4 → b.toNat ≤ 0x8F)
    (hc : 0x80 ≤ c.toNat ∧ c.toNat ≤ 0xBF) (hd : 0x80 ≤ d.toNat ∧ d.toNat ≤ 0xBF) (bs : Bytes) :
    readFrom none (a :: b :: c :: d :: bs) =
      some (Char.ofNat ((((a.toNat - 0xF0) * 64 + (b.toNat - 0x80)) * 64 + (c.toNat - 0x80)) * 64 +
        (d.toNat - 0x80))) :: readFrom none bs := by
  rw [readFrom, first_four ha]
  dsimp only
  rw [readFrom_owed (by dsimp only; split <;> omega) (by dsimp only; split <;> omega), if_neg (by dsimp only; decide),
    readFrom_owed hc.1 hc.2, if_neg (by dsimp only; decide), readFrom_owed hd.1 hd.2]
  rfl

end Bytes

theorem toNat_byte {n : Nat} (h : n < 256) : (UInt8.ofNat n).toNat = n := by
  rw [UInt8.toNat_ofNat']
  exact Nat.mod_eq_of_lt h

/-- The bytes of a character are read as it, whatever follows them. -/
theorem readFrom_encodeChar (c : Char) (bs : Bytes) : readFrom none (encodeChar c ++ bs) = some c :: readFrom none bs := by
  have hc := toNat_cases c
  have hback := Char.ofNat_toNat c
  unfold encodeChar
  generalize c.toNat = n at hc hback ⊢
  subst hback
  dsimp only
  split
  · rename_i h1
    have hfirst : first (.ofNat n) = .whole (Char.ofNat n) := by
      unfold first
      rw [toNat_byte (by omega)]
      exact if_pos h1
    rw [List.singleton_append, readFrom, hfirst]
  split
  · have b0 := toNat_byte (n := 0xC0 + n / 64) (by omega)
    have b1 := toNat_byte (n := 0x80 + n % 64) (by omega)
    have hn : (0xC0 + n / 64 - 0xC0) * 64 + (0x80 + n % 64 - 0x80) = n := by omega
    rw [List.cons_append, List.singleton_append, readFrom_two (by omega) (by omega), b0, b1, hn]
  split
  · have b0 := toNat_byte (n := 0xE0 + n / 4096) (by omega)
    have b1 := toNat_byte (n := 0x80 + n / 64 % 64) (by omega)
    have b2 := toNat_byte (n := 0x80 + n % 64) (by omega)
    have hn : ((0xE0 + n / 4096 - 0xE0) * 64 + (0x80 + n / 64 % 64 - 0x80)) * 64 + (0x80 + n % 64 - 0x80) = n := by
      omega
    rw [List.cons_append, List.cons_append, List.singleton_append,
      readFrom_three (by omega) (by omega) (by omega) (by omega) (by omega), b0, b1, b2, hn]
  · have b0 := toNat_byte (n := 0xF0 + n / 262144) (by omega)
    have b1 := toNat_byte (n := 0x80 + n / 4096 % 64) (by omega)
    have b2 := toNat_byte (n := 0x80 + n / 64 % 64) (by omega)
    have b3 := toNat_byte (n := 0x80 + n % 64) (by omega)
    have hn : (((0xF0 + n / 262144 - 0xF0) * 64 + (0x80 + n / 4096 % 64 - 0x80)) * 64 +
        (0x80 + n / 64 % 64 - 0x80)) * 64 + (0x80 + n % 64 - 0x80) = n := by
      omega
    rw [List.cons_append, List.cons_append, List.cons_append, List.singleton_append,
      readFrom_four (by omega) (by omega) (by omega) (by omega) (by omega) (by omega), b0, b1, b2, b3, hn]

/-! ## Whole texts -/

theorem readFrom_encode (cs : List Char) : readFrom none (encode cs) = cs.map some := by
  induction cs with
  | nil => rfl
  | cons c cs ih =>
    rw [encode, List.flatMap_cons, readFrom_encodeChar, List.map_cons]
    exact congrArg _ ih

theorem eq_encode_of_readFrom {bs : Bytes} {cs : List Char} (h : readFrom none bs = cs.map some) : bs = encode cs := by
  induction cs generalizing bs with
  | nil => exact eq_nil_of_readFrom h
  | cons c cs ih =>
    obtain ⟨rest, rfl, hrest⟩ := eq_append_of_readFrom h
    rw [ih hrest]
    rfl

/-- Bytes are read as a text exactly if they are its bytes. -/
theorem decode?_eq_some_iff {bs : Bytes} {cs : List Char} : decode? bs = some cs ↔ bs = encode cs := by
  rw [decode?_eq_some]
  constructor
  · exact eq_encode_of_readFrom
  · rintro rfl
    exact readFrom_encode cs

@[simp] theorem decode?_encode (cs : List Char) : decode? (encode cs) = some cs := decode?_eq_some_iff.2 rfl

end Utf8
end AlphaCodemod
