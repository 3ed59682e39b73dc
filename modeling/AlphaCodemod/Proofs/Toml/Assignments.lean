/-
Documents of plain assignments, one on a line: a bare key and a string or an array of strings. Such a document is read
as the table that has these keys, in order, with the values that were written. A line is read word by word
(`readStatement_line`); the rest of the document follows by induction over its lines, and the table over its entries.
-/
import AlphaCodemod.Proofs.Toml.Written
import Mathlib.Data.List.Nodup

namespace AlphaCodemod
namespace Toml

/-! ## Writing -/

/-- What a document with given contents leaves open: the letters of hexadecimal digits, the line ends, and whether
the last line has one. -/
structure Layout where
  capital : Bool
  crlf : Bool
  ended : Bool
deriving DecidableEq, Repr

def Layout.lineEnd (l : Layout) : List Char := if l.crlf then ['\r', '\n'] else ['\n']

/-- A value for a bare key. -/
structure Assignment where
  key : String
  datum : Datum
  bare : key.toList ≠ [] ∧ key.toList.all Word.isBareKey = true

def Assignment.line (l : Layout) (a : Assignment) : List Char :=
  a.key.toList ++ ' ' :: '=' :: ' ' :: a.datum.written l.capital

/-- The lines of a document. -/
def document (l : Layout) : List Assignment → List Char
  | [] => []
  | [a] => a.line l ++ if l.ended then l.lineEnd else []
  | a :: as => a.line l ++ (l.lineEnd ++ document l as)

theorem Assignment.isBareKey_of_mem (a : Assignment) : ∀ c ∈ a.key.toList, Word.isBareKey c = true :=
  List.all_eq_true.1 a.bare.2

/-! ## Tokens -/

theorem firstToken_of_isBareKey {c : Char} (h : Word.isBareKey c = true) (cs : List Char) :
    firstToken c cs = (.word .bare, (cs.takeWhile isBare).length) := by
  unfold firstToken
  split <;> first | rfl | exact absurd h (by decide)

theorem isBare_of_isBareKey {c : Char} (h : Word.isBareKey c = true) : isBare c = true := by
  simp only [isBare, decide_not, Bool.not_eq_true', decide_eq_false_iff_not]
  intro hmem
  simp only [List.mem_cons, List.not_mem_nil, or_false] at hmem
  rcases hmem with rfl | rfl | rfl | rfl | rfl | rfl | rfl | rfl | rfl | rfl | rfl | rfl <;> exact absurd h (by decide)

theorem tokens_nil : tokens [] = [] := by
  rw [tokens]

theorem tokens_key (a : Assignment) (rest : List Char) :
    tokens (a.key.toList ++ ' ' :: rest) =
      tokenAt (.word .bare) a.key.toList (' ' :: rest) :: tokens (' ' :: rest) := by
  have hne := a.bare.1
  have hbare := a.isBareKey_of_mem
  generalize a.key.toList = text at hne hbare
  cases text with
  | nil => exact absurd rfl hne
  | cons c cs =>
    refine tokens_cons ?_
    rw [firstToken_of_isBareKey (hbare c (by simp)), List.takeWhile_append_of_pos]
    · simp [show isBare ' ' = false from rfl]
    · intro d hd
      exact isBare_of_isBareKey (hbare d (by simp [hd]))

theorem tokens_equals (rest : List Char) : tokens ('=' :: rest) = tokenAt .equals ['='] rest :: tokens rest :=
  tokens_mark rfl

/-- A line ends where it should, and the next one is left as it is. -/
theorem readLineEnd_lineEnd (l : Layout) (rest : List Char) :
    readLineEnd (tokens (l.lineEnd ++ rest)) = .ok (tokens rest) := by
  have hlf : tokens ('\n' :: rest) = tokenAt .lineEnd ['\n'] rest :: tokens rest := tokens_mark rfl
  have hcrlf : tokens ('\r' :: '\n' :: rest) = tokenAt .lineEnd ['\r', '\n'] rest :: tokens rest :=
    @tokens_cons '\r' ['\n'] rest .lineEnd rfl
  unfold Layout.lineEnd
  split
  · show readLineEnd (tokens ('\r' :: '\n' :: rest)) = _
    rw [hcrlf]
    rfl
  · show readLineEnd (tokens ('\n' :: rest)) = _
    rw [hlf]
    rfl

theorem head_lineEnd (l : Layout) (rest : List Char) : (l.lineEnd ++ rest).head? ≠ some '"' := by
  unfold Layout.lineEnd
  split <;> simp

/-! ## Lines -/

/-- Words and an expression that give an assignment. -/
def Assigns (pair : List Word × Expression) (a : Assignment) : Prop :=
  ∃ key, readKeyWords pair.1 = .ok [key] ∧ key.value = a.key ∧ Says pair.2 a.datum

theorem readKeyWords_key (a : Assignment) (span : Span) :
    readKeyWords [⟨.bare, a.key.toList, span⟩] = .ok [⟨a.key, span⟩] := by
  obtain ⟨hne, hbare⟩ := a.bare
  have hkey : Word.key ⟨.bare, a.key.toList, span⟩ = .ok ⟨a.key, span⟩ := by
    simp [Word.key, Word.key?, hbare, hne]
  simp only [readKeyWords, maxDepth, List.take_succ_cons, List.take_nil, List.mapM_cons, List.mapM_nil, hkey]
  rfl

section Line

variable {w gap eq : Token} {more rest : List Token} {e : Expression}

theorem readKeys_bare (hw : w.kind = .word .bare) (hgap : gap.kind = .space) (heq : eq.kind = .equals) :
    readKeys isGapOnLine none (w :: gap :: eq :: more) = ([⟨.bare, w.text, w.span⟩], eq :: more) := by
  simp [readKeys, isGapOnLine, hw, hgap, heq]

theorem readStatement_bare (hw : w.kind = .word .bare) (hgap : gap.kind = .space) (heq : eq.kind = .equals)
    (hmore : readValue maxDepth (more.dropWhile isGapOnLine) = .ok (e, rest)) :
    readStatement (w :: gap :: eq :: more) = .ok (.assign [⟨.bare, w.text, w.span⟩] e, rest) := by
  have hopens : ¬opensBracket (w :: gap :: eq :: more) = true := by simp [opensBracket, hw]
  rw [readStatement, if_neg hopens, readPair, readKeys_bare hw hgap heq]
  simp only [heq, if_true, hmore]
  rfl

end Line

theorem line_append (l : Layout) (a : Assignment) (after : List Char) :
    a.line l ++ after = a.key.toList ++ ' ' :: '=' :: ' ' :: (a.datum.written l.capital ++ after) := by
  simp [Assignment.line]

/-- One line is read as the assignment that it is. -/
theorem readStatement_line (l : Layout) (a : Assignment) (after : List Char) (hafter : after.head? ≠ some '"') :
    ∃ pair, readStatement (tokens (a.line l ++ after)) = .ok (.assign pair.1 pair.2, tokens after) ∧
      (tokens after).length < (tokens (a.line l ++ after)).length ∧ Assigns pair a := by
  obtain ⟨e, he, hlength, hsays⟩ := readValue_datum l.capital 79 a.datum after hafter
  obtain ⟨t, ts, ht, hkind, hspace⟩ := tokens_space_datum l.capital a.datum after hafter
  rw [line_append, tokens_key, tokens_space (by simp [isSpace]), tokens_equals, hspace]
  rw [ht] at he hlength
  refine ⟨(_, e), readStatement_bare rfl rfl rfl ?_, ?_, _, readKeyWords_key a _, rfl, hsays⟩
  · have hstop : ¬isGapOnLine t = true := by simpa [isGapOnLine] using hkind
    rw [List.dropWhile_cons_of_pos rfl, List.dropWhile_cons_of_neg hstop]
    exact he
  · simp only [List.length_cons] at hlength ⊢
    omega

/-! ## Documents -/

theorem length_le_of_readLineEnd {ts rest : List Token} (h : readLineEnd ts = .ok rest) : rest.length ≤ ts.length := by
  have hlength : (ts.dropWhile Token.isTrailing).length ≤ ts.length := (List.dropWhile_suffix _).length_le
  unfold readLineEnd at h
  split at h
  · cases h
    exact Nat.zero_le _
  · rename_i t more hdrop
    rw [hdrop, List.length_cons] at hlength
    split_ifs at h
    cases h
    omega

/-- Behind the first line stands its end, if it has one, and then the rest of the document. -/
theorem document_cons (l : Layout) (a : Assignment) (as : List Assignment) :
    ∃ after, document l (a :: as) = a.line l ++ after ∧ after.head? ≠ some '"' ∧
      readLineEnd (tokens after) = .ok (tokens (document l as)) := by
  cases as with
  | nil =>
    refine ⟨_, rfl, ?_⟩
    split
    · rw [← List.append_nil l.lineEnd]
      exact ⟨head_lineEnd l [], readLineEnd_lineEnd l []⟩
    · rw [document, tokens_nil]
      exact ⟨by simp, rfl⟩
  | cons b as => exact ⟨_, rfl, head_lineEnd l _, readLineEnd_lineEnd l _⟩

theorem readStatements_step {t : Token} {ts after rest : List Token} {statement : Statement} {bound : Nat}
    (ht : t.kind ∉ [.space, .comment, .lineEnd]) (hread : readStatement (t :: ts) = .ok (statement, after))
    (hend : readLineEnd after = .ok rest) :
    readStatements (bound + 1) (t :: ts) = statement :: readStatements bound rest := by
  rw [readStatements, dropFill_of_kind ht]
  simp only [hread, hend]

/-- By induction on the lines: each is read as it was written, and takes more than one token. -/
theorem readStatements_document (l : Layout) (as : List Assignment) {bound : Nat}
    (hbound : (tokens (document l as)).length ≤ bound) :
    ∃ pairs : List (List Word × Expression),
      readStatements bound (tokens (document l as)) = pairs.map (fun pair => .assign pair.1 pair.2) ∧
        List.Forall₂ Assigns pairs as := by
  induction as generalizing bound with
  | nil =>
    refine ⟨[], ?_, .nil⟩
    rw [document, tokens_nil]
    cases bound <;> rfl
  | cons a as ih =>
    obtain ⟨after, hdocument, hquote, hend⟩ := document_cons l a as
    obtain ⟨pair, hread, hlength, hassigns⟩ := readStatement_line l a after hquote
    have hrest : (tokens (document l as)).length ≤ (tokens after).length := length_le_of_readLineEnd hend
    rw [hdocument] at hbound ⊢
    obtain ⟨bound, rfl⟩ : ∃ n, bound = n + 1 := ⟨bound - 1, by omega⟩
    obtain ⟨pairs, hpairs, hall⟩ := ih (by omega : _ ≤ bound)
    refine ⟨pair :: pairs, ?_, .cons hassigns hall⟩
    rw [line_append, tokens_key] at hread ⊢
    rw [readStatements_step (by simp [tokenAt]) hread hend, hpairs, List.map_cons]

theorem head_document (l : Layout) (as : List Assignment) : (document l as).head? ≠ some '\uFEFF' := by
  cases as with
  | nil => simp [document]
  | cons a as =>
    obtain ⟨after, hdocument, -⟩ := document_cons l a as
    have hne := a.bare.1
    have hbare := a.isBareKey_of_mem
    rw [hdocument, line_append]
    generalize a.key.toList = text at hne hbare
    cases text with
    | nil => exact absurd rfl hne
    | cons c cs =>
      rintro ⟨⟩
      exact absurd (hbare '\uFEFF' List.mem_cons_self) (by decide)

theorem statements_document (l : Layout) (as : List Assignment) :
    ∃ pairs : List (List Word × Expression),
      statements (document l as) = pairs.map (fun pair => .assign pair.1 pair.2) ∧ List.Forall₂ Assigns pairs as := by
  have hstatements : statements (document l as) =
      readStatements (tokens (document l as)).length (tokens (document l as)) := by
    have hhead := head_document l as
    unfold statements
    split
    · rename_i heq
      rw [heq] at hhead
      exact absurd rfl hhead
    · rfl
  rw [hstatements]
  exact readStatements_document l as (Nat.le_refl _)

/-! ## Tables -/

theorem sections_assign (pairs : List (List Word × Expression)) :
    sections (pairs.map fun pair => .assign pair.1 pair.2) = (pairs.map .ok, []) := by
  induction pairs with
  | nil => rfl
  | cons pair pairs ih => rw [List.map_cons, sections, ih, List.map_cons]

/-- An entry that an assignment makes. -/
def Holds (entry : Key × Entry) (a : Assignment) : Prop :=
  entry.1.value = a.key ∧ ∃ v, entry.2 = .value v ∧ a.datum.Is v.value

theorem keys_of_holds {entries : Entries} {as : List Assignment} (h : List.Forall₂ Holds entries as) :
    entries.map (·.1.value) = as.map (·.key) := by
  induction h with
  | nil => rfl
  | cons hhead _ ih => rw [List.map_cons, List.map_cons, ih, hhead.1]

theorem find?_of_holds {t : Table} {as : List Assignment} {key : Key} (hall : List.Forall₂ Holds t.entries as)
    (hkey : key.value ∉ as.map (·.key)) : t.find? key = none := by
  rw [← keys_of_holds hall] at hkey
  rw [Table.find?, Option.map_eq_none_iff, List.find?_eq_none]
  intro entry hentry heq
  exact hkey (List.mem_map.2 ⟨entry, hentry, eq_of_beq heq⟩)

/-- A key that has no value gets one, behind the others. -/
theorem assign_new {t : Table} {key : Key} (hdotted : t.dotted = false) (hkey : t.find? key = none)
    (v : Located Value) :
    t.assign .document [key] v = .ok { t with entries := t.entries ++ [(key, .value v)] } := by
  have hset : t.set key (.value v) = { t with entries := t.entries ++ [(key, .value v)] } := by
    simp [Table.set, hkey]
  rw [← hset]
  simp [Table.assign, splitLast?, Table.descend, hdotted, hkey]
  rfl

theorem fill_cons {t t' : Table} {pair : List Word × Expression} {keys : List Key} {v : Located Value}
    (hread : readKeyWords pair.1 = .ok keys) (hv : pair.2.value = .ok v) (hassign : t.assign .document keys v = .ok t')
    (lines : List Line) : t.fill (.ok pair :: lines) = t'.fill lines := by
  rw [Table.fill, List.foldlM_cons]
  simp only [hread, hv, bind, Except.bind, hassign]
  rfl

/-- By induction on the lines: what was filled in before stays, and each line adds its entry. -/
theorem fill_assign {t : Table} {done as : List Assignment} {pairs : List (List Word × Expression)}
    (hdotted : t.dotted = false) (hdone : List.Forall₂ Holds t.entries done) (hall : List.Forall₂ Assigns pairs as)
    (hkeys : ((done ++ as).map (·.key)).Nodup) :
    ∃ t', t.fill (pairs.map .ok) = .ok t' ∧ List.Forall₂ Holds t'.entries (done ++ as) := by
  induction hall generalizing t done with
  | nil =>
    rw [List.append_nil]
    exact ⟨t, rfl, hdone⟩
  | @cons pair a pairs as hpair _ ih =>
    obtain ⟨key, hread, hkey, v, hv, hdatum⟩ := hpair
    -- no line before this one had its key
    have hnew : key.value ∉ done.map (·.key) := by
      rw [List.map_append, List.nodup_append] at hkeys
      intro hmem
      exact hkeys.2.2 _ hmem _ (by simp) hkey
    have hassign := assign_new hdotted (find?_of_holds hdone hnew) v
    have hnext : List.Forall₂ Holds (t.entries ++ [(key, .value v)]) (done ++ [a]) :=
      List.rel_append hdone (.cons ⟨hkey, v, rfl, hdatum⟩ .nil)
    rw [List.append_cons] at hkeys ⊢
    rw [List.map_cons, fill_cons hread hv hassign]
    exact ih hdotted hnext hkeys

/-- A document of assignments to different keys is read as their table. -/
theorem ofDocument_document (l : Layout) (as : List Assignment) (hkeys : (as.map (·.key)).Nodup) :
    ∃ t, Table.ofDocument (document l as) = .ok t ∧ List.Forall₂ Holds t.entries as := by
  obtain ⟨pairs, hpairs, hall⟩ := statements_document l as
  obtain ⟨t, ht, hentries⟩ := fill_assign (t := {}) rfl .nil hall hkeys
  refine ⟨t, ?_, hentries⟩
  rw [Table.ofDocument, hpairs, sections_assign]
  simp only [ht]
  rfl

end Toml
end AlphaCodemod
