/-
The console's report can be read back (`consoleReport_reads_back`). No text of it breaks a line, so that its
lines are found again; the one behind the changes is the only empty one; and a line gives its path and its
number of changes when it is cut at the last bracket, whatever the path looks like.
-/
import AlphaCodemod.Proofs.Number.Digits
import AlphaCodemod.Proofs.Scan.Telling

namespace AlphaCodemod

/-! ## Cuts -/

section

variable {α : Type} {a : α} {xs ys xs' ys' : List α}

/-- What is cut where an element first stands is cut in one way. -/
theorem eq_of_cut_first (hxs : a ∉ xs) (hxs' : a ∉ xs') (h : xs ++ a :: ys = xs' ++ a :: ys') :
    xs = xs' ∧ ys = ys' := by
  rcases List.append_eq_append_iff.1 h with ⟨zs, rfl, hzs⟩ | ⟨zs, rfl, hzs⟩
  · cases zs with
    | nil => simpa using hzs
    | cons z zs =>
      obtain ⟨rfl, -⟩ := List.cons.inj hzs
      simp at hxs'
  · cases zs with
    | nil => simpa [eq_comm] using hzs
    | cons z zs =>
      obtain ⟨rfl, -⟩ := List.cons.inj hzs
      simp at hxs

/-- What is cut where an element last stands is cut in one way. -/
theorem eq_of_cut_last (hys : a ∉ ys) (hys' : a ∉ ys') (h : xs ++ a :: ys = xs' ++ a :: ys') :
    xs = xs' ∧ ys = ys' := by
  have hreverse : ys.reverse ++ a :: xs.reverse = ys'.reverse ++ a :: xs'.reverse := by
    simpa using congrArg List.reverse h
  obtain ⟨hy, hx⟩ := eq_of_cut_first (by simpa using hys) (by simpa using hys') hreverse
  exact ⟨List.reverse_inj.1 hx, List.reverse_inj.1 hy⟩

end

/-! ## Numbers -/

theorem decimalDigits_inj {m n : Nat} (h : decimalDigits m = decimalDigits n) : m = n := by
  rw [← (spells_decimalDigits m).value, h, (spells_decimalDigits n).value]

theorem notMem_decimalDigits {c : Char} (hc : isDigit c = false) (n : Nat) : c ∉ decimalDigits n := by
  intro hmem
  have hdigit := (spells_decimalDigits n).digits c hmem
  rw [hc] at hdigit
  cases hdigit

/-! ## Lines -/

namespace Program

/-- Lines are found again in what is printed, since none of them is broken. -/
theorem lines_inj {ts us : List String} (hts : ∀ t ∈ ts, '\n' ∉ t.toList) (hus : ∀ u ∈ us, '\n' ∉ u.toList)
    (h : lines ts = lines us) : ts = us := by
  have htext := Option.some.inj ((Utf8.decode?_encode _).symm.trans ((congrArg Utf8.decode? h).trans (Utf8.decode?_encode _)))
  clear h
  induction ts generalizing us with
  | nil =>
    cases us with
    | nil => rfl
    | cons u us => simp at htext
  | cons t ts ih =>
    cases us with
    | nil => simp at htext
    | cons u us =>
      obtain ⟨ht, hts⟩ := List.forall_mem_cons.1 hts
      obtain ⟨hu, hus⟩ := List.forall_mem_cons.1 hus
      simp only [List.flatMap_cons, List.append_assoc, List.singleton_append] at htext
      obtain ⟨hline, hrest⟩ := eq_of_cut_first ht hu htext
      rw [String.toList_inj.1 hline, ih hts hus hrest]

end Program

/-- A path that is text without a line break. -/
def Path.IsLine (p : Path) : Prop := ∃ cs, p.bytes = Utf8.encode cs ∧ '\n' ∉ cs

theorem Path.toList_display {p : Path} {cs : List Char} (h : p.bytes = Utf8.encode cs) : p.display.toList = cs := by
  rw [display, String.toList_ofList, h, Utf8.decodeLossy, Utf8.read, Utf8.readFrom_encode]
  simp

theorem Path.display_inj {p q : Path} (hp : p.IsLine) (hq : q.IsLine) (h : p.display.toList = q.display.toList) :
    p = q := by
  obtain ⟨cs, hcs, -⟩ := hp
  obtain ⟨ds, hds, -⟩ := hq
  rw [toList_display hcs, toList_display hds] at h
  cases p
  cases q
  subst h
  exact congrArg Path.mk (hcs.trans hds.symm)

namespace FileChange

/-- The characters of the line of a change. -/
theorem toList_line (dryRun : Bool) (c : FileChange) :
    (c.line dryRun).toList =
      (if dryRun then "[DRY RUN] ".toList else []) ++
        ("Updated ".toList ++ ((c.path.display.toList ++ [' ']) ++ '(' :: (decimalDigits c.changes ++ " changes)".toList))) := by
  cases dryRun <;> simp [line, decimalDigits]

theorem line_ne_empty (dryRun : Bool) (c : FileChange) : c.line dryRun ≠ "" := by
  intro h
  have hbracket : '(' ∈ (c.line dryRun).toList := by
    rw [toList_line]
    simp only [List.mem_append, List.mem_cons, true_or, or_true]
  rw [h] at hbracket
  cases hbracket

theorem notMem_line {dryRun : Bool} {c : FileChange} (hc : c.path.IsLine) : '\n' ∉ (c.line dryRun).toList := by
  obtain ⟨cs, hcs, hline⟩ := hc
  have hdigits := notMem_decimalDigits (c := '\n') rfl c.changes
  rw [toList_line, Path.toList_display hcs]
  cases dryRun <;> simp [hline, hdigits]

/-- The line of a change tells which it is. -/
theorem line_inj {dryRun : Bool} {c d : FileChange} (hc : c.path.IsLine) (hd : d.path.IsLine)
    (h : c.line dryRun = d.line dryRun) : c = d := by
  have hlist := congrArg String.toList h
  rw [toList_line, toList_line] at hlist
  have htail := List.append_cancel_left (List.append_cancel_left hlist)
  have hbracket (n : Nat) : '(' ∉ decimalDigits n ++ " changes)".toList := by
    rw [List.mem_append, not_or]
    exact ⟨notMem_decimalDigits rfl n, by decide⟩
  obtain ⟨hpath, hchanges⟩ := eq_of_cut_last (hbracket _) (hbracket _) htail
  obtain ⟨p, m⟩ := c
  obtain ⟨q, n⟩ := d
  obtain rfl := Path.display_inj hc hd (List.append_cancel_right hpath)
  obtain rfl := decimalDigits_inj (List.append_cancel_right hchanges)
  rfl

theorem map_line_inj {dryRun : Bool} {told told' : List FileChange} (htold : ∀ c ∈ told, c.path.IsLine)
    (htold' : ∀ c ∈ told', c.path.IsLine) (h : told.map (line dryRun) = told'.map (line dryRun)) : told = told' := by
  induction told generalizing told' with
  | nil => exact (List.map_eq_nil_iff.1 h.symm).symm
  | cons c told ih =>
    cases told' with
    | nil => simp at h
    | cons d told' =>
      obtain ⟨hc, htold⟩ := List.forall_mem_cons.1 htold
      obtain ⟨hd, htold'⟩ := List.forall_mem_cons.1 htold'
      obtain ⟨hline, hlines⟩ := List.cons.inj h
      rw [line_inj hc hd hline, ih htold htold' hlines]

end FileChange

namespace Summary

theorem toList_line (s : Summary) :
    s.line.toList =
      "Summary: ".toList ++ (decimalDigits s.filesChanged ++ ' ' :: ("files changed, ".toList ++
        (decimalDigits s.replacements ++ ' ' :: "replacements.".toList))) := by
  simp [line, decimalDigits]

theorem notMem_line (s : Summary) : '\n' ∉ s.line.toList := by
  have hdigits := notMem_decimalDigits (c := '\n') rfl
  rw [toList_line]
  simp [hdigits]

/-- The line of a summary tells both of its totals. -/
theorem line_inj {s s' : Summary} (h : s.line = s'.line) :
    s.filesChanged = s'.filesChanged ∧ s.replacements = s'.replacements := by
  have hlist := congrArg String.toList h
  rw [toList_line, toList_line] at hlist
  have hblank := notMem_decimalDigits (c := ' ') rfl
  obtain ⟨hchanged, hrest⟩ := eq_of_cut_first (hblank _) (hblank _) (List.append_cancel_left hlist)
  obtain ⟨hreplacements, -⟩ := eq_of_cut_first (hblank _) (hblank _) (List.append_cancel_left hrest)
  exact ⟨decimalDigits_inj hchanged, decimalDigits_inj hreplacements⟩

end Summary

/-! ## Reports -/

/-- What the console has printed when it has been told of changes, one after the other, and of a summary. -/
def consoleReport (dryRun : Bool) (told : List FileChange) (s : Summary) : Bytes :=
  ((consoleReporter dryRun).after {} (told.map .fileChanged ++ [.finished s])).held

/-- The lines of a report. -/
def reportLines (dryRun : Bool) (told : List FileChange) (s : Summary) : List String :=
  told.map (FileChange.line dryRun) ++ "" :: s.line :: if dryRun then [Summary.dryRunNotice] else []

theorem consoleReport_eq (dryRun : Bool) (told : List FileChange) (s : Summary) :
    consoleReport dryRun told s = Program.lines (reportLines dryRun told s) := by
  rw [consoleReport, ← Reporter.after_withFaults _ Cause.sink]
  exact (Program.held_after_console rfl dryRun _).trans (by rw [Program.lines_of_calls]; rfl)

theorem notMem_reportLines {dryRun : Bool} {told : List FileChange} (htold : ∀ c ∈ told, c.path.IsLine) (s : Summary) :
    ∀ t ∈ reportLines dryRun told s, '\n' ∉ t.toList := by
  intro t ht
  rcases List.mem_append.1 ht with ht | ht
  · obtain ⟨c, hc, rfl⟩ := List.mem_map.1 ht
    exact FileChange.notMem_line (htold c hc)
  · rcases List.mem_cons.1 ht with rfl | ht
    · exact List.not_mem_nil
    rcases List.mem_cons.1 ht with rfl | ht
    · exact s.notMem_line
    · cases dryRun with
      | false => cases ht
      | true =>
        rw [List.mem_singleton.1 ht]
        decide

/-- Two complete reports on changes of paths that are text without a line break, however these paths may look,
print the same exactly if both or none are of a dry run, both tell the same changes in the same order, and
their summaries have the same totals of files changed and of replacements. -/
theorem consoleReport_reads_back {dryRun dryRun' : Bool} {told told' : List FileChange} {s s' : Summary}
    (htold : ∀ c ∈ told, c.path.IsLine) (htold' : ∀ c ∈ told', c.path.IsLine) :
    consoleReport dryRun told s = consoleReport dryRun' told' s' ↔
      dryRun = dryRun' ∧ told = told' ∧ s.filesChanged = s'.filesChanged ∧ s.replacements = s'.replacements := by
  rw [consoleReport_eq, consoleReport_eq]
  constructor
  · intro h
    have hlines := Program.lines_inj (notMem_reportLines htold s) (notMem_reportLines htold' s') h
    -- the changes end at the first empty line
    have hchange (dryRun : Bool) (told : List FileChange) : "" ∉ told.map (FileChange.line dryRun) := by
      intro hmem
      obtain ⟨c, -, hc⟩ := List.mem_map.1 hmem
      exact c.line_ne_empty dryRun hc
    obtain ⟨hchanges, hclosing⟩ := eq_of_cut_first (hchange _ _) (hchange _ _) hlines
    obtain ⟨hsummary, hnotice⟩ := List.cons.inj hclosing
    obtain rfl : dryRun = dryRun' := by
      cases dryRun <;> cases dryRun'
      · rfl
      · cases hnotice
      · cases hnotice
      · rfl
    exact ⟨rfl, FileChange.map_line_inj htold htold' hchanges, Summary.line_inj hsummary⟩
  · rintro ⟨rfl, rfl, hchanged, hreplacements⟩
    have hsummary : s.line = s'.line := by rw [Summary.line, Summary.line, hchanged, hreplacements]
    rw [reportLines, reportLines, hsummary]

/-- A file whose name ends like a line of the report is not taken for another. -/
theorem consoleReport_of_a_path_like_a_line :
    (∀ c ∈ [FileChange.mk (Path.ofString "a (1 changes)") 2], c.path.IsLine) ∧
      (∀ c ∈ [FileChange.mk (Path.ofString "a") 1], c.path.IsLine) ∧
      consoleReport false [⟨Path.ofString "a (1 changes)", 2⟩] ⟨1, 1, 2⟩ ≠
        consoleReport false [⟨Path.ofString "a", 1⟩] ⟨1, 1, 2⟩ := by
  have hlong : ∀ c ∈ [FileChange.mk (Path.ofString "a (1 changes)") 2], c.path.IsLine :=
    List.forall_mem_singleton.2 ⟨_, rfl, by decide⟩
  have hshort : ∀ c ∈ [FileChange.mk (Path.ofString "a") 1], c.path.IsLine :=
    List.forall_mem_singleton.2 ⟨_, rfl, by decide⟩
  refine ⟨hlong, hshort, ?_⟩
  rw [Ne, consoleReport_reads_back hlong hshort]
  rintro ⟨-, htold, -⟩
  cases htold

end AlphaCodemod
