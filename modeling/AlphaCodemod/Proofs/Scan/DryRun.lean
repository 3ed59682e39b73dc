/-
What a dry run says about the scan it stands for. Both tell of the candidates with changes, in the order of the
walk. The dry run finds every file as it was, while the scan finds a file edited at the second path that leads
to it; so the scan tells of each file once, at the first of these paths (`ScanOptions.changesOf_real`), and the
two say the same if and only if no file with changes is come upon twice
(`ScanOptions.dry_run_predicts_the_scan`).
-/
import AlphaCodemod.Proofs.Scan.LeftAlone
import AlphaCodemod.Proofs.Scan.Telling

namespace AlphaCodemod

/-! ## First occurrences -/

section

variable {α : Type} (r : α → α → Bool)

theorem eraseDupsBy_sublist (xs : List α) : (xs.eraseDupsBy r).Sublist xs := by
  cases xs with
  | nil => exact List.Sublist.slnil
  | cons x xs =>
    rw [List.eraseDupsBy_cons]
    exact ((eraseDupsBy_sublist _).trans List.filter_sublist).cons_cons x
termination_by xs.length
decreasing_by exact Nat.lt_succ_of_le (List.length_filter_le _ _)

theorem pairwise_eraseDupsBy (xs : List α) : (xs.eraseDupsBy r).Pairwise fun x y => r y x = false := by
  cases xs with
  | nil => exact List.Pairwise.nil
  | cons x xs =>
    rw [List.eraseDupsBy_cons, List.pairwise_cons]
    refine ⟨?_, pairwise_eraseDupsBy _⟩
    intro y hy
    simpa using (List.mem_filter.1 ((eraseDupsBy_sublist r _).subset hy)).2
termination_by xs.length
decreasing_by exact Nat.lt_succ_of_le (List.length_filter_le _ _)

variable {r}

theorem eraseDupsBy_eq_self {xs : List α} (h : xs.Pairwise fun x y => r y x = false) : xs.eraseDupsBy r = xs := by
  induction xs with
  | nil => rfl
  | cons x xs ih =>
    obtain ⟨hx, hxs⟩ := List.pairwise_cons.1 h
    have hall : (xs.filter fun y => r y x = false) = xs := List.filter_eq_self.2 fun y hy => by simp [hx y hy]
    rw [List.eraseDupsBy_cons, hall, ih hxs]

end

/-! ## Paths that lead to one file -/

namespace FileSystem

variable {fs : FileSystem} {p q : Path} {ps : List Path} {cs : List Char}

/-- Whether two paths lead to one location, or both to none. -/
def leadAlike (fs : FileSystem) (p q : Path) : Bool := (fs.resolve true p).toOption = (fs.resolve true q).toOption

/-- The changes of which each file has one: that of the first of the paths which lead to it. -/
def firstMet (fs : FileSystem) (told : List FileChange) : List FileChange :=
  told.eraseDupsBy fun c d => fs.leadAlike c.path d.path

theorem leadAlike_completing (fs : FileSystem) (ps : List Path) : (fs.completing ps).leadAlike = fs.leadAlike := by
  funext p q
  unfold leadAlike completing
  rw [resolve_withContents, resolve_withContents]

/-- When a path is completed, so are those which lead to the same file, and no others. -/
theorem changes_completing (h : fs.source p = .ok cs) :
    (fs.completing [q]).changes p = if fs.leadAlike p q then 0 else fs.changes p := by
  split
  · rename_i halike
    have hsame : fs.completing [q] = fs.completing [p] := by
      refine withContents_congr fun l content mode _ => ?_
      have hreached : fs.isReached [q] l = fs.isReached [p] l := by
        simp [isReached, of_decide_eq_true halike]
      rw [hreached]
    rw [hsame]
    exact (isPlain_completing h (List.mem_singleton_self p)).changes
  · rename_i hapart
    obtain ⟨l, mode, hp, hmay⟩ := source_eq_ok_iff.1 h
    have hunreached : ¬ fs.isReached [q] l = true := by
      rw [isReached_iff]
      rintro ⟨_, hq, hresolve⟩
      obtain rfl := List.mem_singleton.1 hq
      exact hapart (by simp [leadAlike, hp.resolve, hresolve])
    have hp' := leadsToFile_completing hp [q]
    rw [if_neg hunreached] at hp'
    rw [changes_of_source h, changes_of_source (source_eq_ok_iff.2 ⟨l, mode, hp', hmay⟩)]

theorem pending_completing (hread : ∀ p ∈ ps, ∃ cs, fs.source p = .ok cs) (q : Path) :
    (fs.completing [q]).pending ps = (fs.pending ps).filter fun c => fs.leadAlike c.path q = false := by
  induction ps with
  | nil => rfl
  | cons p ps ih =>
    obtain ⟨⟨cs, hcs⟩, hps⟩ := List.forall_mem_cons.1 hread
    rw [pending_cons, pending_cons fs, List.filter_append, ih hps]
    congr 1
    have hchanges := changes_completing (q := q) hcs
    cases halike : fs.leadAlike p q <;> by_cases hzero : fs.changes p = 0 <;>
      simp [pending, hchanges, halike, hzero]

end FileSystem

namespace ScanOptions

variable {ρ ρ' : Type} {o : ScanOptions} {fs : FileSystem} {ps : List Path}

theorem changesOf_dry (hdry : o.dryRun = true) (fs : FileSystem) (ps : List Path) :
    o.changesOf fs ps = fs.pending ps := by
  induction ps with
  | nil => rfl
  | cons p ps ih => rw [changesOf, hdry, FileSystem.settled_true, ih, ← FileSystem.pending_cons]

/-- A scan tells of each file at the first path that leads to it. -/
theorem changesOf_real (hreal : o.dryRun = false) (hread : ∀ p ∈ ps, ∃ cs, fs.source p = .ok cs) :
    o.changesOf fs ps = fs.firstMet (fs.pending ps) := by
  induction ps generalizing fs with
  | nil => rfl
  | cons p ps ih =>
    obtain ⟨⟨cs, hcs⟩, hps⟩ := List.forall_mem_cons.1 hread
    have hps' : ∀ q ∈ ps, ∃ cs', (fs.completing [p]).source q = .ok cs' := by
      intro q hq
      obtain ⟨cs', hcs'⟩ := hps q hq
      exact FileSystem.readable_completing hcs' [p]
    rw [changesOf, hreal, FileSystem.settled_false, FileSystem.pending_cons fs p ps]
    by_cases hzero : fs.changes p = 0
    · -- a path without changes is completed as it is
      have hself : fs.completing [p] = fs :=
        FileSystem.completing_of_count_eq_zero hcs ((FileSystem.changes_of_source hcs).symm.trans hzero)
      have hnone : fs.pending [p] = [] := by simp [FileSystem.pending, hzero]
      rw [hself, hnone, List.nil_append, List.nil_append, ih hps]
    · have hone : fs.pending [p] = [⟨p, fs.changes p⟩] := by simp [FileSystem.pending, hzero]
      rw [ih hps', FileSystem.pending_completing hps, hone, List.singleton_append, List.singleton_append]
      unfold FileSystem.firstMet
      rw [List.eraseDupsBy_cons, FileSystem.leadAlike_completing]

/-! ## The two runs -/

/-- A dry run and a scan of the same files that both end well tell of the same paths with the same changes,
in the order of the walk, but that the scan leaves out those which lead to a file told of before. So their
summaries are the same if and only if the paths with changes lead to different files, and then the console
prints the same, but for the mark of each line of the dry run and its notice. -/
theorem dry_run_predicts_the_scan {reporter : Reporter Cause ρ} {reporter' : Reporter Cause ρ'} {w w1 : World ρ}
    {w' w1' : World ρ'} {s s' : Summary} (hfiles : w'.files = w.files)
    (hdry : ({ o with dryRun := true }.scan reporter).run w = .ok s w1)
    (hreal : ({ o with dryRun := false }.scan reporter').run w' = .ok s' w1') :
    ∃ ps told told', o.candidates w.files = .ok ps ∧ told = w.files.pending ps ∧ told' = w.files.firstMet told ∧
      Reported reporter w ps.length told s w1 ∧ Reported reporter' w' ps.length told' s' w1' ∧
      (s' = s ↔ told.Pairwise fun c d => w.files.leadAlike d.path c.path = false) ∧
      (s' = s → told' = told) ∧
      ∀ k : Sink, k.limit = none →
        ((Program.console true).after k (told.map .fileChanged ++ [.finished s])).held =
          k.held ++ Program.lines
            (told.map (fun c => "[DRY RUN] " ++ c.line false) ++ ["", s.line, Summary.dryRunNotice]) ∧
        ((Program.console false).after k (told'.map .fileChanged ++ [.finished s'])).held =
          k.held ++ Program.lines (told'.map (fun c => c.line false) ++ ["", s'.line]) := by
  obtain ⟨ps, hfound, -, htold⟩ := reported_of_scan hdry
  obtain ⟨ps', hfound', hread, htold'⟩ := reported_of_scan hreal
  rw [hfiles] at hfound' hread htold'
  obtain rfl := Except.ok.inj (hfound.symm.trans hfound')
  rw [changesOf_dry rfl] at htold
  rw [changesOf_real rfl hread] at htold'
  -- the scan tells of as many changes as the dry run only if it leaves none out
  have hsame : s' = s → w.files.firstMet (w.files.pending ps) = w.files.pending ps := by
    intro hs
    rw [htold.summary, htold'.summary] at hs
    exact (eraseDupsBy_sublist _ _).eq_of_length (congrArg Summary.filesChanged hs)
  refine ⟨ps, _, _, hfound, rfl, rfl, htold, htold', ⟨?_, ?_⟩, hsame, ?_⟩
  · intro hs
    rw [← hsame hs]
    exact pairwise_eraseDupsBy _ _
  · intro hapart
    have hall : w.files.firstMet (w.files.pending ps) = w.files.pending ps := eraseDupsBy_eq_self hapart
    rw [htold.summary, htold'.summary, hall]
  · intro k hk
    rw [Program.held_after_console hk, Program.held_after_console hk, Program.lines_of_calls,
      Program.lines_of_calls, Program.line_dry]
    exact ⟨rfl, rfl⟩

/-- Where two links lead to two files, the dry run and the scan tell the same. -/
theorem dry_run_of_links_to_two_files :
    ∃ w1 w2, ({ ofPointedAt with dryRun := true }.scan silent).run { files := pointedAt, reporter := () } =
        .ok ⟨2, 2, 2⟩ w1 ∧
      ({ ofPointedAt with dryRun := false }.scan silent).run { files := pointedAt, reporter := () } =
        .ok ⟨2, 2, 2⟩ w2 ∧
      ∃ ps told, ofPointedAt.candidates pointedAt = .ok ps ∧ told = pointedAt.pending ps ∧
        Reported silent { files := pointedAt, reporter := () } 2 told ⟨2, 2, 2⟩ w1 ∧
        Reported silent { files := pointedAt, reporter := () } 2 told ⟨2, 2, 2⟩ w2 := by
  have hroot : pointedAt.isDirectory ofPointedAt.root = true := by decide +kernel
  have hdry : { ofPointedAt with dryRun := true }.tally {} pointedAt
      [Path.ofString "/p/a.dart", Path.ofString "/p/b.dart"] = ⟨2, 2, 2⟩ := by decide +kernel
  have hreal : { ofPointedAt with dryRun := false }.tally {} pointedAt
      [Path.ofString "/p/a.dart", Path.ofString "/p/b.dart"] = ⟨2, 2, 2⟩ := by decide +kernel
  obtain ⟨r1, w1, hrun1, -⟩ := scan_succeeds (o := { ofPointedAt with dryRun := true })
    (w := { files := pointedAt, reporter := () }) silent hroot candidates_pointedAt (canBeEdited_pointedAt true)
    not_refuses_silent
  obtain ⟨r2, w2, hrun2, -⟩ := scan_succeeds (o := { ofPointedAt with dryRun := false })
    (w := { files := pointedAt, reporter := () }) silent hroot candidates_pointedAt (canBeEdited_pointedAt false)
    not_refuses_silent
  rw [hdry] at hrun1
  rw [hreal] at hrun2
  obtain ⟨ps, told, told', hfound, htold, -, hreported, hreported', -, hsame, -⟩ :=
    dry_run_predicts_the_scan rfl hrun1 hrun2
  obtain rfl := hsame rfl
  obtain rfl := Except.ok.inj (candidates_pointedAt.symm.trans hfound)
  exact ⟨w1, w2, hrun1, hrun2, _, told', hfound, htold, hreported, hreported'⟩

/-- The dry run counts a source again at the link to it, which the scan does not. -/
theorem dry_run_counts_a_linked_source_twice :
    ∃ w1 w2, ({ ofLinkedSource with dryRun := true }.scan silent).run { files := linkedSource, reporter := () } =
        .ok ⟨2, 2, 2⟩ w1 ∧
      ({ ofLinkedSource with dryRun := false }.scan silent).run { files := linkedSource, reporter := () } =
        .ok ⟨2, 1, 1⟩ w2 := by
  have hroot : linkedSource.isDirectory ofLinkedSource.root = true := by decide +kernel
  have hdry : { ofLinkedSource with dryRun := true }.tally {} linkedSource
      [Path.ofString "/p/a.dart", Path.ofString "/p/b.dart"] = ⟨2, 2, 2⟩ := by decide +kernel
  obtain ⟨r1, w1, hrun1, -⟩ := scan_succeeds (o := { ofLinkedSource with dryRun := true })
    (w := { files := linkedSource, reporter := () }) silent hroot candidates_linkedSource
    (canBeEdited_linkedSource true) not_refuses_silent
  obtain ⟨w2, hrun2⟩ := scan_linkedSource silent not_refuses_silent
  rw [hdry] at hrun1
  exact ⟨w1, w2, hrun1, hrun2⟩

end ScanOptions
end AlphaCodemod
