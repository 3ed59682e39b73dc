/-
Scans of what a scan has left. A scan changes contents only, so the same walk finds the same candidates
again; it has completed each of them, so that nothing is left to be replaced. The second scan counts the
files and does nothing else (`ScanOptions.second_scan_changes_nothing`).
-/
import AlphaCodemod.Proofs.Scan.Exits

namespace AlphaCodemod.ScanOptions

variable {ρ ρ' : Type} {o : ScanOptions} {fs : FileSystem} {ps : List Path}

theorem candidates_completing (o : ScanOptions) (fs : FileSystem) (ps : List Path) :
    o.candidates (fs.completing ps) = o.candidates fs := candidates_withContents o fs _

theorem isDirectory_completing (fs : FileSystem) (ps : List Path) (p : Path) :
    (fs.completing ps).isDirectory p = fs.isDirectory p := FileSystem.isDirectory_withContents _ _ p

/-- A scan whose candidates have nothing to be replaced reads them, tells the summary, and does nothing
else. -/
theorem scan_of_isPlain (reporter : Reporter Cause ρ) {w : World ρ} (hroot : w.files.isDirectory o.root = true)
    (hfound : o.candidates w.files = .ok ps) (hplain : ∀ p ∈ ps, w.files.IsPlain p)
    (hreporter : ∀ call c, ¬ reporter.Refuses call c) :
    ∃ r w', (o.scan reporter).run w = .ok ⟨ps.length, 0, 0⟩ w' ∧
      World.After w
        ((w.context.enter (.phase .fileDiscovery), .walk o.root) ::
          (ps.map (fun p => ((w.context.enter (.phase .editing)).enter (.file p), .read p)) ++
            [(w.context.enter (.phase .reporting), .report (.finished ⟨ps.length, 0, 0⟩))]))
        w.files r w' := by
  have hedit : ∀ p ∈ ps, w.files.CanBeEdited o.dryRun p := by
    intro p hp
    refine ⟨(hplain p hp).readable, ?_⟩
    intro _ hchanges
    exact absurd (hplain p hp).changes hchanges
  obtain ⟨r, w', hrun, hafter⟩ := scan_succeeds reporter hroot hfound hedit hreporter
  have htally : o.tally {} w.files ps = ⟨ps.length, 0, 0⟩ := by
    rw [tally_of_isPlain {} hplain]
    simp
  rw [htally] at hrun
  rw [htally, deedsUpTo, deedsOf_of_isPlain _ hplain, FileSystem.settled_of_isPlain hplain] at hafter
  exact ⟨r, w', hrun, hafter⟩

/-- A scan that is no dry run and ends well leaves nothing to be done: a second one with the same options, and a
reporter that does not fail, ends well, counts the same files and no change, writes none, tells of none, and
leaves all files as they are. -/
theorem second_scan_changes_nothing {reporter : Reporter Cause ρ} {w w1 : World ρ} {s : Summary}
    (hreal : o.dryRun = false) (h : (o.scan reporter).run w = .ok s w1) {reporter' : Reporter Cause ρ'}
    {w2 : World ρ'} (hfiles : w2.files = w1.files) (hreporter : ∀ call c, ¬ reporter'.Refuses call c) :
    ∃ w3 done, (o.scan reporter').run w2 = .ok ⟨s.filesScanned, 0, 0⟩ w3 ∧ w3.files = w1.files ∧
      w3.actions = w2.actions ++ done ∧ writes done = [] ∧ calls done = [.finished ⟨s.filesScanned, 0, 0⟩] := by
  have hexit := exit_scan o reporter w
  rw [h] at hexit
  cases hexit with
  | @complete ps r _ hroot hfound hread hafter =>
    have hcompleted : w2.files = w.files.completing ps := by
      rw [hfiles, hafter.files, hreal, FileSystem.settled_false]
    have hplain : ∀ p ∈ ps, w2.files.IsPlain p := by
      intro p hp
      obtain ⟨cs, hcs⟩ := hread p hp
      rw [hcompleted]
      exact FileSystem.isPlain_completing hcs hp
    -- contents decide neither what is a directory nor what the walk finds
    have hroot' : w2.files.isDirectory o.root = true := by
      rw [hcompleted, isDirectory_completing]
      exact hroot
    have hfound' : o.candidates w2.files = .ok ps := by
      rw [hcompleted, candidates_completing]
      exact hfound
    obtain ⟨r', w3, hrun, hafter'⟩ := scan_of_isPlain reporter' hroot' hfound' hplain hreporter
    have hscanned : (o.tally {} w.files ps).filesScanned = ps.length := by
      rw [filesScanned_tally]
      simp
    rw [hscanned]
    refine ⟨w3, _, hrun, hafter'.files.trans hfiles, hafter'.actions, ?_, ?_⟩
    · simp [writes, Action.writePath?]
    · simp [calls, Action.call?]

theorem second_scan_of_a_linked_source :
    ofLinkedSource.dryRun = false ∧
      ∃ w1 w3 done, (ofLinkedSource.scan silent).run { files := linkedSource, reporter := () } = .ok ⟨2, 1, 1⟩ w1 ∧
        (∀ call c, ¬ silent.Refuses call c) ∧
        (ofLinkedSource.scan silent).run { files := w1.files, reporter := () } = .ok ⟨2, 0, 0⟩ w3 ∧
        w3.files = w1.files ∧ w3.actions = done ∧ writes done = [] ∧ calls done = [.finished ⟨2, 0, 0⟩] := by
  obtain ⟨w1, hrun⟩ := scan_linkedSource silent not_refuses_silent
  have hfiles : (⟨w1.files, (), {}, [], []⟩ : World Unit).files = w1.files := rfl
  obtain ⟨w3, done, hagain⟩ := second_scan_changes_nothing rfl hrun hfiles not_refuses_silent
  exact ⟨rfl, w1, w3, done, hrun, not_refuses_silent, hagain⟩

end AlphaCodemod.ScanOptions
