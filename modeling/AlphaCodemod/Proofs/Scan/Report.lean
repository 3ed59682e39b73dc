/-
The console's report of a scan is true (`ScanOptions.scan_report_is_true`). It has a line for each candidate in
which the pattern occurs when its turn comes, and a summary that counts these lines; the summary is missing
exactly if the scan fails. A file that several candidates lead to is edited at the first of them, so that the
summary of a scan counts no occurrence twice (`ScanOptions.sum_findings`).
-/
import AlphaCodemod.Proofs.Scan.Telling

namespace AlphaCodemod

/-! ## Occurrences -/

/-- How many times the pattern occurs in a text. -/
noncomputable def Source.occurrences (cs : List Char) : Nat := {s : Nat × Nat | Occurs cs s.1 s.2}.ncard

theorem Source.occurrences_eq (cs : List Char) : occurrences cs = (edited cs).count := by
  have hnodup : ((edited cs).replacements.map span).Nodup := by
    rw [List.Nodup, List.pairwise_map]
    refine (pairwise_replacements cs).imp_of_mem fun {r r'} hr _ hle heq => ?_
    have hlt := start_lt_stop r hr
    have hstart : r.start = r'.start := congrArg Prod.fst heq
    omega
  have hset : {s : Nat × Nat | Occurs cs s.1 s.2} = ((edited cs).replacements.map span).toFinset := by
    ext ⟨i, j⟩
    simp [occurs_iff, span]
  rw [occurrences, hset, Set.ncard_coe_finset, List.toFinset_card_of_nodup hnodup, List.length_map, Edited.count]

namespace FileSystem

variable {fs : FileSystem} {p : Path} {l : Location} {cs : List Char}

/-- How many times the pattern occurs in the text that a path leads to. -/
noncomputable def occurrences (fs : FileSystem) (p : Path) : Nat :=
  match fs.source p with
  | .ok cs => Source.occurrences cs
  | .error _ => 0

/-- How many times the pattern occurs in the text of the file at a location. -/
noncomputable def occurrencesAt (fs : FileSystem) (l : Location) : Nat :=
  match fs.node? l with
  | some (.file content _) => ((Utf8.decode? content).map Source.occurrences).getD 0
  | _ => 0

/-- The locations that paths lead to, each once. -/
def reached (fs : FileSystem) (ps : List Path) : Finset Location :=
  (ps.filterMap fun p => (fs.resolve true p).toOption).toFinset

theorem occurrences_eq_changes (fs : FileSystem) (p : Path) : fs.occurrences p = fs.changes p := by
  unfold occurrences changes
  cases fs.source p with
  | ok cs => exact Source.occurrences_eq cs
  | error e => rfl

theorem occurrencesAt_of_node {mode : Nat} (h : fs.node? l = some (.file (Utf8.encode cs) mode)) :
    fs.occurrencesAt l = Source.occurrences cs := by
  rw [occurrencesAt, h]
  simp

/-- When a path is completed, the pattern no longer occurs where it leads, and all else is as before. -/
theorem occurrencesAt_completing {mode : Nat} (h : LeadsToFile fs p l (Utf8.encode cs) mode) (k : Location) :
    (fs.completing [p]).occurrencesAt k = if k = l then 0 else fs.occurrencesAt k := by
  split
  · rename_i hkl
    subst hkl
    have hnode := (leadsToFile_completing h [p]).node
    rw [if_pos (isReached_iff.2 ⟨p, by simp, h.resolve⟩), Source.rewritten_of_decode? (Utf8.decode?_encode cs)] at hnode
    rw [occurrencesAt_of_node hnode, Source.occurrences_eq]
    exact Source.count_eq_zero_iff.2 (Source.sites_split_content cs)
  · rename_i hkl
    rw [occurrencesAt, node?_completing, if_neg]
    · rfl
    · rw [isReached_iff]
      rintro ⟨q, hq, hresolve⟩
      obtain rfl := List.mem_singleton.1 hq
      exact hkl (Except.ok.inj (hresolve.symm.trans h.resolve))

theorem reached_cons (h : fs.resolve true p = .ok l) (ps : List Path) : fs.reached (p :: ps) = insert l (fs.reached ps) := by
  simp [reached, h, Except.toOption]

theorem reached_completing (ps qs : List Path) : (fs.completing ps).reached qs = fs.reached qs := by
  unfold reached completing
  simp only [resolve_withContents]

end FileSystem

/-! ## What there is to be told -/

namespace ScanOptions

variable {o : ScanOptions} {fs : FileSystem} {ps : List Path}

/-- The candidates in which the pattern occurs when they are visited one after the other, with the number of
its occurrences. Each is looked for in the files as the visits before have left them. -/
noncomputable def findings (o : ScanOptions) (fs : FileSystem) (ps : List Path) : List FileChange :=
  (ps.mapIdx fun k p => ⟨p, (fs.settled o.dryRun (ps.take k)).occurrences p⟩).filter fun c => c.changes ≠ 0

theorem findings_cons (o : ScanOptions) (fs : FileSystem) (p : Path) (ps : List Path) :
    o.findings fs (p :: ps) = fs.pending [p] ++ o.findings (fs.settled o.dryRun [p]) ps := by
  simp only [findings, List.mapIdx_cons, List.take_zero, FileSystem.settled_nil, List.take_succ_cons,
    FileSystem.settled_cons, FileSystem.occurrences_eq_changes, FileSystem.pending, List.map_cons, List.map_nil]
  rw [← List.singleton_append, List.filter_append]

theorem changesOf_eq_findings (o : ScanOptions) (fs : FileSystem) (ps : List Path) :
    o.changesOf fs ps = o.findings fs ps := by
  induction ps generalizing fs with
  | nil => rfl
  | cons p ps ih => rw [changesOf, ih, findings_cons]

/-- A scan that is no dry run finds each occurrence in the files that its candidates lead to once. -/
theorem sum_findings (hreal : o.dryRun = false) (hread : ∀ p ∈ ps, ∃ cs, fs.source p = .ok cs) :
    ((o.findings fs ps).map (·.changes)).sum = ∑ l ∈ fs.reached ps, fs.occurrencesAt l := by
  induction ps generalizing fs with
  | nil => rfl
  | cons p ps ih =>
    obtain ⟨⟨cs, hcs⟩, hps⟩ := List.forall_mem_cons.1 hread
    obtain ⟨l, mode, hp, -⟩ := FileSystem.source_eq_ok_iff.1 hcs
    have hps' : ∀ q ∈ ps, ∃ cs', (fs.completing [p]).source q = .ok cs' := by
      intro q hq
      obtain ⟨cs', hcs'⟩ := hps q hq
      exact FileSystem.readable_completing hcs' [p]
    have hfirst : ((fs.pending [p]).map (·.changes)).sum = fs.occurrencesAt l := by
      rw [FileSystem.occurrencesAt_of_node hp.node, Source.occurrences_eq, ← FileSystem.changes_of_source hcs]
      by_cases h : fs.changes p = 0 <;> simp [FileSystem.pending, h]
    -- the file that the first path leads to has nothing left for the others
    have hrest : ∑ k ∈ fs.reached ps, (if k = l then 0 else fs.occurrencesAt k) =
        ∑ k ∈ (fs.reached ps).erase l, fs.occurrencesAt k := by
      rw [← Finset.filter_ne', Finset.sum_filter]
      exact Finset.sum_congr rfl fun k _ => by by_cases h : k = l <;> simp [h]
    rw [findings_cons, hreal, FileSystem.settled_false, List.map_append, List.sum_append, ih hps', hfirst,
      FileSystem.reached_completing, FileSystem.reached_cons hp.resolve]
    simp only [FileSystem.occurrencesAt_completing hp]
    rw [hrest, ← Finset.add_sum_erase _ _ (Finset.mem_insert_self l _), Finset.erase_insert_eq_erase]

end ScanOptions

/-! ## Reporters that never fail -/

/-- A reporter that does not fail in states of a kind, and stays in such states. -/
def Reporter.Accepts {ρ : Type} (reporter : Reporter Cause ρ) (I : ρ → Prop) : Prop :=
  ∀ call r, I r → ∃ r', (reporter call).run r = .ok () r' ∧ I r'

namespace Run

variable {ρ α β : Type} {reporter : Reporter Cause ρ} {I : ρ → Prop} {act : Run ρ α} {f : α → Run ρ β}

/-- A run that finds the reporter in a state of a kind leaves it in one, and does not fail in telling. -/
def Unrefused (I : ρ → Prop) (act : Run ρ α) : Prop :=
  ∀ w, I w.reporter → I (act.world w).reporter ∧ ∀ cause, act.result w ≠ .error (.report cause)

theorem Unrefused.bind (h : Unrefused I act) (hf : ∀ a, Unrefused I (f a)) : Unrefused I (act >>= f) := by
  intro w hw
  obtain ⟨hI, hresult⟩ := h w hw
  rcases world_bind act f w with ⟨a, -, hworld, hresult'⟩ | ⟨e, hrun, hworld, hresult'⟩
  · rw [hworld, hresult']
    exact hf a _ hI
  · rw [hworld, hresult']
    refine ⟨hI, fun cause hcause => hresult cause ?_⟩
    rw [result_of_run_error hrun, Except.error.inj hcause]

theorem Unrefused.within (h : Unrefused I act) (activity : Activity) : Unrefused I (within activity act) := by
  intro w hw
  rw [world_within, result_within]
  exact h { w with context := w.context.enter activity } hw

/-- A run that neither fails nor calls the reporter. -/
theorem unrefused_of_ok (h : ∀ w, ∃ a w', act.run w = .ok a w' ∧ w'.reporter = w.reporter) : Unrefused I act := by
  intro w hw
  obtain ⟨a, w', hrun, hreporter⟩ := h w
  rw [world, result, hrun]
  refine ⟨?_, fun cause hcause => by cases hcause⟩
  rw [hreporter]
  exact hw

theorem unrefused_writeSource (p : Path) (cs : List Char) : Unrefused I (writeSource p cs : Run ρ Unit) := by
  intro w hw
  rw [world, result, run_writeSource]
  cases (FileSystem.replace p (Utf8.encode cs)).run w.files with
  | ok u fs => exact ⟨hw, fun cause hcause => by cases hcause⟩
  | error f fs => exact ⟨hw, fun cause hcause => by cases hcause⟩

theorem unrefused_tell (haccepts : reporter.Accepts I) (call : ReportCall) : Unrefused I (tell reporter call) := by
  intro w hw
  obtain ⟨r', hcall, hr'⟩ := haccepts call w.reporter hw
  rw [world, result, run_tell, hcall]
  exact ⟨hr', fun cause hcause => by cases hcause⟩

theorem law_unrefused (haccepts : reporter.Accepts I) : Law reporter fun _ _ act => Unrefused I act where
  pure := fun _ => unrefused_of_ok fun _ => ⟨_, _, rfl, rfl⟩
  throw := fun he _ hw => ⟨hw, fun cause h => he cause (Except.error.inj h)⟩
  bind := Unrefused.bind
  within := fun activity h => h.within activity
  files := unrefused_of_ok fun _ => ⟨_, _, rfl, rfl⟩
  log := fun _ => unrefused_of_ok fun _ => ⟨_, _, rfl, rfl⟩
  note := fun _ _ => unrefused_of_ok fun _ => ⟨_, _, rfl, rfl⟩
  writeSource := fun cs _ => unrefused_writeSource _ cs
  tell := fun _ => unrefused_tell haccepts _

end Run

/-- A sink that takes all that is written to it. -/
structure Sink.IsOpen (k : Sink) : Prop where
  limit : k.limit = none
  flush : k.flushFails = false

theorem Reporter.run_withFaults {φ ψ ρ : Type} {reporter : Reporter φ ρ} {call : ReportCall} {r r' : ρ} (f : φ → ψ)
    (h : (reporter call).run r = .ok () r') : (reporter.withFaults f call).run r = .ok () r' := by
  have hrun : (reporter.withFaults f call).run r = (reporter call).adaptExcept f r := rfl
  rw [hrun, EStateM.adaptExcept, show reporter call r = .ok () r' from h]

/-- The console does not fail on an open sink. -/
theorem Program.accepts_console (dryRun : Bool) : (console dryRun).Accepts Sink.IsOpen := by
  intro call k hk
  have hrun := k.run_console k.held dryRun call
  rw [Sink.given_held hk.limit] at hrun
  refine ⟨k.given (k.held ++ lines (call.lines dryRun)), Reporter.run_withFaults _ ?_, hk.limit, hk.flush⟩
  simp [hrun, Sink.exceeded, hk.limit, hk.flush]

/-! ## Reports -/

namespace ScanOptions

/-- The lines of what there is to be told of visits to paths. -/
noncomputable def changeLines (o : ScanOptions) (fs : FileSystem) (ps : List Path) : List String :=
  (o.findings fs ps).map fun c =>
    (if o.dryRun then "[DRY RUN] " else "") ++ "Updated " ++ c.path.display ++ " (" ++ toString c.changes ++ " changes)"

theorem changeLines_eq (o : ScanOptions) (fs : FileSystem) (ps : List Path) :
    o.changeLines fs ps = (o.changesOf fs ps).map (FileChange.line o.dryRun) := by
  rw [changesOf_eq_findings]
  rfl

variable {o : ScanOptions} {e : MigrationError}

/-- A scan that fails, though not in telling, has told of the changes of the candidates before the one at which it
fails, if there is one, and of nothing else. -/
theorem reported_of_error {ρ : Type} {reporter : Reporter Cause ρ} {w w' : World ρ}
    (h : (o.scan reporter).run w = .error e w') (htold : ∀ cause, e ≠ .report cause) :
    ∃ before, w'.reporter = reporter.after w.reporter ((o.changesOf w.files before).map .fileChanged) ∧
      (before = [] ∧ (e = .rootNotFound o.root ∨
          ∃ f, o.candidates w.files = .error f ∧ e = .io f.path (.fileSystem f.fault)) ∨
        ∃ p after, o.candidates w.files = .ok (before ++ p :: after) ∧ w.files.Stops o.dryRun p e) := by
  have hexit := exit_scan o reporter w
  obtain ⟨done, hactions, hreporter⟩ := relays_scan o reporter w
  rw [Run.world_of_run_error h] at hactions hreporter
  rw [h] at hexit
  cases hexit with
  | noRoot _ hafter =>
    obtain rfl := List.append_cancel_left (hactions.symm.trans hafter.actions)
    exact ⟨[], hreporter, Or.inl ⟨rfl, Or.inl rfl⟩⟩
  | noWalk hfound hafter =>
    obtain rfl := List.append_cancel_left (hactions.symm.trans hafter.actions)
    exact ⟨[], hreporter, Or.inl ⟨rfl, Or.inr ⟨_, hfound, rfl⟩⟩⟩
  | @noSource before after p _ n r _ hfound hwhy hafter =>
    obtain rfl := List.append_cancel_left (hactions.symm.trans hafter.actions)
    rw [calls_deedsUpTo, calls_deedsOf, calls_accesses, List.append_nil] at hreporter
    exact ⟨before, hreporter, Or.inr ⟨p, after, hfound, hwhy⟩⟩
  | noTelling => exact absurd rfl (htold _)
  | noSummary => exact absurd rfl (htold _)

/-- On a console that takes all that is printed, a scan that ends well has printed a line for each candidate in
which the pattern occurs when its turn comes, in the order of the walk, with the number of its occurrences; then
an empty line, the summary and, in a dry run, the notice. The summary counts the candidates, these lines and the
occurrences; and if it is no dry run, these are the occurrences in the different files that the candidates lead
to, as they were at the start. A scan that fails has printed the lines for the candidates before the one at which
it fails, and nothing else. -/
theorem scan_report_is_true (o : ScanOptions) (w : World Sink) (hopen : w.reporter.IsOpen) :
    (∀ s w', (o.scan (Program.console o.dryRun)).run w = .ok s w' →
      ∃ ps, o.candidates w.files = .ok ps ∧
        w'.reporter.held = w.reporter.held ++ Program.lines
          (o.changeLines w.files ps ++
            ["", "Summary: " ++ toString s.filesChanged ++ " files changed, " ++ toString s.replacements ++
              " replacements."] ++
            if o.dryRun then ["Dry run mode: No files were actually modified."] else []) ∧
        s.filesScanned = ps.length ∧ s.filesChanged = (o.changeLines w.files ps).length ∧
        s.replacements = ((o.findings w.files ps).map (·.changes)).sum ∧
        (o.dryRun = false → s.replacements = ∑ l ∈ w.files.reached ps, w.files.occurrencesAt l)) ∧
    ∀ e w', (o.scan (Program.console o.dryRun)).run w = .error e w' →
      ∃ before,
        w'.reporter.held = w.reporter.held ++ Program.lines (o.changeLines w.files before) ∧
        (before = [] ∧ (e = .rootNotFound o.root ∨
            ∃ f, o.candidates w.files = .error f ∧ e = .io f.path (.fileSystem f.fault)) ∨
          ∃ p after, o.candidates w.files = .ok (before ++ p :: after) ∧ w.files.Stops o.dryRun p e) := by
  constructor
  · intro s w' h
    obtain ⟨ps, hfound, hread, hreported⟩ := reported_of_scan h
    have hsummary := hreported.summary
    rw [changesOf_eq_findings] at hsummary
    refine ⟨ps, hfound, ?_, ?_, ?_, ?_, ?_⟩
    · rw [hreported.reporter, Program.held_after_console hopen.limit, Program.lines_of_calls, changeLines_eq,
        List.append_assoc]
      rfl
    · rw [hsummary]
      rfl
    · rw [hsummary, changeLines, List.length_map]
      rfl
    · rw [hsummary]
      rfl
    · intro hreal
      rw [← sum_findings hreal hread, hsummary]
      rfl
  · intro e w' h
    have htold : ∀ cause, e ≠ .report cause := by
      rintro cause rfl
      have hunrefused := (Run.law_unrefused (Program.accepts_console o.dryRun)).scan o w hopen
      exact hunrefused.2 cause (Run.result_of_run_error h)
    obtain ⟨before, hreporter, hwhere⟩ := reported_of_error h htold
    refine ⟨before, ?_, hwhere⟩
    rw [hreporter, Program.held_after_console hopen.limit, changeLines_eq, List.flatMap_map, List.map_eq_flatMap]
    rfl

/-- A scan in whose way nothing stands succeeds, if the reporter does not fail in the states it comes to. -/
theorem scan_succeeds_where_accepted {ρ : Type} {reporter : Reporter Cause ρ} {I : ρ → Prop} {w : World ρ} {ps : List Path}
    (haccepts : reporter.Accepts I) (hI : I w.reporter) (hroot : w.files.isDirectory o.root = true)
    (hfound : o.candidates w.files = .ok ps) (hedit : ∀ p ∈ ps, w.files.CanBeEdited o.dryRun p) :
    ∃ w', (o.scan reporter).run w = .ok (o.tally {} w.files ps) w' := by
  rcases scan_succeeds_or_is_refused reporter hroot hfound hedit with ⟨_, w', hrun, -⟩ | ⟨_, c, w', -, hrun⟩
  · exact ⟨w', hrun⟩
  · exact absurd (Run.result_of_run_error hrun) (((Run.law_unrefused haccepts).scan o w hI).2 c)

/-- The console tells once of a source that is met again through a link to it. -/
theorem scan_report_of_a_linked_source :
    ({} : Sink).IsOpen ∧
      ∃ w', (ofLinkedSource.scan (Program.console false)).run { files := linkedSource, reporter := {} } = .ok ⟨2, 1, 1⟩ w' ∧
        w'.reporter.held =
          Program.lines ["Updated /p/a.dart (1 changes)", "", "Summary: 1 files changed, 1 replacements."] ∧
        ∑ l ∈ linkedSource.reached [Path.ofString "/p/a.dart", Path.ofString "/p/b.dart"],
          linkedSource.occurrencesAt l = 1 := by
  have hopen : ({} : Sink).IsOpen := ⟨rfl, rfl⟩
  have hroot : linkedSource.isDirectory ofLinkedSource.root = true := by decide +kernel
  have htally : ofLinkedSource.tally {} linkedSource [Path.ofString "/p/a.dart", Path.ofString "/p/b.dart"] = ⟨2, 1, 1⟩ := by
    decide +kernel
  have hchanges : ofLinkedSource.changesOf linkedSource [Path.ofString "/p/a.dart", Path.ofString "/p/b.dart"] =
      [⟨Path.ofString "/p/a.dart", 1⟩] := by decide +kernel
  obtain ⟨w', hrun⟩ := scan_succeeds_where_accepted (o := ofLinkedSource) (w := { files := linkedSource, reporter := {} })
    (Program.accepts_console false) hopen hroot candidates_linkedSource (canBeEdited_linkedSource false)
  rw [htally] at hrun
  obtain ⟨ps, hfound, hheld, -, -, -, hsum⟩ :=
    (scan_report_is_true ofLinkedSource { files := linkedSource, reporter := {} } hopen).1 _ _ hrun
  obtain rfl := Except.ok.inj (candidates_linkedSource.symm.trans hfound)
  rw [changeLines_eq, hchanges] at hheld
  exact ⟨hopen, w', hrun, hheld, (hsum rfl).symm⟩

end ScanOptions
end AlphaCodemod
