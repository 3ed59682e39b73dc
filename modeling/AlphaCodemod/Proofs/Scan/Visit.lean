/-
What visits to candidates do. A visit ends in one of three ways: the candidate is completed, told of if
it has changes, and counted; or it cannot be read or written, and nothing has changed; or it is
completed, but the reporter fails (`ScanOptions.visit_cases`). So do visits to candidates one after the
other: they stop behind the first that does not end well, and up to there all are completed
(`ScanOptions.visits_cases`).
-/
import AlphaCodemod.Scan.Basic
import AlphaCodemod.Proofs.Scan.Completing
import AlphaCodemod.Proofs.Scan.Run

namespace AlphaCodemod

variable {ρ : Type}

/-! ## Changes of a source -/

namespace FileSystem

variable {fs : FileSystem} {p : Path} {cs : List Char}

/-- How many calls an edit of the source that a path leads to would replace. -/
def changes (fs : FileSystem) (p : Path) : Nat :=
  match fs.source p with
  | .ok cs => (Source.edited cs).count
  | .error _ => 0

/-- The file system after visits to paths. -/
def settled (fs : FileSystem) (dryRun : Bool) (ps : List Path) : FileSystem := if dryRun then fs else fs.completing ps

theorem changes_of_source (h : fs.source p = .ok cs) : fs.changes p = (Source.edited cs).count := by
  unfold changes
  rw [h]

@[simp] theorem settled_true (ps : List Path) : fs.settled true ps = fs := rfl

@[simp] theorem settled_false (ps : List Path) : fs.settled false ps = fs.completing ps := rfl

@[simp] theorem settled_nil (dryRun : Bool) : fs.settled dryRun [] = fs := by
  cases dryRun <;> simp [settled]

theorem settled_cons (dryRun : Bool) (ps : List Path) :
    (fs.settled dryRun [p]).settled dryRun ps = fs.settled dryRun (p :: ps) := by
  cases dryRun
  · exact completing_append [p] ps
  · rfl

/-- Visits leave a node as it was, or edit the text of a file. -/
theorem node?_settled_cases (dryRun : Bool) (ps : List Path) (l : Location) :
    (fs.settled dryRun ps).node? l = fs.node? l ∨
      ∃ content mode cs, fs.node? l = some (.file content mode) ∧ Utf8.decode? content = some cs ∧
        (fs.settled dryRun ps).node? l = some (.file (Utf8.encode (Source.edited cs).content) mode) := by
  cases dryRun with
  | true => exact Or.inl rfl
  | false =>
    rw [settled_false, node?_completing]
    split
    · cases hnode : fs.node? l with
      | none => exact Or.inl rfl
      | some n =>
        cases n with
        | directory => exact Or.inl rfl
        | link t => exact Or.inl rfl
        | file content mode =>
          cases hdecode : Utf8.decode? content with
          | none =>
            refine Or.inl ?_
            simp [Node.mapContent, Source.rewritten, hdecode]
          | some cs =>
            refine Or.inr ⟨content, mode, cs, rfl, hdecode, ?_⟩
            simp [Node.mapContent, Source.rewritten_of_decode? hdecode]
    · exact Or.inl rfl

theorem namesIn_settled (dryRun : Bool) (ps : List Path) (d : Location) :
    (fs.settled dryRun ps).namesIn d = fs.namesIn d := by
  cases dryRun with
  | true => rfl
  | false =>
    rw [settled_false]
    exact namesIn_withContents _ _ d

/-- A source that can be read later can be read from the start on, and if it has changes then, it has had the
same text all along. -/
theorem source_of_completing {ps : List Path} (h : (fs.completing ps).source p = .ok cs) :
    (∃ cs', fs.source p = .ok cs') ∧ ((Source.edited cs).count ≠ 0 → fs.source p = .ok cs) := by
  obtain ⟨l, mode, hp, hmay⟩ := source_eq_ok_iff.1 h
  have hresolve : fs.resolve true p = .ok l := by
    have := hp.resolve
    rwa [completing, resolve_withContents] at this
  have hnode := hp.node
  rw [node?_completing] at hnode
  split at hnode
  · -- the file has been edited, so that its text has no changes left
    obtain ⟨n, hn, hcontent⟩ := Option.map_eq_some_iff.1 hnode
    cases n with
    | directory => cases hcontent
    | link t => cases hcontent
    | file content mode' =>
      obtain ⟨hcs, rfl⟩ := Node.file.inj hcontent
      have hdecode : Utf8.decode? (Source.rewritten content) = some cs := Utf8.decode?_eq_some_iff.2 hcs
      refine ⟨?_, fun hcount => absurd (Source.count_of_decode?_rewritten hdecode) hcount⟩
      cases hd : Utf8.decode? content with
      | some cs' =>
        obtain rfl := Utf8.decode?_eq_some_iff.1 hd
        exact ⟨cs', source_eq_ok_iff.2 ⟨l, mode', ⟨hresolve, hn⟩, hmay⟩⟩
      | none =>
        rw [Source.rewritten, hd] at hdecode
        rw [hd] at hdecode
        cases hdecode
  · have hsource : fs.source p = .ok cs := source_eq_ok_iff.2 ⟨l, mode, ⟨hresolve, hnode⟩, hmay⟩
    exact ⟨⟨cs, hsource⟩, fun _ => hsource⟩

theorem source_of_settled {dryRun : Bool} {ps : List Path} (h : (fs.settled dryRun ps).source p = .ok cs) :
    (∃ cs', fs.source p = .ok cs') ∧ ((Source.edited cs).count ≠ 0 → fs.source p = .ok cs) := by
  cases dryRun with
  | false => exact source_of_completing h
  | true => exact ⟨⟨cs, h⟩, fun _ => h⟩

theorem readable_completing (h : fs.source p = .ok cs) (ps : List Path) :
    ∃ cs', (fs.completing ps).source p = .ok cs' := by
  obtain ⟨l, mode, hp, hmay⟩ := source_eq_ok_iff.1 h
  have hp' := leadsToFile_completing hp ps
  rw [Source.rewritten_of_decode? (Utf8.decode?_encode cs)] at hp'
  split at hp'
  · exact ⟨_, source_eq_ok_iff.2 ⟨l, mode, hp', hmay⟩⟩
  · exact ⟨_, source_eq_ok_iff.2 ⟨l, mode, hp', hmay⟩⟩

/-- Why there is no source to be read stays the same. -/
theorem source_error_of_completing {ps : List Path} {e : MigrationError} (h : (fs.completing ps).source p = .error e) :
    fs.source p = .error e := by
  by_cases hread : ∃ content, fs.read p = .ok content
  · -- the file is no text, and no edit makes it one
    obtain ⟨content, hcontent⟩ := hread
    obtain ⟨l, mode, hp, hmay⟩ := read_eq_ok_iff.1 hcontent
    cases hdecode : Utf8.decode? content with
    | some cs =>
      have hsource : fs.source p = .ok cs := by
        unfold source
        rw [hcontent]
        simp [hdecode]
      obtain ⟨cs', hcs'⟩ := readable_completing hsource ps
      cases h.symm.trans hcs'
    | none =>
      have hsame : Source.rewritten content = content := by
        unfold Source.rewritten
        rw [hdecode]
      have hp' := leadsToFile_completing hp ps
      rw [hsame, ite_self] at hp'
      rw [← h]
      unfold source
      rw [hcontent, read_eq_ok_iff.2 ⟨l, mode, hp', hmay⟩]
  · have hsame : (fs.completing ps).read p = fs.read p :=
      read_withContents_of_error _ fun content hcontent => hread ⟨content, hcontent⟩
    rw [← h]
    unfold source
    rw [hsame]

/-- Whether a path can be completed: there is a source to be read, and, if it has changes to be made, to be
written. -/
structure CanBeEdited (fs : FileSystem) (dryRun : Bool) (p : Path) : Prop where
  readable : ∃ cs, fs.source p = .ok cs
  writable : dryRun = false → fs.changes p ≠ 0 → fs.IsWritable p

/-- What a privileged caller can read can be edited, if there is room beside it and no trouble with the device. -/
theorem canBeEdited_of_privileged {t : Path} {temp : Temporary} (hsource : fs.source p = .ok cs)
    (htarget : fs.target p = .ok t) (hroom : fs.vacancy t.directory = .ok temp) (hprivileged : fs.privileged = true)
    (htroubles : fs.device.troubles = []) (dryRun : Bool) : fs.CanBeEdited dryRun p := by
  refine ⟨⟨cs, hsource⟩, fun _ _ => ?_⟩
  obtain ⟨l, mode, hp, -⟩ := source_eq_ok_iff.1 hsource
  refine ⟨t, l, _, mode, temp, htarget, hp, ?_, hroom, ?_⟩
  · simp [mayWrite, hprivileged]
  · simp [htroubles]

/-- A source with changes left has not been edited yet. -/
theorem changes_of_settled {dryRun : Bool} {ps : List Path} (h : (fs.settled dryRun ps).changes p ≠ 0) :
    fs.changes p ≠ 0 := by
  unfold changes at h
  split at h
  · rename_i cs hsource
    rw [changes_of_source ((source_of_settled hsource).2 h)]
    exact h
  · exact absurd rfl h

/-- The errors at which visits stop at a path: that of the source, if it cannot be read, or that of its
replacement, if it has changes to be made and cannot be replaced. -/
inductive Stops (fs : FileSystem) (dryRun : Bool) (p : Path) : MigrationError → Prop where
  | unread {e : MigrationError} (h : fs.source p = .error e) : Stops fs dryRun p e
  | unwritten {f : FaultAt} (hreal : dryRun = false) (hchanges : fs.changes p ≠ 0) (h : fs.Refusal p f) :
    Stops fs dryRun p (.io f.path (.fileSystem f.fault))

theorem not_canBeEdited_of_stops {dryRun : Bool} {e : MigrationError} (h : fs.Stops dryRun p e) :
    ¬ fs.CanBeEdited dryRun p := by
  intro hedit
  cases h with
  | unread hsource =>
    obtain ⟨cs, hcs⟩ := hedit.readable
    cases hsource.symm.trans hcs
  | unwritten hreal hchanges hf => exact not_isWritable_of_refusal hf (hedit.writable hreal hchanges)

theorem error_of_stops {dryRun : Bool} {e : MigrationError} (h : fs.Stops dryRun p e) :
    e = .notText p ∨ ∃ q f, e = .io q (.fileSystem f) := by
  cases h with
  | unread hsource =>
    rcases source_error_cases hsource with he | ⟨f, he⟩
    · exact Or.inl he
    · exact Or.inr ⟨p, f, he⟩
  | unwritten => exact Or.inr ⟨_, _, rfl⟩

/-- What stops visits later has stood in their way from the start. -/
theorem stops_of_settled {dryRun : Bool} {ps : List Path} {e : MigrationError}
    (h : (fs.settled dryRun ps).Stops dryRun p e) : fs.Stops dryRun p e := by
  cases dryRun with
  | true => exact h
  | false =>
    cases h with
    | unread hsource => exact .unread (source_error_of_completing hsource)
    | unwritten hreal hchanges hf =>
      rw [settled_false, completing] at hf
      exact .unwritten hreal (changes_of_settled hchanges) (refusal_of_withContents hf)

/-- An edit without changes completes the path. -/
theorem completing_of_count_eq_zero (h : fs.source p = .ok cs) (hcount : (Source.edited cs).count = 0) :
    fs.completing [p] = fs := by
  obtain ⟨l, mode, hp, -⟩ := source_eq_ok_iff.1 h
  rw [completing_singleton hp, Source.rewritten_of_count_eq_zero (Utf8.decode?_encode cs) hcount]
  refine withContents_eq_self fun k content mode' hk => ?_
  split
  · rename_i hkl
    subst hkl
    have hfile := hk.symm.trans hp.node
    cases hfile
    rfl
  · rfl

/-- A source that has nothing to be replaced. -/
structure IsPlain (fs : FileSystem) (p : Path) : Prop where
  readable : ∃ cs, fs.source p = .ok cs
  changes : fs.changes p = 0

theorem settled_singleton {dryRun : Bool} (h : fs.IsPlain p) : fs.settled dryRun [p] = fs := by
  obtain ⟨cs, hcs⟩ := h.readable
  cases dryRun with
  | true => rfl
  | false => exact completing_of_count_eq_zero hcs ((changes_of_source hcs).symm.trans h.changes)

theorem settled_of_isPlain {dryRun : Bool} {ps : List Path} (h : ∀ p ∈ ps, fs.IsPlain p) :
    fs.settled dryRun ps = fs := by
  induction ps with
  | nil => exact settled_nil dryRun
  | cons p ps ih =>
    obtain ⟨hp, hps⟩ := List.forall_mem_cons.1 h
    rw [← settled_cons, settled_singleton hp, ih hps]

/-- A completed source is plain. -/
theorem isPlain_completing {ps : List Path} (h : fs.source p = .ok cs) (hp : p ∈ ps) :
    (fs.completing ps).IsPlain p := by
  obtain ⟨l, mode, hl, hmay⟩ := source_eq_ok_iff.1 h
  have hl' := leadsToFile_completing hl ps
  rw [if_pos (isReached_iff.2 ⟨p, hp, hl.resolve⟩), Source.rewritten_of_decode? (Utf8.decode?_encode cs)] at hl'
  have hsource : (fs.completing ps).source p = .ok (Source.edited cs).content := source_eq_ok_iff.2 ⟨l, mode, hl', hmay⟩
  refine ⟨⟨_, hsource⟩, ?_⟩
  rw [changes_of_source hsource]
  exact Source.count_eq_zero_iff.2 (Source.sites_split_content cs)

/-- The edited text in place of the text completes the path. -/
theorem completing_of_source {l : Location} {old : Bytes} {mode : Nat} (h : fs.source p = .ok cs)
    (hp : LeadsToFile fs p l old mode) : fs.withContent l (Utf8.encode (Source.edited cs).content) = fs.completing [p] := by
  obtain ⟨l', mode', hp', -⟩ := source_eq_ok_iff.1 h
  obtain rfl : l' = l := Except.ok.inj (hp'.resolve.symm.trans hp.resolve)
  rw [completing_singleton hp', Source.rewritten_of_decode? (Utf8.decode?_encode cs)]

end FileSystem

/-! ## Worlds before and after -/

/-- The second world comes from the first by the given actions. The context is again what it was. -/
structure World.After (w : World ρ) (done : List (Context × Action)) (fs : FileSystem) (r : ρ) (w' : World ρ) : Prop where
  files : w'.files = fs
  reporter : w'.reporter = r
  context : w'.context = w.context
  actions : w'.actions = w.actions ++ done

theorem World.After.trans {w w' w'' : World ρ} {done more : List (Context × Action)} {fs fs' : FileSystem} {r r' : ρ}
    (h : World.After w done fs r w') (h' : World.After w' more fs' r' w'') : World.After w (done ++ more) fs' r' w'' where
  files := h'.files
  reporter := h'.reporter
  context := h'.context.trans h.context
  actions := by rw [h'.actions, h.actions, List.append_assoc]

/-- The reporter fails at a call in one of its states. -/
def Reporter.Refuses (reporter : Reporter Cause ρ) (call : ReportCall) (c : Cause) : Prop :=
  ∃ r r', (reporter call).run r = .error c r'

/-! ## One file -/

/-- What a look at a file does: it is read, and written if there are changes to be made. -/
def accesses (dryRun : Bool) (c : Context) (p : Path) (changes : Nat) : List (Context × Action) :=
  (c.enter (.file p), .read p) :: if changes ≠ 0 ∧ dryRun = false then [(c.enter (.file p), .write p)] else []

theorem editFile_cases (dryRun : Bool) (p : Path) (w : World ρ) :
    (∃ cs w', w.files.source p = .ok cs ∧ (editFile dryRun p).run w = .ok (w.files.changes p) w' ∧
      World.After w (accesses dryRun w.context p (w.files.changes p)) (w.files.settled dryRun [p]) w.reporter w') ∨
    (∃ e w', (editFile dryRun p).run w = .error e w' ∧ w.files.Stops dryRun p e ∧
      World.After w (accesses dryRun w.context p (w.files.changes p)) w.files w.reporter w') := by
  rw [editFile, Run.run_within, EStateM.run_bind, Run.run_readSource]
  cases hsource : w.files.source p with
  | error e =>
    have hchanges : w.files.changes p = 0 := by
      unfold FileSystem.changes
      rw [hsource]
    refine Or.inr ⟨e, _, rfl, .unread hsource, rfl, rfl, rfl, ?_⟩
    simp [World.noting, accesses, hchanges]
  | ok cs =>
    have hchanges := FileSystem.changes_of_source hsource
    rw [hchanges]
    simp only [List.forM_eq_forM, EStateM.run_bind, Run.run_forM_log]
    by_cases hwrite : (Source.edited cs).count ≠ 0 ∧ dryRun = false
    · rw [if_pos (by simpa using hwrite)]
      simp only [EStateM.run_bind, Run.run_writeSource, World.noting]
      rcases FileSystem.replace_cases w.files p (Utf8.encode (Source.edited cs).content) with
        ⟨l, old, mode, hp, -, hrun⟩ | ⟨f, hf, hrun⟩
      · rw [hrun, FileSystem.completing_of_source hsource hp]
        refine Or.inl ⟨cs, _, rfl, rfl, ?_, rfl, rfl, ?_⟩
        · simp [FileSystem.settled, hwrite.2]
        · simp [accesses, hwrite]
      · rw [hrun]
        refine Or.inr ⟨_, _, rfl, .unwritten hwrite.2 (by rw [hchanges]; exact hwrite.1) hf, rfl, rfl, rfl, ?_⟩
        simp [accesses, hwrite]
    · -- nothing is written, and nothing need be: it is a dry run, or the text stays the same
      rw [if_neg (by simpa using hwrite)]
      refine Or.inl ⟨cs, _, rfl, rfl, ?_, rfl, rfl, ?_⟩
      · cases dryRun with
        | true => rfl
        | false => exact (FileSystem.completing_of_count_eq_zero hsource (by simpa using hwrite)).symm
      · simp only [accesses, if_neg hwrite, World.noting]

namespace ScanOptions

/-! ## One visit -/

/-- What a visit does: the file is looked at, and told of if it has changes. -/
def deeds (o : ScanOptions) (c : Context) (p : Path) (changes : Nat) : List (Context × Action) :=
  accesses o.dryRun c p changes ++ if changes ≠ 0 then [(c, .report (.fileChanged ⟨p, changes⟩))] else []

variable (o : ScanOptions) (reporter : Reporter Cause ρ)

theorem visit_cases (s : Summary) (p : Path) (w : World ρ) :
    (∃ cs r w', w.files.source p = .ok cs ∧ (o.visit reporter s p).run w = .ok (s.record (w.files.changes p)) w' ∧
      World.After w (o.deeds w.context p (w.files.changes p)) (w.files.settled o.dryRun [p]) r w') ∨
    (∃ e w', (o.visit reporter s p).run w = .error e w' ∧ w.files.Stops o.dryRun p e ∧
      World.After w (accesses o.dryRun w.context p (w.files.changes p)) w.files w.reporter w') ∨
    (∃ c r w', (o.visit reporter s p).run w = .error (.report c) w' ∧ w.files.changes p ≠ 0 ∧
      reporter.Refuses (.fileChanged ⟨p, w.files.changes p⟩) c ∧
      World.After w (o.deeds w.context p (w.files.changes p)) (w.files.settled o.dryRun [p]) r w') := by
  unfold visit
  rcases editFile_cases o.dryRun p w with ⟨cs, w1, hsource, hrun, hafter⟩ | ⟨e, w1, hrun, hwhy, hafter⟩
  · rw [Run.run_bind_ok hrun]
    generalize w.files.changes p = n at hafter ⊢
    by_cases hn : n = 0
    · subst hn
      refine Or.inl ⟨cs, w.reporter, w1, hsource, rfl, ?_⟩
      simpa [deeds] using hafter
    · rw [if_pos hn]
      have hdone : w1.actions ++ [(w1.context, .report (.fileChanged ⟨p, n⟩))] = w.actions ++ o.deeds w.context p n := by
        simp [deeds, hn, hafter.actions, hafter.context]
      simp only [EStateM.run_bind, Run.run_log, Run.run_tell, World.noting, hafter.reporter]
      cases htell : (reporter (.fileChanged ⟨p, n⟩)).run w.reporter with
      | ok u r => exact Or.inl ⟨cs, r, _, hsource, rfl, hafter.files, rfl, hafter.context, hdone⟩
      | error c r =>
        exact Or.inr (Or.inr ⟨c, r, _, rfl, hn, ⟨_, r, htell⟩, hafter.files, rfl, hafter.context, hdone⟩)
  · exact Or.inr (Or.inl ⟨e, w1, Run.run_bind_error hrun, hwhy, hafter⟩)

/-! ## Visits one after the other -/

/-- What visits do. Each finds the files as the visits before have left them. -/
def deedsOf (o : ScanOptions) (c : Context) (fs : FileSystem) : List Path → List (Context × Action)
  | [] => []
  | p :: ps => o.deeds c p (fs.changes p) ++ o.deedsOf c (fs.settled o.dryRun [p]) ps

/-- What visits count. -/
def tally (o : ScanOptions) (s : Summary) (fs : FileSystem) : List Path → Summary
  | [] => s
  | p :: ps => o.tally (s.record (fs.changes p)) (fs.settled o.dryRun [p]) ps

/-- Visits end well, or at a source that cannot be read or written, or at one that cannot be told of. -/
theorem visits_cases (ps : List Path) (s : Summary) (w : World ρ) :
    (∃ r w', (ps.foldlM (o.visit reporter) s).run w = .ok (o.tally s w.files ps) w' ∧
      World.After w (o.deedsOf w.context w.files ps) (w.files.settled o.dryRun ps) r w' ∧
      ∀ p ∈ ps, ∃ cs, w.files.source p = .ok cs) ∨
    (∃ before p after e changes r w', ps = before ++ p :: after ∧
      (ps.foldlM (o.visit reporter) s).run w = .error e w' ∧ w.files.Stops o.dryRun p e ∧
      World.After w (o.deedsOf w.context w.files before ++ accesses o.dryRun w.context p changes)
        (w.files.settled o.dryRun before) r w') ∨
    (∃ before p after c changes r w', ps = before ++ p :: after ∧
      (ps.foldlM (o.visit reporter) s).run w = .error (.report c) w' ∧ changes ≠ 0 ∧
      reporter.Refuses (.fileChanged ⟨p, changes⟩) c ∧
      World.After w (o.deedsOf w.context w.files before ++ o.deeds w.context p changes)
        (w.files.settled o.dryRun (before ++ [p])) r w') := by
  induction ps generalizing s w with
  | nil => exact Or.inl ⟨w.reporter, w, rfl, ⟨by simp, rfl, rfl, by simp [deedsOf]⟩, by simp⟩
  | cons p ps ih =>
    rw [List.foldlM_cons]
    rcases visit_cases o reporter s p w with
      ⟨cs, r, w1, hsource, hrun, hafter⟩ | ⟨e, w1, hrun, hwhy, hafter⟩ | ⟨c, r, w1, hrun, hchanges, hwhy, hafter⟩
    · rw [Run.run_bind_ok hrun]
      -- the visits that follow start from what the first has left
      rcases ih (s.record (w.files.changes p)) w1 with
        ⟨r', w', hrest, hafter', hread⟩ | ⟨before, q, after, e, n, r', w', rfl, hrest, hwhy, hafter'⟩ |
        ⟨before, q, after, c, n, r', w', rfl, hrest, hn, hwhy, hafter'⟩
      · rw [hafter.files, hafter.context, FileSystem.settled_cons] at hafter'
        rw [hafter.files] at hrest hread
        refine Or.inl ⟨r', w', hrest, hafter.trans hafter', ?_⟩
        intro q hq
        rcases List.mem_cons.1 hq with rfl | hq
        · exact ⟨cs, hsource⟩
        · obtain ⟨cs', hcs'⟩ := hread q hq
          exact (FileSystem.source_of_settled hcs').1
      · rw [hafter.files, hafter.context, FileSystem.settled_cons] at hafter'
        rw [hafter.files] at hwhy
        refine Or.inr (Or.inl ⟨p :: before, q, after, e, n, r', w', rfl, hrest, FileSystem.stops_of_settled hwhy, ?_⟩)
        simpa [deedsOf] using hafter.trans hafter'
      · rw [hafter.files, hafter.context, FileSystem.settled_cons] at hafter'
        refine Or.inr (Or.inr ⟨p :: before, q, after, c, n, r', w', rfl, hrest, hn, hwhy, ?_⟩)
        simpa [deedsOf] using hafter.trans hafter'
    · refine Or.inr (Or.inl ⟨[], p, ps, e, w.files.changes p, w.reporter, w1, rfl, Run.run_bind_error hrun, hwhy, ?_⟩)
      simpa [deedsOf] using hafter
    · refine Or.inr (Or.inr ⟨[], p, ps, c, w.files.changes p, r, w1, rfl, Run.run_bind_error hrun, hchanges, hwhy, ?_⟩)
      simpa [deedsOf] using hafter

/-! ## Counts -/

theorem filesScanned_tally (s : Summary) (fs : FileSystem) (ps : List Path) :
    (o.tally s fs ps).filesScanned = s.filesScanned + ps.length := by
  induction ps generalizing s fs with
  | nil => rfl
  | cons p ps ih =>
    rw [tally, ih, List.length_cons]
    show s.filesScanned + 1 + ps.length = _
    omega

variable {o} {fs : FileSystem} {ps : List Path}

/-- Sources without changes are counted and read, and that is all. -/
theorem tally_of_isPlain (s : Summary) (h : ∀ p ∈ ps, fs.IsPlain p) :
    o.tally s fs ps = { s with filesScanned := s.filesScanned + ps.length } := by
  induction ps generalizing s with
  | nil => rfl
  | cons p ps ih =>
    obtain ⟨hp, hps⟩ := List.forall_mem_cons.1 h
    rw [tally, FileSystem.settled_singleton hp, hp.changes, ih _ hps]
    simp [Summary.record, Nat.add_assoc, Nat.add_comm 1]

theorem deedsOf_of_isPlain (c : Context) (h : ∀ p ∈ ps, fs.IsPlain p) :
    o.deedsOf c fs ps = ps.map fun p => (c.enter (.file p), .read p) := by
  induction ps with
  | nil => rfl
  | cons p ps ih =>
    obtain ⟨hp, hps⟩ := List.forall_mem_cons.1 h
    rw [deedsOf, FileSystem.settled_singleton hp, hp.changes, ih hps]
    rfl

end ScanOptions
end AlphaCodemod
