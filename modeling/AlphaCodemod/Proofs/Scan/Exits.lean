/-
How scans end. A scan can end in six ways (`ScanOptions.Exit`), and each says which candidates are
completed by then: all of them if it ends well or at the summary, those up to one that cannot be told of,
and those before one that cannot be read or written. No file is ever left in between: at every end each
has its first content or its edited one.
-/
import AlphaCodemod.Proofs.Scan.Visit
import Mathlib

namespace AlphaCodemod

variable {ρ : Type}

/-! ## Under a change of the context -/

section

variable {α : Type} {act : Run ρ α} {activity : Activity} {a : α} {e : MigrationError} {w w' : World ρ}
  {done : List (Context × Action)} {fs : FileSystem} {r : ρ}

theorem Run.within_ok (h : act.run { w with context := w.context.enter activity } = .ok a w')
    (hafter : World.After { w with context := w.context.enter activity } done fs r w') :
    ∃ w', (Run.within activity act).run w = .ok a w' ∧ World.After w done fs r w' := by
  rw [Run.run_within, h]
  exact ⟨_, rfl, hafter.files, hafter.reporter, rfl, hafter.actions⟩

theorem Run.within_error (h : act.run { w with context := w.context.enter activity } = .error e w')
    (hafter : World.After { w with context := w.context.enter activity } done fs r w') :
    ∃ w', (Run.within activity act).run w = .error e w' ∧ World.After w done fs r w' := by
  rw [Run.run_within, h]
  exact ⟨_, rfl, hafter.files, hafter.reporter, rfl, hafter.actions⟩

end

/-! ## Actions by kind -/

namespace Action

def readPath? : Action → Option Path
  | .read p => some p
  | _ => none

def writePath? : Action → Option Path
  | .write p => some p
  | _ => none

def call? : Action → Option ReportCall
  | .report call => some call
  | _ => none

end Action

/-- The sources read, in order. -/
def reads (done : List (Context × Action)) : List Path := done.filterMap fun d => d.2.readPath?

/-- The sources written, in order. -/
def writes (done : List (Context × Action)) : List Path := done.filterMap fun d => d.2.writePath?

/-- The calls to the reporter, in order. -/
def calls (done : List (Context × Action)) : List ReportCall := done.filterMap fun d => d.2.call?

section

variable (xs ys : List (Context × Action))

@[simp] theorem reads_append : reads (xs ++ ys) = reads xs ++ reads ys := List.filterMap_append

@[simp] theorem writes_append : writes (xs ++ ys) = writes xs ++ writes ys := List.filterMap_append

@[simp] theorem calls_append : calls (xs ++ ys) = calls xs ++ calls ys := List.filterMap_append

variable (c : Context) (call : ReportCall)

@[simp] theorem reads_report : reads [(c, .report call)] = [] := rfl

@[simp] theorem writes_report : writes [(c, .report call)] = [] := rfl

@[simp] theorem calls_report : calls [(c, .report call)] = [call] := rfl

end

variable (c : Context) (o : ScanOptions)

@[simp] theorem reads_accesses (dryRun : Bool) (p : Path) (n : Nat) : reads (accesses dryRun c p n) = [p] := by
  unfold accesses
  split <;> rfl

theorem writes_accesses (dryRun : Bool) (p : Path) (n : Nat) :
    writes (accesses dryRun c p n) = if n ≠ 0 ∧ dryRun = false then [p] else [] := by
  unfold accesses
  split <;> rfl

namespace ScanOptions

@[simp] theorem reads_deeds (p : Path) (n : Nat) : reads (o.deeds c p n) = [p] := by
  unfold deeds
  rw [reads_append, reads_accesses]
  split <;> rfl

theorem writes_deeds (p : Path) (n : Nat) : writes (o.deeds c p n) = if n ≠ 0 ∧ o.dryRun = false then [p] else [] := by
  unfold deeds
  rw [writes_append, writes_accesses]
  split <;> split <;> simp_all [writes, Action.writePath?]

@[simp] theorem reads_deedsOf (fs : FileSystem) (ps : List Path) : reads (o.deedsOf c fs ps) = ps := by
  induction ps generalizing fs with
  | nil => rfl
  | cons p ps ih =>
    have := ih (fs.settled o.dryRun [p])
    rw [deedsOf, reads_append, reads_deeds, this]
    rfl

theorem writes_deedsOf (fs : FileSystem) (ps : List Path) : (writes (o.deedsOf c fs ps)).Sublist ps := by
  induction ps generalizing fs with
  | nil => exact List.Sublist.slnil
  | cons p ps ih =>
    rw [deedsOf, writes_append, writes_deeds]
    split
    · exact (ih _).cons_cons p
    · exact (ih _).cons p

/-- Only sources with changes are written, and they have had them from the start. -/
theorem source_of_mem_writes {fs : FileSystem} {ps : List Path} {p : Path} (h : p ∈ writes (o.deedsOf c fs ps)) :
    ∃ cs, fs.source p = .ok cs ∧ (Source.edited cs).count ≠ 0 := by
  induction ps generalizing fs with
  | nil => cases h
  | cons q ps ih =>
    rw [deedsOf, writes_append, writes_deeds, List.mem_append] at h
    rcases h with h | h
    · split at h
      · rename_i hwrite
        rw [List.mem_singleton.1 h]
        have hchanges := hwrite.1
        unfold FileSystem.changes at hchanges
        split at hchanges
        · rename_i cs hsource
          exact ⟨cs, hsource, hchanges⟩
        · exact absurd rfl hchanges
      · cases h
    · -- a source with changes at a later visit has not been edited before it
      obtain ⟨cs, hsource, hcount⟩ := ih h
      exact ⟨cs, (FileSystem.source_of_settled hsource).2 hcount, hcount⟩

/-! ## Walks -/

variable {o} {w : World ρ} {ps : List Path} {f : FileSystem.FaultAt}

theorem walk_of_candidates (h : o.candidates w.files = .ok ps) :
    ∃ w', o.walk.run w = .ok ps w' ∧ World.After w [(w.context, .walk o.root)] w.files w.reporter w' := by
  unfold candidates at h
  split at h
  · cases h
  · rename_i hfault
    obtain rfl := Except.ok.inj h
    unfold walk
    simp only [EStateM.run_bind, Run.run_note, Run.run_files, List.forM_eq_forM, Run.run_forM_log, World.noting, hfault]
    exact ⟨_, rfl, rfl, rfl, rfl, rfl⟩

theorem walk_of_fault (h : o.candidates w.files = .error f) :
    ∃ w', o.walk.run w = .error (.io f.path (.fileSystem f.fault)) w' ∧
      World.After w [(w.context, .walk o.root)] w.files w.reporter w' := by
  unfold candidates at h
  split at h
  · rename_i f' hfault
    obtain rfl := Except.error.inj h
    unfold walk
    simp only [EStateM.run_bind, Run.run_note, Run.run_files, List.forM_eq_forM, Run.run_forM_log, World.noting, hfault]
    exact ⟨_, rfl, rfl, rfl, rfl, rfl⟩
  · cases h

/-! ## The parts of a scan -/

variable (reporter : Reporter Cause ρ)

/-- What comes behind the walk. -/
theorem scan_of_candidates (hroot : w.files.isDirectory o.root = true) (hfound : o.candidates w.files = .ok ps) :
    ∃ w1, World.After w [(w.context.enter (.phase .fileDiscovery), .walk o.root)] w.files w.reporter w1 ∧
      (o.scan reporter).run w =
        (do
          let total ← Run.within (.phase .editing) (ps.foldlM (o.visit reporter) {})
          Run.within (.phase .reporting) do
            Run.tell reporter (.finished total)
            Run.log (.complete total)
          return total : Run ρ Summary).run w1 := by
  obtain ⟨w1, hwalk, hafter⟩ :=
    walk_of_candidates (w := { w with context := w.context.enter (.phase .fileDiscovery) }) hfound
  obtain ⟨w2, hwalk, hafter⟩ := Run.within_ok hwalk hafter
  refine ⟨{ w2 with log := w2.log ++ [.scanning o ps.length] }, ?_, ?_⟩
  · exact ⟨hafter.files, hafter.reporter, hafter.context, hafter.actions⟩
  · unfold scan
    rw [Run.run_bind_ok (Run.run_files w)]
    simp only [hroot, Bool.not_true, Bool.false_eq_true, if_false]
    rw [Run.run_bind_ok hwalk, Run.run_bind_ok (Run.run_log _ w2)]

theorem summary_of_ok {s : Summary} {u : Unit} {r : ρ} (h : (reporter (.finished s)).run w.reporter = .ok u r) :
    ∃ w', (Run.within (.phase .reporting) do
        Run.tell reporter (.finished s)
        Run.log (.complete s)).run w = .ok () w' ∧
      World.After w [(w.context.enter (.phase .reporting), .report (.finished s))] w.files r w' := by
  rw [Run.run_within, EStateM.run_bind, Run.run_tell, h]
  exact ⟨_, rfl, rfl, rfl, rfl, rfl⟩

theorem summary_of_error {s : Summary} {c : Cause} {r : ρ} (h : (reporter (.finished s)).run w.reporter = .error c r) :
    ∃ w', (Run.within (.phase .reporting) do
        Run.tell reporter (.finished s)
        Run.log (.complete s)).run w = .error (.report c) w' ∧
      World.After w [(w.context.enter (.phase .reporting), .report (.finished s))] w.files r w' := by
  rw [Run.run_within, EStateM.run_bind, Run.run_tell, h]
  exact ⟨_, rfl, rfl, rfl, rfl, rfl⟩

/-! ## Ends of a scan -/

/-- The actions of a scan: the walk, visits and what comes behind them. -/
def deedsUpTo (o : ScanOptions) (c : Context) (fs : FileSystem) (visited : List Path) (more : List (Context × Action)) :
    List (Context × Action) :=
  (c.enter (.phase .fileDiscovery), .walk o.root) :: (o.deedsOf (c.enter (.phase .editing)) fs visited ++ more)

section

variable (o) (fs : FileSystem) (more : List (Context × Action))

@[simp] theorem reads_deedsUpTo : reads (o.deedsUpTo c fs ps more) = ps ++ reads more := by
  show reads (o.deedsOf _ fs ps ++ more) = _
  rw [reads_append, reads_deedsOf]

theorem writes_deedsUpTo :
    writes (o.deedsUpTo c fs ps more) = writes (o.deedsOf (c.enter (.phase .editing)) fs ps) ++ writes more :=
  writes_append _ _

theorem calls_deedsUpTo :
    calls (o.deedsUpTo c fs ps more) = calls (o.deedsOf (c.enter (.phase .editing)) fs ps) ++ calls more :=
  calls_append _ _

end

/-- The ways in which a scan can end, each with what has been done by then. -/
inductive Exit (o : ScanOptions) (reporter : Reporter Cause ρ) (w : World ρ) :
    EStateM.Result MigrationError (World ρ) Summary → Prop where
  | noRoot {w' : World ρ} (hroot : w.files.isDirectory o.root = false)
    (hafter : World.After w [] w.files w.reporter w') :
    Exit o reporter w (.error (.rootNotFound o.root) w')
  | noWalk {f : FileSystem.FaultAt} {w' : World ρ} (hfound : o.candidates w.files = .error f)
    (hafter : World.After w (o.deedsUpTo w.context w.files [] []) w.files w.reporter w') :
    Exit o reporter w (.error (.io f.path (.fileSystem f.fault)) w')
  | noSource {before after : List Path} {p : Path} {e : MigrationError} {n : Nat} {r : ρ} {w' : World ρ}
    (hfound : o.candidates w.files = .ok (before ++ p :: after)) (hwhy : w.files.Stops o.dryRun p e)
    (hafter : World.After w
      (o.deedsUpTo w.context w.files before (accesses o.dryRun (w.context.enter (.phase .editing)) p n))
      (w.files.settled o.dryRun before) r w') :
    Exit o reporter w (.error e w')
  | noTelling {before after : List Path} {p : Path} {c : Cause} {n : Nat} {r : ρ} {w' : World ρ}
    (hfound : o.candidates w.files = .ok (before ++ p :: after)) (hn : n ≠ 0)
    (hwhy : reporter.Refuses (.fileChanged ⟨p, n⟩) c)
    (hafter : World.After w
      (o.deedsUpTo w.context w.files before (o.deeds (w.context.enter (.phase .editing)) p n))
      (w.files.settled o.dryRun (before ++ [p])) r w') :
    Exit o reporter w (.error (.report c) w')
  | noSummary {ps : List Path} {c : Cause} {r : ρ} {w' : World ρ} (hfound : o.candidates w.files = .ok ps)
    (hwhy : reporter.Refuses (.finished (o.tally {} w.files ps)) c)
    (hafter : World.After w
      (o.deedsUpTo w.context w.files ps
        [(w.context.enter (.phase .reporting), .report (.finished (o.tally {} w.files ps)))])
      (w.files.settled o.dryRun ps) r w') :
    Exit o reporter w (.error (.report c) w')
  | complete {ps : List Path} {r : ρ} {w' : World ρ} (hroot : w.files.isDirectory o.root = true)
    (hfound : o.candidates w.files = .ok ps)
    (hread : ∀ p ∈ ps, ∃ cs, w.files.source p = .ok cs)
    (hafter : World.After w
      (o.deedsUpTo w.context w.files ps
        [(w.context.enter (.phase .reporting), .report (.finished (o.tally {} w.files ps)))])
      (w.files.settled o.dryRun ps) r w') :
    Exit o reporter w (.ok (o.tally {} w.files ps) w')

/-- Every scan ends in one of these ways. -/
theorem exit_scan (o : ScanOptions) (reporter : Reporter Cause ρ) (w : World ρ) :
    Exit o reporter w ((o.scan reporter).run w) := by
  cases hroot : w.files.isDirectory o.root with
  | false =>
    unfold scan
    rw [Run.run_bind_ok (Run.run_files w)]
    simp only [hroot]
    exact Exit.noRoot hroot ⟨rfl, rfl, rfl, by simp⟩
  | true =>
    cases hfound : o.candidates w.files with
    | error f =>
      obtain ⟨w1, hwalk, hafter⟩ :=
        walk_of_fault (w := { w with context := w.context.enter (.phase .fileDiscovery) }) hfound
      obtain ⟨w2, hwalk, hafter⟩ := Run.within_error hwalk hafter
      unfold scan
      rw [Run.run_bind_ok (Run.run_files w)]
      simp only [hroot, Bool.not_true, Bool.false_eq_true, if_false]
      rw [Run.run_bind_error hwalk]
      exact Exit.noWalk hfound hafter
    | ok ps =>
      obtain ⟨w1, hwalk, hscan⟩ := scan_of_candidates reporter hroot hfound
      rw [hscan]
      rcases visits_cases o reporter ps {} { w1 with context := w1.context.enter (.phase .editing) } with
        ⟨r, w2, hrun, hafter, hread⟩ | ⟨before, p, after, e, n, r, w2, rfl, hrun, hwhy, hafter⟩ |
        ⟨before, p, after, c, n, r, w2, rfl, hrun, hn, hwhy, hafter⟩
      · obtain ⟨w3, hrun, hafter⟩ := Run.within_ok hrun hafter
        -- the walk has changed no file, so the visits start from those of the scan
        simp only [hwalk.files, hwalk.context] at hrun hafter hread
        have hdone := hwalk.trans hafter
        rw [Run.run_bind_ok hrun]
        cases htell : (reporter (.finished (o.tally {} w.files ps))).run w3.reporter with
        | ok u r' =>
          obtain ⟨w4, hsum, hend⟩ := summary_of_ok reporter htell
          rw [Run.run_bind_ok hsum]
          rw [hdone.files, hdone.context] at hend
          exact Exit.complete hroot hfound hread (hdone.trans hend)
        | error c r' =>
          obtain ⟨w4, hsum, hend⟩ := summary_of_error reporter htell
          rw [Run.run_bind_error hsum]
          rw [hdone.files, hdone.context] at hend
          exact Exit.noSummary hfound ⟨_, _, htell⟩ (hdone.trans hend)
      · obtain ⟨w3, hrun, hafter⟩ := Run.within_error hrun hafter
        simp only [hwalk.files, hwalk.context] at hafter hwhy
        rw [Run.run_bind_error hrun]
        exact Exit.noSource hfound hwhy (hwalk.trans hafter)
      · obtain ⟨w3, hrun, hafter⟩ := Run.within_error hrun hafter
        simp only [hwalk.files, hwalk.context] at hafter
        rw [Run.run_bind_error hrun]
        exact Exit.noTelling hfound hn hwhy (hwalk.trans hafter)

/-- A scan in whose way no file stands succeeds, or ends since the reporter refuses a call. -/
theorem scan_succeeds_or_is_refused (hroot : w.files.isDirectory o.root = true) (hfound : o.candidates w.files = .ok ps)
    (hedit : ∀ p ∈ ps, w.files.CanBeEdited o.dryRun p) :
    (∃ r w', (o.scan reporter).run w = .ok (o.tally {} w.files ps) w' ∧
      World.After w
        (o.deedsUpTo w.context w.files ps
          [(w.context.enter (.phase .reporting), .report (.finished (o.tally {} w.files ps)))])
        (w.files.settled o.dryRun ps) r w') ∨
    ∃ call c w', reporter.Refuses call c ∧ (o.scan reporter).run w = .error (.report c) w' := by
  have hexit := exit_scan o reporter w
  generalize (o.scan reporter).run w = result at hexit
  cases hexit with
  | noRoot hno =>
    rw [hroot] at hno
    cases hno
  | noWalk hno =>
    rw [hfound] at hno
    cases hno
  | noSource hfound' hwhy =>
    obtain rfl := Except.ok.inj (hfound.symm.trans hfound')
    exact absurd (hedit _ (by simp)) (FileSystem.not_canBeEdited_of_stops hwhy)
  | noTelling hfound' hn hwhy => exact Or.inr ⟨_, _, _, hwhy, rfl⟩
  | noSummary hfound' hwhy => exact Or.inr ⟨_, _, _, hwhy, rfl⟩
  | complete _ hfound' _ hafter =>
    obtain rfl := Except.ok.inj (hfound.symm.trans hfound')
    exact Or.inl ⟨_, _, rfl, hafter⟩

/-- A scan in whose way nothing stands succeeds. -/
theorem scan_succeeds (hroot : w.files.isDirectory o.root = true) (hfound : o.candidates w.files = .ok ps)
    (hedit : ∀ p ∈ ps, w.files.CanBeEdited o.dryRun p) (hreporter : ∀ call c, ¬ reporter.Refuses call c) :
    ∃ r w', (o.scan reporter).run w = .ok (o.tally {} w.files ps) w' ∧
      World.After w
        (o.deedsUpTo w.context w.files ps
          [(w.context.enter (.phase .reporting), .report (.finished (o.tally {} w.files ps)))])
        (w.files.settled o.dryRun ps) r w' := by
  rcases scan_succeeds_or_is_refused reporter hroot hfound hedit with h | ⟨call, c, _, hwhy, -⟩
  · exact h
  · exact absurd hwhy (hreporter call c)

/-- Whatever way a scan ends, candidates it has come to are settled, and nothing else has changed. -/
theorem files_world_scan_among (o : ScanOptions) (reporter : Reporter Cause ρ) (w : World ρ) :
    ∃ ps, (∀ p ∈ ps, ∃ found, o.candidates w.files = .ok found ∧ p ∈ found) ∧
      ((o.scan reporter).world w).files = w.files.settled o.dryRun ps := by
  have hexit := exit_scan o reporter w
  unfold Run.world
  generalize (o.scan reporter).run w = result at hexit
  cases hexit with
  | noRoot _ hafter => exact ⟨[], by simp, by rw [hafter.files, FileSystem.settled_nil]⟩
  | noWalk _ hafter => exact ⟨[], by simp, by rw [hafter.files, FileSystem.settled_nil]⟩
  | noSource hfound _ hafter =>
    exact ⟨_, fun p hp => ⟨_, hfound, List.mem_append_left _ hp⟩, hafter.files⟩
  | noTelling hfound _ _ hafter =>
    refine ⟨_, fun p hp => ⟨_, hfound, ?_⟩, hafter.files⟩
    rw [List.append_cons]
    exact List.mem_append_left _ hp
  | noSummary hfound _ hafter => exact ⟨_, fun p hp => ⟨_, hfound, hp⟩, hafter.files⟩
  | complete _ hfound _ hafter => exact ⟨_, fun p hp => ⟨_, hfound, hp⟩, hafter.files⟩

theorem files_world_scan (o : ScanOptions) (reporter : Reporter Cause ρ) (w : World ρ) :
    ∃ ps, ((o.scan reporter).world w).files = w.files.settled o.dryRun ps := by
  obtain ⟨ps, -, hfiles⟩ := files_world_scan_among o reporter w
  exact ⟨ps, hfiles⟩

/-! ## Completed scans -/

/-- After a scan that is no dry run and ends well, each file that a candidate leads to has its edited text for
content, in the mode it had. All else is as it was, at every location and with the names in every directory;
and only files with a call to be replaced have been written. -/
theorem scan_edits_the_candidates {s : Summary} {w' : World ρ} (hreal : o.dryRun = false)
    (h : (o.scan reporter).run w = .ok s w') :
    ∃ ps done, o.candidates w.files = .ok ps ∧ w'.actions = w.actions ++ done ∧
      (∀ p ∈ ps, ∃ l content mode cs, w.files.resolve true p = .ok l ∧ w.files.node? l = some (.file content mode) ∧
        Utf8.decode? content = some cs ∧
        w'.files.node? l = some (.file (Utf8.encode (Source.edited cs).content) mode)) ∧
      (∀ l, (∀ p ∈ ps, w.files.resolve true p ≠ .ok l) → w'.files.node? l = w.files.node? l) ∧
      (∀ d, w'.files.namesIn d = w.files.namesIn d) ∧
      ∀ p ∈ writes done, ∃ l content mode cs, w.files.resolve true p = .ok l ∧
        w.files.node? l = some (.file content mode) ∧ Utf8.decode? content = some cs ∧
        ∃ i j, Source.Occurs cs i j := by
  have hexit := exit_scan o reporter w
  rw [h] at hexit
  cases hexit with
  | @complete ps r _ _ hfound hread hafter =>
    have hfiles : w'.files = w.files.completing ps := by
      rw [hafter.files, FileSystem.settled, hreal]
      rfl
    refine ⟨ps, _, hfound, hafter.actions, ?_, ?_, ?_, ?_⟩
    · intro p hp
      obtain ⟨cs, hcs⟩ := hread p hp
      obtain ⟨l, mode, hl, -⟩ := FileSystem.source_eq_ok_iff.1 hcs
      refine ⟨l, _, mode, cs, hl.resolve, hl.node, Utf8.decode?_encode cs, ?_⟩
      rw [hfiles, FileSystem.node?_completing, if_pos (FileSystem.isReached_iff.2 ⟨p, hp, hl.resolve⟩), hl.node,
        ← Source.rewritten_of_decode? (Utf8.decode?_encode cs)]
      rfl
    · intro l hl
      rw [hfiles, FileSystem.node?_completing, if_neg]
      intro hreached
      obtain ⟨p, hp, hpl⟩ := FileSystem.isReached_iff.1 hreached
      exact hl p hp hpl
    · intro d
      rw [hfiles]
      exact FileSystem.namesIn_withContents _ _ d
    · intro p hp
      have hwrites : p ∈ writes (o.deedsOf (w.context.enter (.phase .editing)) w.files ps) := by
        simpa [writes_deedsUpTo] using hp
      obtain ⟨cs, hcs, hcount⟩ := source_of_mem_writes _ o hwrites
      obtain ⟨l, mode, hl, -⟩ := FileSystem.source_eq_ok_iff.1 hcs
      obtain ⟨change, hchange⟩ := List.exists_mem_of_length_pos (Nat.pos_of_ne_zero hcount)
      exact ⟨l, _, mode, cs, hl.resolve, hl.node, Utf8.decode?_encode cs, change.start, change.stop,
        Source.occurs_iff.2 ⟨change, hchange, rfl, rfl⟩⟩

/-- A project with a source and a link to it. -/
def linkedSource : FileSystem where
  entries :=
    [([Utf8.encode ['p']], .directory),
      ([Utf8.encode ['p'], Utf8.encode "a.dart".toList], .file (Utf8.encode "c.withOpacity(0.5)".toList) 420),
      ([Utf8.encode ['p'], Utf8.encode "b.dart".toList], .link (Path.ofString "a.dart"))]
  nodup := by decide +kernel
  housed := by decide +kernel

/-- The scan of that project. -/
def ofLinkedSource : ScanOptions := { root := Path.ofString "/p" }

theorem candidates_linkedSource :
    ofLinkedSource.candidates linkedSource = .ok [Path.ofString "/p/a.dart", Path.ofString "/p/b.dart"] := by cbv

theorem canBeEdited_linkedSource (dryRun : Bool) :
    ∀ p ∈ [Path.ofString "/p/a.dart", Path.ofString "/p/b.dart"], linkedSource.CanBeEdited dryRun p := by
  have hsource : linkedSource.source (Path.ofString "/p/a.dart") = .ok "c.withOpacity(0.5)".toList := by cbv
  have hlinked : linkedSource.source (Path.ofString "/p/b.dart") = .ok "c.withOpacity(0.5)".toList := by cbv
  have htarget : linkedSource.target (Path.ofString "/p/a.dart") = .ok (Path.ofString "/p/a.dart") := by cbv
  have hlink : linkedSource.target (Path.ofString "/p/b.dart") = .ok (Path.ofString "/p/a.dart") := by cbv
  have hroom : linkedSource.vacancy (Path.ofString "/p/a.dart").directory =
      .ok ⟨Path.ofString "/p/.tmp000000", [Utf8.encode ['p'], Utf8.encode ".tmp000000".toList]⟩ := by cbv
  refine List.forall_mem_cons.2 ⟨FileSystem.canBeEdited_of_privileged hsource htarget hroom rfl rfl dryRun, ?_⟩
  exact List.forall_mem_singleton.2 (FileSystem.canBeEdited_of_privileged hlinked hlink hroom rfl rfl dryRun)

theorem scan_linkedSource (reporter : Reporter Cause Unit) (hreporter : ∀ call c, ¬ reporter.Refuses call c) :
    ∃ w', (ofLinkedSource.scan reporter).run { files := linkedSource, reporter := () } = .ok ⟨2, 1, 1⟩ w' := by
  have hroot : linkedSource.isDirectory ofLinkedSource.root = true := by decide +kernel
  have htally : ofLinkedSource.tally {} linkedSource [Path.ofString "/p/a.dart", Path.ofString "/p/b.dart"] = ⟨2, 1, 1⟩ := by
    decide +kernel
  obtain ⟨r, w', hrun, -⟩ := scan_succeeds (w := { files := linkedSource, reporter := () }) reporter hroot
    candidates_linkedSource (canBeEdited_linkedSource false) hreporter
  exact ⟨w', htally ▸ hrun⟩

/-- A reporter that keeps silent. -/
def silent : Reporter Cause Unit := fun _ => pure ()

theorem not_refuses_silent (call : ReportCall) (c : Cause) : ¬ silent.Refuses call c := by
  rintro ⟨r, r', h⟩
  cases h

theorem scan_edits_a_linked_source :
    ofLinkedSource.dryRun = false ∧
      ∃ w', (ofLinkedSource.scan silent).run { files := linkedSource, reporter := () } = .ok ⟨2, 1, 1⟩ w' ∧
        w'.files.node? [Utf8.encode ['p'], Utf8.encode "a.dart".toList] =
          some (.file (Utf8.encode "c.withAlpha(128)".toList) 420) := by
  obtain ⟨w', hrun⟩ := scan_linkedSource silent not_refuses_silent
  refine ⟨rfl, w', hrun, ?_⟩
  obtain ⟨ps, done, hfound, -, hedited, -⟩ := scan_edits_the_candidates silent rfl hrun
  obtain rfl := Except.ok.inj (candidates_linkedSource.symm.trans hfound)
  obtain ⟨l, content, mode, cs, hl, hnode, hdecode, hnew⟩ := hedited (Path.ofString "/p/b.dart") (by simp)
  have hresolve : linkedSource.resolve true (Path.ofString "/p/b.dart") =
      .ok [Utf8.encode ['p'], Utf8.encode "a.dart".toList] := by cbv
  obtain rfl := Except.ok.inj (hresolve.symm.trans hl)
  have hfile : linkedSource.node? [Utf8.encode ['p'], Utf8.encode "a.dart".toList] =
      some (.file (Utf8.encode "c.withOpacity(0.5)".toList) 420) := by decide +kernel
  obtain ⟨rfl, rfl⟩ := Node.file.inj (Option.some.inj (hfile.symm.trans hnode))
  obtain rfl := Option.some.inj ((Utf8.decode?_encode _).symm.trans hdecode)
  have hcontent : (Source.edited "c.withOpacity(0.5)".toList).content = "c.withAlpha(128)".toList := by decide +kernel
  rw [hnew, hcontent]

/-! ## Scans that end early -/

/-- Wherever a scan ends, each file has its first content or its edited one and nothing has come or gone; a
dry run changes nothing. A scan that ends well has completed all candidates. One that ends at a candidate
which cannot be read or replaced has completed those before it and has not touched those behind it; its error
is the one that reading it gives, with its path, or the one of the step of its replacement that failed, with
the path of that step. One that ends as the reporter fails has completed the candidate told of and all before
it, or all candidates if the summary was told. -/
theorem scan_stops_between_files (o : ScanOptions) (reporter : Reporter Cause ρ) (w : World ρ) :
    let w' := (o.scan reporter).world w
    (∀ l, w'.files.node? l = w.files.node? l ∨
      ∃ content mode cs, w.files.node? l = some (.file content mode) ∧ Utf8.decode? content = some cs ∧
        w'.files.node? l = some (.file (Utf8.encode (Source.edited cs).content) mode)) ∧
    (∀ d, w'.files.namesIn d = w.files.namesIn d) ∧
    (o.dryRun = true → w'.files = w.files) ∧
    ∃ done, w'.actions = w.actions ++ done ∧
      match (o.scan reporter).result w with
      | .ok _ => ∃ ps, o.candidates w.files = .ok ps ∧ reads done = ps ∧ w'.files = w.files.settled o.dryRun ps
      | .error (.report c) =>
        (∃ before p after n, o.candidates w.files = .ok (before ++ p :: after) ∧
          reporter.Refuses (.fileChanged ⟨p, n⟩) c ∧ (calls done).getLast? = some (.fileChanged ⟨p, n⟩) ∧
          reads done = before ++ [p] ∧ w'.files = w.files.settled o.dryRun (before ++ [p])) ∨
        (∃ ps s, o.candidates w.files = .ok ps ∧
          reporter.Refuses (.finished s) c ∧ (calls done).getLast? = some (.finished s) ∧
          reads done = ps ∧ w'.files = w.files.settled o.dryRun ps)
      | .error e =>
        (e = .rootNotFound o.root ∧ done = [] ∧ w'.files = w.files) ∨
        (∃ f, o.candidates w.files = .error f ∧ e = .io f.path (.fileSystem f.fault) ∧
          reads done = [] ∧ writes done = [] ∧ w'.files = w.files) ∨
        (∃ before p after, o.candidates w.files = .ok (before ++ p :: after) ∧ w.files.Stops o.dryRun p e ∧
          reads done = before ++ [p] ∧ (writes done).Sublist (before ++ [p]) ∧
          w'.files = w.files.settled o.dryRun before) := by
  intro w'
  -- what holds at every end follows from some candidates being settled, whichever they are
  obtain ⟨ps, hfiles⟩ : ∃ ps, w'.files = w.files.settled o.dryRun ps := files_world_scan o reporter w
  refine ⟨?_, ?_, ?_, ?_⟩
  · intro l
    rw [hfiles]
    exact FileSystem.node?_settled_cases o.dryRun ps l
  · intro d
    rw [hfiles]
    exact FileSystem.namesIn_settled o.dryRun ps d
  · intro hdry
    rw [hfiles, hdry, FileSystem.settled_true]
  · -- the rest depends on the way in which the scan ends
    have hexit := exit_scan o reporter w
    clear hfiles
    revert w'
    unfold Run.world Run.result
    generalize (o.scan reporter).run w = result at hexit
    intro w'
    cases hexit with
    | noRoot _ hafter => exact ⟨_, hafter.actions, Or.inl ⟨rfl, rfl, hafter.files⟩⟩
    | noWalk hfound hafter => exact ⟨_, hafter.actions, Or.inr (Or.inl ⟨_, hfound, rfl, rfl, rfl, hafter.files⟩)⟩
    | @noSource before after p e n r w1 hfound hwhy hafter =>
      refine ⟨_, hafter.actions, ?_⟩
      have hread : reads (o.deedsUpTo w.context w.files before (accesses o.dryRun (w.context.enter (.phase .editing)) p n)) =
          before ++ [p] := by simp
      have hwritten : (writes
          (o.deedsUpTo w.context w.files before (accesses o.dryRun (w.context.enter (.phase .editing)) p n))).Sublist
          (before ++ [p]) := by
        rw [writes_deedsUpTo, writes_accesses]
        refine (writes_deedsOf _ o _ before).append ?_
        split <;> simp
      have hend := And.intro hwhy (And.intro hread (And.intro hwritten hafter.files))
      -- whichever step has failed, the error is none of the reporter's
      rcases FileSystem.error_of_stops hwhy with rfl | ⟨q, f, rfl⟩
      · exact Or.inr (Or.inr ⟨before, p, after, hfound, hend⟩)
      · exact Or.inr (Or.inr ⟨before, p, after, hfound, hend⟩)
    | noTelling hfound hn hwhy hafter =>
      refine ⟨_, hafter.actions, Or.inl ⟨_, _, _, _, hfound, hwhy, ?_, by simp, hafter.files⟩⟩
      simp [calls_deedsUpTo, deeds, hn]
    | noSummary hfound hwhy hafter =>
      exact ⟨_, hafter.actions, Or.inr ⟨_, _, hfound, hwhy, by simp [calls_deedsUpTo], by simp, hafter.files⟩⟩
    | complete _ hfound _ hafter => exact ⟨_, hafter.actions, _, hfound, by simp, hafter.files⟩

end ScanOptions
end AlphaCodemod
