/-
How the settings of a migration are settled. `Migration.Settlement` says, without runs, what there is to be
scanned or why there is nothing: the root comes first, then the settings file, then the extension, then the
patterns, and the first fault decides. A migration does what its settlement says: it fails before anything is
touched, or it is the scan (`Migration.settings_come_first`).
-/
import AlphaCodemod.Migration
import AlphaCodemod.Proofs.Scan.Exits

namespace AlphaCodemod

variable {ρ : Type}

/-! ## Checked settings -/

namespace Settings

/-- A text without the dots before it. -/
def undotted (t : String) : List Char := t.toList.dropWhile (· = '.')

/-- An extension that names files: there is one, and no separator in it. -/
structure IsExtension (e : List Char) : Prop where
  ne_nil : e ≠ []
  single : ∀ c ∈ e, c ≠ '/' ∧ c ≠ '\\' ∧ c ≠ '.'

/-- Each text is that of the pattern in its place. -/
def Compile (ts : List String) (gs : List Glob.Pattern) : Prop :=
  List.Forall₂ (fun t g => Glob.Pattern.read t = .ok g) ts gs

/-- What an extension and exclude patterns come to: the first fault of them, or what a scan works with. -/
inductive Checked (extension : String) (exclude : List String) :
    Except SettingsFault (String × List Glob.Pattern) → Prop where
  | empty (hempty : undotted extension = []) : Checked extension exclude (.error .emptyExtension)
  | compound {c : Char} (hc : c ∈ undotted extension) (hsep : c = '/' ∨ c = '\\' ∨ c = '.') :
    Checked extension exclude (.error (.compoundExtension extension))
  | badPattern {before after : List String} {gs : List Glob.Pattern} {t : String} {f : Glob.Fault}
    (hext : IsExtension (undotted extension)) (hexclude : exclude = before ++ t :: after) (hbefore : Compile before gs)
    (ht : Glob.Pattern.read t = .error f) : Checked extension exclude (.error (.badPattern t f))
  | sound {gs : List Glob.Pattern} (hext : IsExtension (undotted extension)) (hexclude : Compile exclude gs) :
    Checked extension exclude (.ok (String.ofList (undotted extension), gs))

variable {s : Settings} {f : SettingsFault} {gs : List Glob.Pattern}

theorem normalized_eq (s : Settings) : s.normalized = String.ofList (undotted s.extension) := rfl

theorem patterns_of_compile (h : Compile s.exclude gs) : s.patterns = .ok gs := by
  unfold patterns
  generalize s.exclude = ts at h
  induction h with
  | nil => rfl
  | cons ht _ ih =>
    rw [List.mapM_cons, ht, ih]
    rfl

theorem patterns_of_badPattern {before after : List String} {t : String} {f : Glob.Fault}
    (hexclude : s.exclude = before ++ t :: after) (hbefore : Compile before gs) (ht : Glob.Pattern.read t = .error f) :
    s.patterns = .error (.badPattern t f) := by
  unfold patterns
  rw [hexclude]
  clear hexclude
  induction hbefore with
  | nil =>
    rw [List.nil_append, List.mapM_cons, ht]
    rfl
  | cons ht' _ ih =>
    rw [List.cons_append, List.mapM_cons, ht', ih]
    rfl

theorem exists_compile (ts : List String) :
    (∃ gs, Compile ts gs) ∨
      ∃ before t after gs f, ts = before ++ t :: after ∧ Compile before gs ∧ Glob.Pattern.read t = .error f := by
  induction ts with
  | nil => exact Or.inl ⟨[], List.Forall₂.nil⟩
  | cons t ts ih =>
    cases ht : Glob.Pattern.read t with
    | error f => exact Or.inr ⟨[], t, ts, [], f, rfl, List.Forall₂.nil, ht⟩
    | ok g =>
      rcases ih with ⟨gs, hgs⟩ | ⟨before, t', after, gs, f, rfl, hbefore, ht'⟩
      · exact Or.inl ⟨g :: gs, List.Forall₂.cons ht hgs⟩
      · exact Or.inr ⟨t :: before, t', after, g :: gs, f, rfl, List.Forall₂.cons ht hbefore, ht'⟩

theorem exists_checked (extension : String) (exclude : List String) : ∃ v, Checked extension exclude v := by
  by_cases hempty : undotted extension = []
  · exact ⟨_, Checked.empty hempty⟩
  by_cases hsep : ∃ c ∈ undotted extension, c = '/' ∨ c = '\\' ∨ c = '.'
  · obtain ⟨c, hc, hsep⟩ := hsep
    exact ⟨_, Checked.compound hc hsep⟩
  have hext : IsExtension (undotted extension) := by
    refine ⟨hempty, fun c hc => ?_⟩
    have hnone := fun h => hsep ⟨c, hc, h⟩
    tauto
  rcases exists_compile exclude with ⟨gs, hgs⟩ | ⟨before, t, after, gs, f, hexclude, hbefore, ht⟩
  · exact ⟨_, Checked.sound hext hgs⟩
  · exact ⟨_, Checked.badPattern hext hexclude hbefore ht⟩

theorem checkExtension_of_empty (h : undotted s.extension = []) : s.checkExtension = .error .emptyExtension := by
  simp [checkExtension, normalized_eq, h, throw, throwThe, MonadExceptOf.throw]

theorem checkExtension_of_separator {c : Char} (hc : c ∈ undotted s.extension) (hsep : c = '/' ∨ c = '\\' ∨ c = '.') :
    s.checkExtension = .error (.compoundExtension s.extension) := by
  have hne : undotted s.extension ≠ [] := List.ne_nil_of_mem hc
  have hany : (undotted s.extension).any (fun c => c == '/' || c == '\\' || c == '.') = true := by
    rw [List.any_eq_true]
    exact ⟨c, hc, by simpa [or_assoc] using hsep⟩
  simp [checkExtension, normalized_eq, hne, hany, throw, throwThe, MonadExceptOf.throw]

theorem checkExtension_of_isExtension (h : IsExtension (undotted s.extension)) : s.checkExtension = .ok () := by
  have hnone : (undotted s.extension).any (fun c => c == '/' || c == '\\' || c == '.') = false := by
    rw [List.any_eq_false]
    intro c hc
    simpa [and_assoc] using h.single c hc
  simp [checkExtension, normalized_eq, h.ne_nil, hnone, pure, Except.pure]

theorem validate_of_checked_error (h : Checked s.extension s.exclude (.error f)) : s.validate = .error f := by
  unfold validate
  cases h with
  | empty hempty =>
    rw [checkExtension_of_empty hempty]
    rfl
  | compound hc hsep =>
    rw [checkExtension_of_separator hc hsep]
    rfl
  | badPattern hext hexclude hbefore ht =>
    rw [checkExtension_of_isExtension hext, patterns_of_badPattern hexclude hbefore ht]
    rfl

theorem of_checked_ok {e : String} (h : Checked s.extension s.exclude (.ok (e, gs))) :
    s.validate = .ok () ∧ s.patterns = .ok gs ∧ s.normalized = e := by
  cases h with
  | sound hext hexclude =>
    have hpatterns := patterns_of_compile hexclude
    refine ⟨?_, hpatterns, rfl⟩
    rw [validate, checkExtension_of_isExtension hext, hpatterns]
    rfl

end Settings

/-! ## Runs without sources -/

/-- From one world to the other no more has been done than settings read and checked: no file has changed, and
the reporter has not been called. -/
def World.Prepared (w w' : World ρ) : Prop :=
  ∃ done, World.After w done w.files w.reporter w' ∧ calls done = [] ∧
    ∀ d ∈ done, (∃ p, d.2 = .readSettings p) ∨ ∃ s, d.2 = .checkSettings s

namespace Settings

variable {w : World ρ} {absent : Run ρ Settings} {p : Path} {s : Settings}

theorem loadOr_of_notFound (h : w.files.read p = .error .notFound) :
    (loadOr absent p).run w = absent.run (w.noting (.readSettings p)) := by
  rw [loadOr, Run.run_bind_ok (Run.run_note _ w), Run.run_bind_ok (Run.run_files _)]
  simp only [World.noting, h]

theorem loadOr_of_fault {f : FileSystem.Fault} (h : w.files.read p = .error f) (hf : f ≠ .notFound) :
    (loadOr absent p).run w = .error (.config (.unreadable f) (some p)) (w.noting (.readSettings p)) := by
  rw [loadOr, Run.run_bind_ok (Run.run_note _ w), Run.run_bind_ok (Run.run_files _)]
  simp only [World.noting, h]
  cases f with
  | notFound => exact absurd rfl hf
  | _ => rfl

theorem loadOr_of_content {content : Bytes} (h : w.files.read p = .ok content) {f : ConfigFault}
    (hcontent : ofContent content = .error f) :
    (loadOr absent p).run w = .error (.config f (some p)) (w.noting (.readSettings p)) := by
  rw [loadOr, Run.run_bind_ok (Run.run_note _ w), Run.run_bind_ok (Run.run_files _)]
  simp only [World.noting, h, hcontent]
  rfl

theorem loadOr_of_settings {content : Bytes} (h : w.files.read p = .ok content) (hcontent : ofContent content = .ok s) :
    (loadOr absent p).run w = .ok s { w.noting (.readSettings p) with log := w.log ++ [.loaded p] } := by
  rw [loadOr, Run.run_bind_ok (Run.run_note _ w), Run.run_bind_ok (Run.run_files _)]
  simp only [World.noting, h, hcontent]
  rfl

end Settings

namespace Migration

variable {m : Migration} {w : World ρ}

/-- The settings file of a migration: the one that is named, or the root's own. -/
def settingsPath (m : Migration) : Path := m.settingsFile.getD (Settings.fileIn m.root)

/-- The settings that a migration starts from, or why it has none. The defaults are taken for the root's own
file alone, and only if it is not there. -/
inductive Base (m : Migration) (fs : FileSystem) : Except ConfigFault Settings → Prop where
  | absent (hnone : m.settingsFile = none) (hread : fs.read m.settingsPath = .error .notFound) : Base m fs (.ok {})
  | unreadable {f : FileSystem.Fault} (hread : fs.read m.settingsPath = .error f)
    (hneeded : m.settingsFile ≠ none ∨ f ≠ .notFound) : Base m fs (.error (.unreadable f))
  | notText {content : Bytes} (hread : fs.read m.settingsPath = .ok content) (hdecode : Utf8.decode? content = none) :
    Base m fs (.error .notText)
  | malformed {document : List Char} {f : Toml.Fault} (hread : fs.read m.settingsPath = .ok (Utf8.encode document))
    (hdocument : Settings.ofDocument document = .error f) : Base m fs (.error (.malformed document f))
  | held {document : List Char} {s : Settings} (hread : fs.read m.settingsPath = .ok (Utf8.encode document))
    (hdocument : Settings.ofDocument document = .ok s) : Base m fs (.ok s)

theorem exists_base (m : Migration) (fs : FileSystem) : ∃ v, m.Base fs v := by
  cases hread : fs.read m.settingsPath with
  | error f =>
    by_cases hneeded : m.settingsFile ≠ none ∨ f ≠ .notFound
    · exact ⟨_, Base.unreadable hread hneeded⟩
    · obtain ⟨hnone, rfl⟩ : m.settingsFile = none ∧ f = .notFound := by tauto
      exact ⟨_, Base.absent hnone hread⟩
  | ok content =>
    cases hdecode : Utf8.decode? content with
    | none => exact ⟨_, Base.notText hread hdecode⟩
    | some document =>
      obtain rfl := Utf8.decode?_eq_some_iff.1 hdecode
      cases hdocument : Settings.ofDocument document with
      | error f => exact ⟨_, Base.malformed hread hdocument⟩
      | ok s => exact ⟨_, Base.held hread hdocument⟩

/-- The settings a migration starts from are read from its settings file; what is done without one depends on
whose it is. -/
theorem base_eq (m : Migration) :
    ∃ absent : Run ρ Settings, m.base = Settings.loadOr absent m.settingsPath ∧
      (m.settingsFile = none → absent = do Run.log (.noSettings m.root); return {}) ∧
      (m.settingsFile ≠ none → absent = throw (.config (.unreadable .notFound) (some m.settingsPath))) := by
  cases hfile : m.settingsFile with
  | none =>
    refine ⟨do Run.log (.noSettings m.root); return {}, ?_, fun _ => rfl, fun h => absurd rfl h⟩
    rw [base, settingsPath, hfile]
    rfl
  | some p =>
    refine ⟨throw (.config (.unreadable .notFound) (some p)), ?_, nofun, fun _ => ?_⟩
    · rw [base, settingsPath, hfile]
      rfl
    · rw [settingsPath, hfile]
      rfl

theorem base_of_error {f : ConfigFault} (h : m.Base w.files (.error f)) :
    m.base.run w = .error (.config f (some m.settingsPath)) (w.noting (.readSettings m.settingsPath)) := by
  obtain ⟨absent, hbase, -, hnamed⟩ := m.base_eq (ρ := ρ)
  rw [hbase]
  cases h with
  | @unreadable f hread hneeded =>
    by_cases hf : f = .notFound
    · subst hf
      rw [Settings.loadOr_of_notFound hread, hnamed (hneeded.resolve_right fun h => h rfl)]
      rfl
    · exact Settings.loadOr_of_fault hread hf
  | notText hread hdecode =>
    refine Settings.loadOr_of_content hread ?_
    rw [Settings.ofContent, hdecode]
  | malformed hread hdocument =>
    refine Settings.loadOr_of_content hread ?_
    rw [Settings.ofContent, Utf8.decode?_encode]
    simp only [hdocument]

theorem base_of_ok {s : Settings} (h : m.Base w.files (.ok s)) :
    ∃ events, m.base.run w =
      .ok s { w.noting (.readSettings m.settingsPath) with log := w.log ++ events } := by
  obtain ⟨absent, hbase, hown, -⟩ := m.base_eq (ρ := ρ)
  rw [hbase]
  cases h with
  | absent hnone hread =>
    rw [Settings.loadOr_of_notFound hread, hown hnone]
    exact ⟨_, rfl⟩
  | held hread hdocument =>
    refine ⟨_, Settings.loadOr_of_settings hread ?_⟩
    rw [Settings.ofContent, Utf8.decode?_encode]
    simp only [hdocument]

/-! ## Settlements -/

/-- What a migration comes to: the scan that it is, or the first fault on the way there. What is asked for comes
on top of the settings that it starts from. -/
inductive Settlement (m : Migration) (fs : FileSystem) : Except MigrationError ScanOptions → Prop where
  | noRoot (hroot : fs.isDirectory m.root = false) : Settlement m fs (.error (.rootNotFound m.root))
  | noBase {f : ConfigFault} (hroot : fs.isDirectory m.root = true) (hbase : m.Base fs (.error f)) :
    Settlement m fs (.error (.config f (some m.settingsPath)))
  | unusable {base : Settings} {f : SettingsFault} (hroot : fs.isDirectory m.root = true) (hbase : m.Base fs (.ok base))
    (hchecked : Settings.Checked (m.extension.getD base.extension) (base.exclude ++ m.exclude) (.error f)) :
    Settlement m fs (.error (.config (.unusable f) none))
  | settled {base : Settings} {e : String} {gs : List Glob.Pattern} (hroot : fs.isDirectory m.root = true)
    (hbase : m.Base fs (.ok base))
    (hchecked : Settings.Checked (m.extension.getD base.extension) (base.exclude ++ m.exclude) (.ok (e, gs))) :
    Settlement m fs (.ok { root := m.root, extension := e, exclude := gs, dryRun := m.dryRun })

theorem exists_settlement (m : Migration) (fs : FileSystem) : ∃ v, m.Settlement fs v := by
  cases hroot : fs.isDirectory m.root with
  | false => exact ⟨_, Settlement.noRoot hroot⟩
  | true =>
    obtain ⟨f | base, hbase⟩ := m.exists_base fs
    · exact ⟨_, Settlement.noBase hroot hbase⟩
    obtain ⟨f | ⟨e, gs⟩, hchecked⟩ := Settings.exists_checked (m.extension.getD base.extension) (base.exclude ++ m.exclude)
    · exact ⟨_, Settlement.unusable hroot hbase hchecked⟩
    · exact ⟨_, Settlement.settled hroot hbase hchecked⟩

/-- Settings that a migration can start from are checked, with what is asked for on top of them. -/
theorem run_settle {base : Settings} (hroot : w.files.isDirectory m.root = true) (hbase : m.Base w.files (.ok base)) :
    ∃ w',
      (m.settle.run w =
        match (base.override m.extension m.exclude).validate with
        | .ok _ => .ok (base.override m.extension m.exclude) w'
        | .error f => .error (.config (.unusable f) none) w') ∧
      World.After w
        [(w.context.enter (.phase .configuration), .readSettings m.settingsPath),
          (w.context.enter (.phase .configuration), .checkSettings (base.override m.extension m.exclude))]
        w.files w.reporter w' := by
  obtain ⟨events, hrun⟩ := base_of_ok (w := { w with context := w.context.enter (.phase .configuration) }) hbase
  rw [settle, Run.run_within, Run.run_bind_ok (Run.run_files _)]
  simp only [hroot, Bool.not_true, Bool.false_eq_true, if_false, Run.run_bind_ok hrun]
  simp only [EStateM.run_bind, Run.run_note]
  cases (base.override m.extension m.exclude).validate with
  | ok => exact ⟨_, rfl, rfl, rfl, rfl, List.append_assoc _ _ _⟩
  | error f => exact ⟨_, rfl, rfl, rfl, rfl, List.append_assoc _ _ _⟩

theorem settle_of_error {e : MigrationError} (h : m.Settlement w.files (.error e)) :
    ∃ w', m.settle.run w = .error e w' ∧ w.Prepared w' := by
  cases h with
  | noRoot hroot =>
    rw [settle, Run.run_within, Run.run_bind_ok (Run.run_files _)]
    simp only [hroot]
    exact ⟨_, rfl, [], ⟨rfl, rfl, rfl, by simp⟩, rfl, by simp⟩
  | noBase hroot hbase =>
    rw [settle, Run.run_within, Run.run_bind_ok (Run.run_files _)]
    have hrun := base_of_error (w := { w with context := w.context.enter (.phase .configuration) }) hbase
    simp only [hroot, Bool.not_true, Bool.false_eq_true, if_false, Run.run_bind_error hrun]
    exact ⟨_, rfl, _, ⟨rfl, rfl, rfl, rfl⟩, rfl, by simp⟩
  | unusable hroot hbase hchecked =>
    obtain ⟨w', hrun, hafter⟩ := run_settle hroot hbase
    rw [Settings.validate_of_checked_error (s := Settings.override _ m.extension m.exclude) hchecked] at hrun
    exact ⟨w', hrun, _, hafter, rfl, by simp⟩

/-- A migration that comes to a scan reads its settings and checks them, and the scan is made of these. -/
theorem settle_of_scan {o : ScanOptions} (h : m.Settlement w.files (.ok o)) :
    ∃ s w', m.settle.run w = .ok s w' ∧ m.options s = .ok o ∧
      World.After w
        [(w.context.enter (.phase .configuration), .readSettings m.settingsPath),
          (w.context.enter (.phase .configuration), .checkSettings s)]
        w.files w.reporter w' := by
  cases h with
  | @settled base e gs hroot hbase hchecked =>
    obtain ⟨w', hrun, hafter⟩ := run_settle hroot hbase
    obtain ⟨hvalidate, hpatterns, rfl⟩ :=
      Settings.of_checked_ok (s := Settings.override base m.extension m.exclude) hchecked
    rw [hvalidate] at hrun
    refine ⟨_, w', hrun, ?_, hafter⟩
    rw [options, hpatterns]
    rfl

theorem settle_of_ok {o : ScanOptions} (h : m.Settlement w.files (.ok o)) :
    ∃ s w', m.settle.run w = .ok s w' ∧ m.options s = .ok o ∧ w.Prepared w' := by
  obtain ⟨s, w', hrun, hoptions, hafter⟩ := settle_of_scan h
  exact ⟨s, w', hrun, hoptions, _, hafter, rfl, by simp⟩

/-- A migration comes to one thing, since that is what its run comes to. -/
theorem settlement_unique {fs : FileSystem} {v v' : Except MigrationError ScanOptions} (h : m.Settlement fs v)
    (h' : m.Settlement fs v') : v = v' := by
  let w : World Unit := { files := fs, reporter := () }
  cases v with
  | error e =>
    obtain ⟨w1, hrun, -⟩ := settle_of_error (w := w) h
    cases v' with
    | error e' =>
      obtain ⟨w2, hrun', -⟩ := settle_of_error (w := w) h'
      cases hrun.symm.trans hrun'
      rfl
    | ok o' =>
      obtain ⟨s', w2, hrun', -⟩ := settle_of_ok (w := w) h'
      cases hrun.symm.trans hrun'
  | ok o =>
    obtain ⟨s, w1, hrun, hoptions, -⟩ := settle_of_ok (w := w) h
    cases v' with
    | error e' =>
      obtain ⟨w2, hrun', -⟩ := settle_of_error (w := w) h'
      cases hrun.symm.trans hrun'
    | ok o' =>
      obtain ⟨s', w2, hrun', hoptions', -⟩ := settle_of_ok (w := w) h'
      cases hrun.symm.trans hrun'
      cases hoptions.symm.trans hoptions'
      rfl

/-! ## Migrations -/

/-- A scan of a root that is a directory fails at a file or in telling, and in no other way. -/
theorem scan_error_cases {o : ScanOptions} {reporter : Reporter Cause ρ} {w' : World ρ} {e : MigrationError}
    (hroot : w.files.isDirectory o.root = true) (h : (o.scan reporter).run w = .error e w') :
    (∃ p c, e = .io p c) ∨ (∃ p, e = .notText p) ∨ ∃ c, e = .report c := by
  have hexit := ScanOptions.exit_scan o reporter w
  rw [h] at hexit
  cases hexit with
  | noRoot hno =>
    rw [hroot] at hno
    cases hno
  | noWalk => exact Or.inl ⟨_, _, rfl⟩
  | noSource _ hwhy =>
    rcases FileSystem.error_of_stops hwhy with rfl | ⟨q, f, rfl⟩
    · exact Or.inr (Or.inl ⟨_, rfl⟩)
    · exact Or.inl ⟨_, _, rfl⟩
  | noTelling => exact Or.inr (Or.inr ⟨_, rfl⟩)
  | noSummary => exact Or.inr (Or.inr ⟨_, rfl⟩)

/-- A migration has one settlement. If that is a fault, the migration fails with it, and no more has been done
than settings read and checked. If it is a scan, that scan is all that the migration does after its settings
have been settled, which cannot be turned into anything else; and it fails neither for its root nor for its
settings. -/
theorem settings_come_first (m : Migration) (reporter : Reporter Cause ρ) (w : World ρ) :
    (∃! v, m.Settlement w.files v) ∧
    (∀ e, m.Settlement w.files (.error e) → ∃ w', (m.run reporter).run w = .error e w' ∧ w.Prepared w') ∧
    ∀ o, m.Settlement w.files (.ok o) →
      ∃ s w1, m.settle.run w = .ok s w1 ∧ m.options s = .ok o ∧ w.Prepared w1 ∧
        (m.run reporter).run w = (o.scan reporter).run w1 ∧
        ∀ e w', (m.run reporter).run w = .error e w' →
          (∃ p c, e = .io p c) ∨ (∃ p, e = .notText p) ∨ ∃ c, e = .report c := by
  refine ⟨?_, ?_, ?_⟩
  · obtain ⟨v, hv⟩ := m.exists_settlement w.files
    exact ⟨v, hv, fun v' hv' => settlement_unique hv' hv⟩
  · intro e h
    obtain ⟨w', hrun, hprepared⟩ := settle_of_error h
    exact ⟨w', Run.run_bind_error hrun, hprepared⟩
  · intro o h
    obtain ⟨s, w1, hsettle, hoptions, hprepared⟩ := settle_of_ok h
    have hrun : (m.run reporter).run w = (o.scan reporter).run w1 := by
      rw [run, Run.run_bind_ok hsettle]
      simp only [hoptions]
    refine ⟨s, w1, hsettle, hoptions, hprepared, hrun, ?_⟩
    intro e w' herror
    obtain ⟨done, hafter, -⟩ := hprepared
    cases h with
    | settled hroot =>
      refine scan_error_cases ?_ (hrun.symm.trans herror)
      rw [hafter.files]
      exact hroot

end Migration
end AlphaCodemod
